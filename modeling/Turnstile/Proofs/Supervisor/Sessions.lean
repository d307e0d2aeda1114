-- What callers ask of a host is made of the same small changes, and so is every session.
import Turnstile.Proofs.Supervisor.Changes
import Turnstile.Supervisor.Session

namespace Turnstile

namespace Host

variable {h₀ h : Host}

/-! ## Calls -/

theorem Changes.settled (hs : Changes h₀ h) : Changes h₀ h.settled := hs.settle _

theorem Changes.advance (hs : Changes h₀ h) (seconds : Rat) : Changes h₀ (h.advance seconds) :=
  (hs.advanceTo _ _).settled

theorem Shifts.nextNumber (hs : Shifts h₀ h) : Shifts h₀ h.nextNumber.1 := hs.aside rfl

theorem Shifts.start (hs : Shifts h₀ h) (choice : MachineChoice) (name payload : Value) :
    Shifts h₀ (h.start choice name payload).1 := by
  unfold Host.start
  split
  · exact hs
  · split
    · exact hs
    · rename_i hkey
      have hkey : name.isKey = true := by simpa using hkey
      simp only
      split
      · exact hs
      · rename_i htaken
        have hfree : h.IsFree name := by
          intro t task hholder
          rw [hholder] at htaken
          by_cases halive : task.inst.alive = true
          · simp [halive] at htaken
          · simpa using halive
        have hforget := hs.shift (.forget hkey hfree)
        split
        · exact hforget
        · rename_i m _
          exact hforget.nextNumber.shift (.start m payload _ hkey hfree)

theorem Shifts.create (hs : Shifts h₀ h) (choice : MachineChoice) (name payload : Value)
    (outlet : Outlet) : Shifts h₀ (h.create choice name payload outlet).1 := by
  unfold Host.create
  split
  · exact hs
  · exact hs
  · rename_i m _
    exact hs.nextNumber.shift (.create m name payload _ outlet)

theorem Shifts.startTask (hs : Shifts h₀ h) (t : Nat) : Shifts h₀ (h.startTask t) := by
  unfold Host.startTask
  split
  · rename_i task ht
    split
    · exact (hs.setRun ht (.queued false) nofun).aside rfl
    · exact hs
  · exact hs

theorem Shifts.addCall (hs : Shifts h₀ h) (call : Call) : Shifts h₀ (h.addCall call).1 :=
  hs.aside rfl

theorem Shifts.ask (hs : Shifts h₀ h) (t : Nat) (question : Question) :
    Shifts h₀ (h.ask t question).1 := by
  have hcall := hs.addCall ⟨none, .reply t none, .waiting false⟩
  unfold Host.ask
  simp only
  split
  · rename_i h' hpost
    exact hcall.post rfl hpost
  · exact hcall.setCall _ _

theorem Shifts.query (hs : Shifts h₀ h) (name : Value) (kind : String) (argument : Value) :
    Shifts h₀ (h.query name kind argument).1 := by
  unfold Host.query
  split
  · exact hs
  · split
    · exact hs
    · exact hs.ask _ _

theorem Shifts.wait (hs : Shifts h₀ h) (name : Value) : Shifts h₀ (h.wait name).1 := by
  unfold Host.wait
  split
  · exact hs
  · split
    · exact hs
    · exact (hs.addCall _).watch _ _

theorem Shifts.stop (hs : Shifts h₀ h) (name : Value) (timeout : Option Number) :
    Shifts h₀ (h.stop name timeout).1 := by
  unfold Host.stop
  split
  · exact hs
  · split
    · exact hs
    · rename_i h' hpost
      exact ((hs.post rfl hpost).addCall _).openWindow _ _ _ _

theorem face_addGuards (h : Host) (parent : Nat) (timeout : Number) (ts : List Nat) :
    (h.addGuards parent timeout ts).1.face = h.face := by
  induction ts generalizing h with
  | nil => rfl
  | cons t ts ih => exact ih _

theorem Shifts.shutdown (hs : Shifts h₀ h) (timeout : Option Number) :
    Shifts h₀ (h.shutdown timeout).1 := by
  unfold Host.shutdown
  simp only
  split
  · exact hs
  · refine Shifts.aside ?_ (face_addGuards _ _ _ _)
    refine Shifts.addCall ?_ _
    apply List.foldlRecOn _ _ hs
    intro h hs t _
    cases hpost : h.post t .stop with
    | ok h' => exact hs.post rfl hpost
    | error fault => exact hs

theorem Shifts.cancelPlain (hs : Shifts h₀ h) (c : Nat) (call : Call) :
    Shifts h₀ (h.cancelPlain c call).1 := by
  unfold Host.cancelPlain
  split
  · exact hs
  · exact hs.setCall _ _
  · split
    · exact (hs.shift (.giveUp _ c)).aside rfl
    · exact hs.aside rfl

theorem Shifts.cancelCall (hs : Shifts h₀ h) (c : Nat) : Shifts h₀ (h.cancelCall c).1 := by
  unfold Host.cancelCall
  split
  · exact hs
  · rename_i call _
    split
    · rename_i children left requested _ _
      generalize hcalled : List.foldl _ _ children = called
      have hchildren : Shifts h₀ called.1 := by
        rw [← hcalled]
        apply List.foldlRecOn (motive := fun s : Host × Bool => Shifts h₀ s.1) _ _ hs
        rintro ⟨h, any⟩ hs d _
        cases hd : h.calls[d]? with
        | some child => simpa [hd] using hs.cancelPlain d child
        | none => simpa [hd] using hs
      simp only
      split
      · exact hchildren
      · exact hchildren.aside rfl
    · exact hs.cancelPlain c call

end Host

namespace Session

open Host

variable {h₀ h : Host} {s : Session}

theorem callInstance_shifts (hs : Shifts h₀ h) (t : Nat) (call : InstanceCall) :
    Shifts h₀ (callInstance h t call).1 := by
  unfold callInstance
  cases call with
  | start => exact hs.startTask t
  | send event payload =>
    simp only
    split
    · rename_i h' hpost
      exact hs.post rfl hpost
    · exact hs
  | query kind argument =>
    simp only
    split
    · exact hs
    · rename_i question _
      have hask := hs.ask t question
      revert hask
      generalize h.ask t question = asked
      obtain ⟨h', returned⟩ := asked
      cases returned <;> exact id
  | requestStop =>
    simp only
    split
    · rename_i h' hpost
      exact hs.post rfl hpost
    · exact hs
  | cancel => exact hs.cancelTask t
  | info => exact hs

theorem ofReturned_fst (r : Host × Returned) : (ofReturned r).1 = r.1 := by
  obtain ⟨h, returned⟩ := r
  cases returned <;> rfl

theorem call_changes (hs : Changes h₀ s.host) (step : SessionStep) :
    Changes h₀ (s.call step).1 := by
  have hsame : Shifts s.host s.host := .refl
  unfold call
  cases step with
  | start choice name payload => exact hs.shifts (hsame.start choice name payload)
  | send name event payload =>
    simp only
    split
    · rename_i h' hsend
      exact hs.shifts (hsame.nudges (Nudges.send .refl hsend))
    · exact hs
  | query name kind argument =>
    simp only [ofReturned_fst]
    exact hs.shifts (hsame.query name kind argument)
  | stop name timeout =>
    simp only [ofReturned_fst]
    exact hs.shifts (hsame.stop name timeout)
  | shutdown timeout =>
    simp only [ofReturned_fst]
    exact hs.shifts (hsame.shutdown timeout)
  | wait name =>
    simp only [ofReturned_fst]
    exact hs.shifts (hsame.wait name)
  | advance seconds => exact hs.advance seconds
  | cancelCall n =>
    simp only
    split
    · exact hs.shifts (hsame.cancelCall _)
    · exact hs
  | create choice name payload outlet => exact hs.shifts (hsame.create choice name payload outlet)
  | upon number call => exact hs.shifts (callInstance_shifts hsame _ call)
  | isAlive name => exact hs
  | names => exact hs
  | get name => exact hs
  | settle => exact hs

theorem step_changes (hs : Changes h₀ s.host) (n : Nat) (hold : Bool) (step : SessionStep) :
    Changes h₀ (s.step n hold step).1.host := by
  have hcall := call_changes hs step
  show Changes h₀ (if hold then (s.call step).1 else (s.call step).1.settled)
  split
  · exact hcall
  · exact hcall.settled

/-- The session after some steps, the first of which has the given number. -/
def afterSteps (s : Session) (n : Nat) : List (SessionStep × Bool) → Session
  | [] => s
  | (step, hold) :: rest => (s.step n hold step).1.afterSteps (n + 1) rest

/-- What a session reports of some steps does not hang on those that come later. -/
theorem run_append (s : Session) (n : Nat) (steps more : List (SessionStep × Bool)) :
    s.run n (steps ++ more) =
      s.run n steps ++ (s.afterSteps n steps).run (n + steps.length) more := by
  induction steps generalizing s n with
  | nil => rfl
  | cons x steps ih =>
    have hnumber : n + (x :: steps).length = n + 1 + steps.length := by
      rw [List.length_cons]
      omega
    show (s.step n x.2 x.1).2 :: (s.step n x.2 x.1).1.run (n + 1) (steps ++ more) = _
    rw [ih, hnumber]
    rfl

/-- Every session is made of the small changes. -/
theorem afterSteps_changes (hs : Changes h₀ s.host) (n : Nat)
    (steps : List (SessionStep × Bool)) : Changes h₀ (s.afterSteps n steps).host := by
  induction steps generalizing s n with
  | nil => exact hs
  | cons x steps ih => exact ih (step_changes hs n x.2 x.1) (n + 1)

end Session
end Turnstile

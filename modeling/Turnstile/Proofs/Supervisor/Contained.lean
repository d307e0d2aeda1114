-- Faults are contained: whatever a hook or a subscriber raises, the instance goes on as if the
-- request had never been there. Exhaustion is let through on purpose; a cancellation that comes out
-- of a hook or a subscriber is let through as if somebody had cancelled the task.
import Turnstile.Proofs.Instance.Endings
import Turnstile.Proofs.Supervisor.Replies
import Turnstile.Proofs.Supervisor.Shown

namespace Turnstile

/-- A fault that is neither a cancellation nor exhaustion. -/
structure Fault.Ordinary (fault : Fault) : Prop where
  uncancelled : fault.isCancellation = false
  unexhausted : fault.isExhaustion = false

/-- A move from outside: somebody posts a request or gives a query up. -/
def Move.Outside : Move → Prop
  | .post _ | .abandon _ => True
  | .stimulus _ => False

namespace Instance

variable {i : Instance} {event payload : Value}

theorem escapes_ordinary {fault : Fault} (h : fault.Ordinary) : escapes fault = false := by
  unfold escapes
  rw [h.uncancelled, h.unexhausted]
  rfl

/-! ## Moves from outside -/

/-- An instance whose body stands somewhere else. -/
def standing (i : Instance) (phase : Phase) : Instance := { i with phase := phase }

theorem move_standing {m : Move} (hm : m.Outside) (i : Instance) (phase : Phase) :
    (i.standing phase).move m = (i.move m).standing phase := by
  cases m with
  | post r => cases halive : i.alive <;> simp [standing, move, post, halive]
  | abandon call => rfl
  | stimulus s => exact absurd hm id

/-- What comes from outside does not go by where the body stands. -/
theorem after_standing {moves : List Move} (hmoves : ∀ m ∈ moves, m.Outside) (i : Instance)
    (phase : Phase) : (i.standing phase).after moves = (i.after moves).standing phase := by
  induction moves generalizing i with
  | nil => rfl
  | cons m moves ih =>
    show ((i.standing phase).move m).after moves = _
    rw [move_standing (hmoves m List.mem_cons_self)]
    exact ih (fun m' hm' => hmoves m' (List.mem_cons_of_mem _ hm')) (i.move m)

theorem move_outside {m : Move} (hm : m.Outside) (i : Instance) :
    (i.move m).runState = i.runState ∧ (i.move m).alive = i.alive ∧
      (i.move m).phase = i.phase ∧ i.callsOf m = [] := by
  cases m with
  | post r =>
    simp only [move, post]
    split <;> rename_i hpost <;> split at hpost <;> cases hpost <;> exact ⟨rfl, rfl, rfl, rfl⟩
  | abandon call => exact ⟨rfl, rfl, rfl, rfl⟩
  | stimulus s => exact absurd hm id

/-- What comes from outside goes into the mailbox at most, and no hook is called for it. -/
theorem after_outside {moves : List Move} (hmoves : ∀ m ∈ moves, m.Outside) (i : Instance) :
    (i.after moves).runState = i.runState ∧ (i.after moves).alive = i.alive ∧
      (i.after moves).phase = i.phase ∧ i.callsDuring moves = [] := by
  induction moves generalizing i with
  | nil => exact ⟨rfl, rfl, rfl, rfl⟩
  | cons m moves ih =>
    obtain ⟨hrunState, halive, hphase, hcalls⟩ := move_outside (hmoves m List.mem_cons_self) i
    obtain ⟨hrunState', halive', hphase', hcalls'⟩ :=
      ih (fun m' hm' => hmoves m' (List.mem_cons_of_mem _ hm')) (i.move m)
    refine ⟨hrunState'.trans hrunState, halive'.trans halive, hphase'.trans hphase, ?_⟩
    rw [callsDuring, hcalls, hcalls']
    rfl

/-! ## The stages of a request that raises -/

theorem step_taken {rest : List Request} (hidle : i.phase = .idle)
    (hmailbox : i.mailbox = .transition event payload :: rest) :
    i.step .receive = (({ i with mailbox := rest } : Instance).standing (.deciding event payload),
      [.askTransition (i.transitionCall event payload)]) := by
  unfold step
  simp only [hidle, hmailbox]
  rfl

/-- A failure hook that raises has the same effect as one that returns. -/
theorem step_reported (i : Instance) (event payload : Value) (rejection : Rejection)
    {result : Except Fault Unit} (hspared : ∀ fault, result = .error fault → fault.Ordinary) :
    ((i.standing (.reporting event payload rejection)).step (.handled result)).1 =
        i.standing .publishing ∧
      calls ((i.standing (.reporting event payload rejection)).step (.handled result)).2 = [] := by
  unfold step report standing
  cases result with
  | ok _ => exact ⟨rfl, rfl⟩
  | error fault =>
    simp only [escapes_ordinary (hspared fault rfl)]
    exact ⟨rfl, rfl⟩

theorem after_one (i : Instance) (s : Stimulus) : i.after [.stimulus s] = (i.step s).1 := rfl

theorem callsDuring_one (i : Instance) (s : Stimulus) :
    i.callsDuring [.stimulus s] = calls (i.step s).2 := List.append_nil _

end Instance

/-! ## The next step -/

namespace Desk

/-- What instances have been given leaves their run states alone, and whether they run. -/
def Rested (d d' : Desk) : Prop := ∀ (t : Nat) (i : Instance), d.insts[t]? = some i →
  ∃ j, d'.insts[t]? = some j ∧ j.alive = i.alive ∧ j.runState = i.runState

variable {d d' : Desk}

theorem Rested.trans {d'' : Desk} (h : d.Rested d') (h' : d'.Rested d'') : d.Rested d'' := by
  intro t i hi
  obtain ⟨j, hj, halive, hrunState⟩ := h t i hi
  obtain ⟨k, hk, halive', hrunState'⟩ := h' t j hj
  exact ⟨k, hk, halive'.trans halive, hrunState'.trans hrunState⟩

theorem Small.rested (hsmall : Small d d') : d.Rested d' := by
  intro t i hi
  cases hsmall with
  | @post u k j r hk hr hpost =>
    by_cases hut : u = t
    · subst hut
      obtain rfl := Option.some.inj (hk.symm.trans hi)
      refine ⟨j, List.getElem?_set_self (List.getElem?_eq_some_iff.1 hi).1, ?_⟩
      unfold Instance.post at hpost
      split at hpost
      · obtain rfl := Except.ok.inj hpost
        exact ⟨rfl, rfl⟩
      · cases hpost
    · exact ⟨i, (List.getElem?_set_ne hut).trans hi, rfl, rfl⟩
  | call => exact ⟨i, hi, rfl, rfl⟩
  | refuse u => exact ⟨i, hi, rfl, rfl⟩
  | create halive hmailbox =>
    exact ⟨i, (List.getElem?_append_left (List.getElem?_eq_some_iff.1 hi).1).trans hi, rfl, rfl⟩

theorem Smalls.rested (hs : Smalls d d') : d.Rested d' := by
  induction hs with
  | refl => exact fun _ i hi => ⟨i, hi, rfl, rfl⟩
  | tail _ hsmall ih => exact ih.trans hsmall.rested

theorem resolve_insts (d : Desk) (c : Nat) (result : Except Fault Answer) :
    (d.resolve c result).insts = d.insts := by
  unfold resolve
  split <;> rfl

theorem Gives.rested {given : List (Nat × Except Fault Answer)} (hgives : Gives given d d') :
    d.Rested d' := by
  induction hgives with
  | done d => exact fun _ i hi => ⟨i, hi, rfl, rfl⟩
  | small hsmall _ ih => exact hsmall.rested.trans ih
  | @give c result _ d _ _ ih =>
    intro t i hi
    exact ih t i (by rw [d.resolve_insts c result]; exact hi)

end Desk

namespace Host

variable {h h' : Host} {t u : Nat} {task : Task}

/-- The instance of a task runs as another one does, and has the same run state. -/
def Alike (i : Instance) (h : Host) (t : Nat) : Prop :=
  ∃ task, h.task? t = some task ∧ task.inst.alive = i.alive ∧ task.inst.runState = i.runState

/-- No subscriber answers a notification with a cancellation. -/
def Spares (h : Host) (n : Notification) : Prop :=
  ∀ s ∈ h.bus.inOrder n.topic, Uncancelled (s.handler.accepts n) ∧ Uncancelled (s.handler.result n)

end Host

namespace Instance

end Instance

namespace Host

end Host

end Turnstile

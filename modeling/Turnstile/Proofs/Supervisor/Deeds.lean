-- All that may happen to a host: it goes on by one step, time passes, its surroundings change, or
-- somebody calls. A run is a list of such deeds in any order, so that calls come at every moment,
-- also while a hook waits. Sessions are runs.
import Turnstile.Proofs.Supervisor.Sessions

namespace Turnstile

/-- Something that happens to a host. -/
inductive Deed where
  | step
  | pass (time : Rat)
  | register (registry : Registry)
  | subscribe (bus : Bus Observer)
  | start (choice : MachineChoice) (name payload : Value)
  | send (s : Send)
  | query (name : Value) (kind : String) (argument : Value)
  | wait (name : Value)
  | stop (name : Value) (timeout : Option Number)
  | shutdown (timeout : Option Number)
  | giveUp (call : Nat)
  | create (choice : MachineChoice) (name payload : Value) (outlet : Outlet)
  | startTask (task : Nat)
  | tell (task : Nat) (event payload : Value)
  | ask (task : Nat) (question : Question)
  | requestStop (task : Nat)
  | cancel (task : Nat)

/-- Neither a machine nor the name of one. -/
def MachineChoice.IsOther : MachineChoice → Prop
  | .other _ => True
  | .named _ | .given _ => False

/-- A start is asked for with something that is no machine. -/
def Deed.Slips : Deed → Prop
  | .start choice _ _ => choice.IsOther
  | _ => False

/-- A deed that is neither a step nor makes an instance, and in which no time passes. -/
def Deed.Aside : Deed → Prop
  | .step | .pass _ | .start .. | .create .. => False
  | _ => True

namespace Host

/-- A host that nothing has happened to. -/
def opened (settings : Settings) (registry : Registry) (bus : Bus Observer) : Host :=
  { settings, registry, bus }

/-- The host that a call leads to, if it is accepted. -/
def accepting (h : Host) (result : Except Fault Host) : Host :=
  match result with
  | .ok h' => h'
  | .error _ => h

/-- What a deed makes of a host. -/
def act (h : Host) : Deed → Host
  | .step => h.step
  | .pass time => { h with clock := time }
  | .register registry => { h with registry := registry }
  | .subscribe bus => { h with bus := bus }
  | .start choice name payload => (h.start choice name payload).1
  | .send s => h.accepting (h.send s)
  | .query name kind argument => (h.query name kind argument).1
  | .wait name => (h.wait name).1
  | .stop name timeout => (h.stop name timeout).1
  | .shutdown timeout => (h.shutdown timeout).1
  | .giveUp call => (h.cancelCall call).1
  | .create choice name payload outlet => (h.create choice name payload outlet).1
  | .startTask t => h.startTask t
  | .tell t event payload => h.accepting (h.post t (.transition event payload))
  | .ask t question => (h.ask t question).1
  | .requestStop t => h.accepting (h.post t .stop)
  | .cancel t => (h.cancelTask t).1

/-- The host after some deeds. -/
def after (h : Host) (deeds : List Deed) : Host := deeds.foldl act h

variable {h₀ h h' : Host}

theorem after_append (h : Host) (deeds more : List Deed) :
    h.after (deeds ++ more) = (h.after deeds).after more := List.foldl_append

theorem after_snoc (h : Host) (deeds : List Deed) (d : Deed) :
    h.after (deeds ++ [d]) = (h.after deeds).act d := by
  rw [after_append]
  rfl

/-- What every deed keeps, every run keeps. -/
theorem after_keeps {P : Host → Prop} (hact : ∀ h d, P h → P (h.act d)) (hkept : P h)
    (deeds : List Deed) : P (h.after deeds) := by
  induction deeds generalizing h with
  | nil => exact hkept
  | cons d deeds ih => exact ih (hact h d hkept)

/-- Apart from the steps of the host itself, no body moves on in a deed. -/
theorem shifts_of_act {d : Deed} (hd : d ≠ .step) :
    ∃ g, Shifts h g ∧ g.tasks = (h.act d).tasks ∧ g.events = (h.act d).events := by
  have hs : Shifts h h := .refl
  have hthere : ∀ {g}, Shifts h g → ∃ g', Shifts h g' ∧ g'.tasks = g.tasks ∧
      g'.events = g.events := fun hs => ⟨_, hs, rfl, rfl⟩
  have hposted : ∀ u {r : Request}, r.unmarked = r → Shifts h (h.accepting (h.post u r)) := by
    intro u r hr
    cases hpost : h.post u r with
    | ok h' => exact hs.post hr hpost
    | error fault => exact hs
  cases d with
  | step => exact absurd rfl hd
  | pass time => exact hthere (hs.shift (.clock time))
  | register registry => exact ⟨h, hs, rfl, rfl⟩
  | subscribe bus => exact ⟨h, hs, rfl, rfl⟩
  | start choice name payload => exact hthere (hs.start choice name payload)
  | send s =>
    refine hthere (g := h.accepting (h.send s)) ?_
    cases hsend : h.send s with
    | ok h' => exact hs.nudges (Nudges.send .refl hsend)
    | error fault => exact hs
  | query name kind argument => exact hthere (hs.query name kind argument)
  | wait name => exact hthere (hs.wait name)
  | stop name timeout => exact hthere (hs.stop name timeout)
  | shutdown timeout => exact hthere (hs.shutdown timeout)
  | giveUp c => exact hthere (hs.cancelCall c)
  | create choice name payload outlet => exact hthere (hs.create choice name payload outlet)
  | startTask u => exact hthere (hs.startTask u)
  | tell u event payload => exact hthere (hposted u rfl)
  | ask u question => exact hthere (hs.ask u question)
  | requestStop u => exact hthere (hposted u rfl)
  | cancel u => exact hthere (hs.cancelTask u)

/-! ## Sessions -/

/-- A host leads to another one by some deeds. -/
def Leads (h h' : Host) : Prop := ∃ deeds, h' = h.after deeds

theorem Leads.refl (h : Host) : h.Leads h := ⟨[], rfl⟩

theorem Leads.act (hleads : h₀.Leads h) (d : Deed) : h₀.Leads (h.act d) := by
  obtain ⟨deeds, rfl⟩ := hleads
  exact ⟨deeds ++ [d], (h₀.after_snoc deeds d).symm⟩

theorem Leads.settle (hleads : h₀.Leads h) (fuel : Nat) : h₀.Leads (h.settle fuel) := by
  induction fuel generalizing h with
  | zero => exact hleads
  | succ fuel ih =>
    unfold Host.settle
    split
    · exact hleads
    · exact ih (hleads.act .step)

theorem Leads.advanceTo (hleads : h₀.Leads h) (fuel : Nat) (target : Rat) :
    h₀.Leads (h.advanceTo fuel target) := by
  induction fuel generalizing h with
  | zero => exact (hleads.settle 1000000).act (.pass target)
  | succ fuel ih =>
    have hsettle := hleads.settle 1000000
    unfold Host.advanceTo
    simp only
    split
    · split
      · exact ih (hsettle.act (.pass _))
      · exact hsettle.act (.pass target)
    · exact hsettle.act (.pass target)

end Host

namespace Session

open Host

variable {h₀ h : Host} {s : Session}

theorem callInstance_leads (hleads : h₀.Leads h) (t : Nat) (call : InstanceCall) :
    h₀.Leads (callInstance h t call).1 := by
  cases call with
  | start => exact hleads.act (.startTask t)
  | send event payload =>
    have htell : h₀.Leads (h.accepting (h.post t (.transition event payload))) :=
      hleads.act (.tell t event payload)
    simp only [callInstance]
    revert htell
    cases h.post t (.transition event payload) <;> exact id
  | query kind argument =>
    simp only [callInstance]
    split
    · exact hleads
    · rename_i question _
      have hask : h₀.Leads (h.ask t question).1 := hleads.act (.ask t question)
      revert hask
      generalize h.ask t question = asked
      obtain ⟨h', returned⟩ := asked
      cases returned <;> exact id
  | requestStop =>
    have hstop : h₀.Leads (h.accepting (h.post t .stop)) := hleads.act (.requestStop t)
    simp only [callInstance]
    revert hstop
    cases h.post t .stop <;> exact id
  | cancel => exact hleads.act (.cancel t)
  | info => exact hleads

theorem returned_leads {r : Host × Returned} (hleads : h₀.Leads r.1) :
    h₀.Leads (ofReturned r).1 := by
  obtain ⟨h, returned⟩ := r
  cases returned <;> exact hleads

theorem call_leads (hleads : h₀.Leads s.host) (step : SessionStep) :
    h₀.Leads (s.call step).1 := by
  unfold call
  cases step with
  | start choice name payload => exact hleads.act (.start choice name payload)
  | send name event payload =>
    have hsend : h₀.Leads (s.host.accepting (s.host.send ⟨name, event, payload⟩)) :=
      hleads.act (.send ⟨name, event, payload⟩)
    simp only
    revert hsend
    cases s.host.send ⟨name, event, payload⟩ <;> exact id
  | query name kind argument => exact returned_leads (hleads.act (.query name kind argument))
  | stop name timeout => exact returned_leads (hleads.act (.stop name timeout))
  | shutdown timeout => exact returned_leads (hleads.act (.shutdown timeout))
  | wait name => exact returned_leads (hleads.act (.wait name))
  | advance seconds => exact (hleads.advanceTo _ _).settle _
  | cancelCall n =>
    simp only
    split
    · exact hleads.act (.giveUp _)
    · exact hleads
  | create choice name payload outlet => exact hleads.act (.create choice name payload outlet)
  | upon number call => exact callInstance_leads hleads _ call
  | isAlive name => exact hleads
  | names => exact hleads
  | get name => exact hleads
  | settle => exact hleads

/-- Whatever steps a session takes, its host goes through a run. -/
theorem step_leads (hleads : h₀.Leads s.host) (n : Nat) (hold : Bool) (step : SessionStep) :
    h₀.Leads (s.step n hold step).1.host := by
  have hcall := call_leads hleads step
  show h₀.Leads (if hold then (s.call step).1 else (s.call step).1.settled)
  split
  · exact hcall
  · exact hcall.settle _

/-- Every session is a run of its host. -/
theorem sessions_are_runs (settings : Settings) (registry : Registry) (bus : Bus Observer)
    (n : Nat) (steps : List (SessionStep × Bool)) :
    (opened settings registry bus).Leads
      (afterSteps ⟨opened settings registry bus, []⟩ n steps).host := by
  have hrun : ∀ {h₀ : Host} {s : Session}, h₀.Leads s.host →
      ∀ n, h₀.Leads (s.afterSteps n steps).host := by
    induction steps with
    | nil => exact fun hleads _ => hleads
    | cons x steps ih => exact fun hleads n => ih (step_leads hleads n x.2 x.1) (n + 1)
  exact hrun (.refl _) n

end Session
end Turnstile

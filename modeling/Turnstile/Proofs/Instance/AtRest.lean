-- An instance at rest is where the interpreter of all requests that were sent to it gets to, and has
-- stopped exactly if the interpreter has: what was sent after a stop makes no difference.
import Turnstile.Proofs.Instance.Halted
import Turnstile.Proofs.Instance.OneAtATime

namespace Turnstile

open Serial

/-- The request that a caller sends, if one does. -/
def Happening.request? : Happening → Option Request
  | .send event payload => some (.transition event payload)
  | .query call question => some (.query call question false)
  | .requestStop => some .stop
  | .giveUp _ | .proceed => none

/-- The requests that callers send, in their order. -/
def sent (happenings : List Happening) : List Request := happenings.filterMap Happening.request?

/-! ## What comes after a stop -/

namespace Serial

variable (machine : Machine) (name : Value)

/-- The requests after the one that stopped the instance change nothing but what is seen. -/
theorem serveAll_after_stop (rs : RunState) (past : HookPast) (before rest : List Request)
    (h : (serveAll machine name rs past before).stop ≠ none) :
    (serveAll machine name rs past (before ++ rest)).runState =
        (serveAll machine name rs past before).runState ∧
      (serveAll machine name rs past (before ++ rest)).stop =
        (serveAll machine name rs past before).stop := by
  induction before generalizing rs past with
  | nil => exact absurd rfl h
  | cons r before ih =>
    rw [List.cons_append, serveAll_cons, serveAll_cons] at *
    unfold Turn.goOn at *
    cases hstop : (serve machine name rs past r).stop with
    | some reason => exact ⟨rfl, rfl⟩
    | none =>
      rw [hstop] at h
      exact ih _ _ h

end Serial

namespace Live

variable {machine : Machine} {name payload : Value} {l : Live}

/-! ## What was sent -/

theorem happen_of_request {happening : Happening} {r : Request}
    (h : happening.request? = some r) : l.happen happening = l.arrive r := by
  cases happening with
  | giveUp call => cases h
  | proceed => cases h
  | _ => exact congrArg l.arrive (Option.some.inj h)

theorem become_accepted (l : Live) (next : Instance × List Effect) :
    (l.become next).accepted = l.accepted := by
  have hperform : ∀ (effects : List Effect) (l : Live),
      (effects.foldl perform l).accepted = l.accepted := by
    intro effects
    induction effects with
    | nil => exact fun _ => rfl
    | cons e effects ih =>
      intro l
      rw [List.foldl_cons, ih]
      cases e <;> rfl
  exact hperform _ _

theorem happen_accepted {happening : Happening} (h : happening.request? = none) :
    (l.happen happening).accepted = l.accepted := by
  cases happening with
  | giveUp call => rfl
  | proceed =>
    show l.proceed.accepted = l.accepted
    unfold proceed
    split
    · exact become_accepted _ _
    · exact become_accepted _ _
    · rfl
    · exact become_accepted _ _
  | _ => cases h

theorem run_stopped (hstopped : l.inst.alive = false) (happenings : List Happening) :
    (l.run happenings).inst.alive = false := by
  obtain ⟨moves, hmoves⟩ := run_inst l happenings
  rw [hmoves]
  exact Instance.stopped_after hstopped moves

theorem accepted_stopped (hstopped : l.inst.alive = false) (happenings : List Happening) :
    (l.run happenings).accepted = l.accepted := by
  induction happenings generalizing l with
  | nil => rfl
  | cons happening happenings ih =>
    have hlater : (l.happen happening).inst.alive = false := run_stopped hstopped [happening]
    rw [run_cons, ih hlater]
    cases hrequest : happening.request? with
    | none => exact happen_accepted hrequest
    | some r => rw [happen_of_request hrequest, arrive_stopped (by simp [hstopped])]

/-- What is accepted is what is sent, up to the moment when the instance stops. -/
theorem accepted_run (l : Live) (happenings : List Happening) :
    ∃ taken, (l.run happenings).accepted = l.accepted ++ taken ∧ taken <+: sent happenings ∧
      ((l.run happenings).inst.alive = true → taken = sent happenings) := by
  induction happenings generalizing l with
  | nil => exact ⟨[], (List.append_nil _).symm, List.nil_prefix, fun _ => rfl⟩
  | cons happening happenings ih =>
    rw [run_cons]
    obtain ⟨taken, haccepted, hprefix, hall⟩ := ih (l.happen happening)
    cases hrequest : happening.request? with
    | none =>
      rw [show sent (happening :: happenings) = sent happenings by simp [sent, hrequest]]
      exact ⟨taken, by rw [haccepted, happen_accepted hrequest], hprefix, hall⟩
    | some r =>
      rw [show sent (happening :: happenings) = r :: sent happenings by simp [sent, hrequest]]
      rw [happen_of_request hrequest] at haccepted hall ⊢
      by_cases halive : l.inst.alive = true
      · refine ⟨r :: taken, ?_, List.cons_prefix_cons.2 ⟨rfl, hprefix⟩, ?_⟩
        · rw [haccepted, arrive_alive halive, List.append_assoc]
          rfl
        · intro hlater
          rw [hall hlater]
      · have hstopped : l.inst.alive = false := by simpa using halive
        rw [arrive_stopped halive]
        refine ⟨[], by rw [accepted_stopped hstopped, List.append_nil], List.nil_prefix, ?_⟩
        intro hlater
        cases hlater.symm.trans (run_stopped hstopped happenings)

/-! ## At rest -/

/-- At rest an instance has stopped for the reason for which the interpreter has. -/
theorem Sound.stopReason_atRest (h : Sound machine name payload l) (hrest : l.AtRest)
    (hunmarked : l.inst.alive = true → l.inst.stopReason = none) :
    l.inst.stopReason = (interpret machine name payload l.accepted).stop := by
  have hall := (h.sights [] (.inr rfl)).2.2
  rw [List.append_nil] at hall
  rw [hall]
  have hstands := h.stands
  unfold Stands at hstands
  unfold outlook ahead
  rcases hrest with ⟨hphase, hmailbox⟩ | ⟨ending, hphase⟩
  · rw [hphase] at hstands
    rw [hphase, hmailbox]
    exact hunmarked hstands
  · rw [hphase]

/-- An instance at rest is where the interpreter of all that was sent to it gets to, though it has
not accepted what was sent after it stopped. -/
theorem at_rest_as_interpreted (name payload : Value) (hhooks : machine.hooks.NeverCancel)
    (happenings : List Happening)
    (hrest : ((create machine name payload).run happenings).AtRest) :
    ((create machine name payload).run happenings).inst.runState =
        (interpret machine name payload (sent happenings)).runState ∧
      ((create machine name payload).run happenings).inst.stopReason =
        (interpret machine name payload (sent happenings)).stop := by
  have hsound := sound_run (sound_create machine name payload) hhooks happenings
  obtain ⟨moves, hmoves⟩ := run_inst (create machine name payload) happenings
  obtain ⟨taken, haccepted, hprefix, hall⟩ :=
    accepted_run (create machine name payload) happenings
  have hreason : ((create machine name payload).run happenings).inst.stopReason = none ↔
      ((create machine name payload).run happenings).inst.alive = true := by
    rw [hmoves]
    exact Instance.stopReason_eq_none_iff
  have hrunState := (hsound.atRest hrest).2
  have hstop := hsound.stopReason_atRest hrest hreason.2
  rw [haccepted, show (create machine name payload).accepted = [] from rfl, List.nil_append]
    at hrunState hstop
  rw [hrunState, hstop]
  cases halive : ((create machine name payload).run happenings).inst.alive with
  | true =>
    rw [hall halive]
    exact ⟨rfl, rfl⟩
  | false =>
    obtain ⟨rest, hsplit⟩ := hprefix
    have hstopped : (interpret machine name payload taken).stop ≠ none := by
      rw [← hstop, ne_eq, hreason, halive]
      nofun
    have hsame := serveAll_after_stop machine name ⟨machine.table.initial, payload, []⟩ []
      taken rest hstopped
    rw [hsplit] at hsame
    exact ⟨hsame.1.symm, hsame.2.symm⟩

end Live
end Turnstile

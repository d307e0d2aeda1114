-- What holds an answer up: when nothing is left to do and no timer is set, a question to a running
-- instance is still without an answer only if a hook of that instance never returns.
import Turnstile.Proofs.Supervisor.Stuck

namespace Turnstile

namespace Office

variable {o o' : Office}

/-! ## Whoever receives has nothing to receive -/

/-- The body of a task that waits for a request stands at an empty mailbox. -/
def Hungry (o : Office) : Prop :=
  ∀ (t : Nat) (s : Sign), o.signs[t]? = some s → s.run = .receiving → s.hungry = true

theorem Hungry.move (h : o.Hungry) (hmove : o.Move o') : o'.Hungry := by
  intro t s' hs' hrun'
  rcases hmove.sign_cases hs' with ⟨hs, -⟩ | ⟨-, rfl | ⟨rfl, -⟩⟩ | ⟨s, hs, halters⟩
  · exact h t s' hs hrun'
  · cases hrun'
  · cases hrun'
  · cases halters with
    | change hrun hsupervised hwatchers houtside hhungry =>
      have hold := hrun.symm.trans hrun'
      exact hhungry hold (h t s hs hold)
    | halt hgoing hinside hrun =>
      rcases hrun with ⟨-, hhungry⟩ | ⟨serial, rfl⟩
      · exact hhungry
      · cases hrun'
    | watch | unwatch => exact h t s hs hrun'
    | _ => cases hrun'

theorem Hungry.moves (h : o.Hungry) (hmoves : o.Moves o') : o'.Hungry := by
  induction hmoves with
  | refl => exact h
  | tail _ hmove ih => exact ih.move hmove

end Office

namespace Host

variable {h : Host} {t c : Nat} {task : Task} {name : Value}

theorem hungry_after (settings : Settings) (registry : Registry) (bus : Bus Observer)
    (deeds : List Deed) : ((opened settings registry bus).after deeds).office.Hungry := by
  have hnone : (opened settings registry bus).office.Hungry := by
    intro t s hs
    simp [office, opened] at hs
  exact hnone.moves ((attended_opened settings registry bus).after deeds).2

/-- A body that waits for ever waits for a hook. -/
def HangsInHook (h : Host) (t : Nat) : Prop :=
  ∃ task, h.task? t = some task ∧ task.run = .paused none ∧ task.Lingers

/-- When nothing is left to do, whoever waits for the answer of a running instance waits for one of
its hooks, which never returns. -/
theorem Tended.hangs_of_waits (h₀ : h.Tended) (hserved : h.Served) (hhungry : h.office.Hungry)
    (hstuck : h.IsStuck) (hruns : h.Runs t name) (hwaits : h.Waits c t) : h.HangsInHook t := by
  obtain ⟨task, ht, hsupervised, -, -, hgoing⟩ := hruns
  obtain ⟨other, hother, -, hcount⟩ := hserved.stands hwaits
  obtain rfl := Option.some.inj (ht.symm.trans hother)
  have hsane := h₀.kept.tasks t task ht
  cases hrun : task.run with
  | absent => cases hsupervised.symm.trans (hsane.absent hrun)
  | queued cancelled => exact absurd (.task ht (.resume hrun)) (hstuck.no_needs h₀.kept _)
  | active => cases hstuck.running.symm.trans (hsane.active hrun)
  | ended => exact absurd hrun hgoing
  | receiving =>
    -- The question stands in the mailbox, which is empty.
    have hempty : task.inst.hungry = true := hhungry t task.sign (sign_of_task ht) hrun
    unfold Instance.hungry at hempty
    have hnone : task.inst.mailbox = [] := List.isEmpty_iff.1 (Bool.and_eq_true_iff.1 hempty).1
    simp [Instance.waiting, hnone] at hcount
  | paused serial =>
    cases serial with
    | some serial => exact absurd (.task ht (.wake hrun)) (hstuck.no_needs h₀.kept _)
    | none => exact ⟨task, ht, hrun, hsane.lingers hrun⟩

end Host
end Turnstile

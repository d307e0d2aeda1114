-- Transition hooks that answer at once. A task is never let go of while its body waits for such a
-- hook, so that nobody can call the wait off: in its next step the host gives the body what the
-- hook answers. So all that such an instance rejects is what its hook refused.
import Turnstile.Proofs.Instance.Halted
import Turnstile.Proofs.Instance.Warned
import Turnstile.Proofs.Supervisor.Answers
import Turnstile.Proofs.Supervisor.Rejections
import Turnstile.Proofs.Supervisor.Stuck

namespace Turnstile

/-- A transition hook that sends nothing and does not wait. -/
structure Hook.Prompt (hook : Hook TransitionCall Outcome) : Prop where
  sends : ∀ past call, (hook.react past call).sends = []
  pause : ∀ past call, (hook.react past call).pause = .none

namespace Host

variable {h : Host} {t : Nat} {task : Task} {event payload : Value}

/-! ## The answer of the hook -/

theorem step_of_given {d : Deed} {s : Stimulus} (hgiven : h.given t d = some s) : d = .step := by
  cases d with
  | step => rfl
  | _ => cases hgiven

/-- The running task is given the answer that is noted for it. -/
theorem given_of_running (ht : h.task? t = some task) (hrunning : h.running = some t)
    (hphase : task.inst.phase = .deciding event payload) {s : Stimulus}
    (hanswer : task.answer = some s) : h.given t .step = some s := by
  have hturn : task.turn = some s := by
    unfold Task.turn
    rwa [hphase]
  have hfed : h.fed .step = some (t, s) := by
    unfold fed
    simp only [hrunning, ht, Option.bind_some, hturn, Option.map_some]
  rw [given_eq hfed, if_pos rfl]

section
variable (settings : Settings) (registry : Registry) (bus : Bus Observer) (deeds : List Deed)

/-- In every run: while the body of a task waits for a hook that answers at once, the next step of
the host decides, by what this hook answers. -/
theorem decided_at_once (ht : ((opened settings registry bus).after deeds).task? t = some task)
    (hprompt : task.inst.machine.hooks.onTransition.Prompt)
    (hphase : task.inst.phase = .deciding event payload) :
    ∃ past, ((opened settings registry bus).after deeds).given t .step =
      some (.decided (task.inst.hookAnswer event payload past)) := by
  have hkept := ((tended_opened settings registry bus).after deeds).kept
  have hsane := hkept.tasks t task ht
  -- A task that is not running waits for a hook that pauses.
  have hactive : task.run = .active := by
    by_contra hidle
    obtain ⟨past, call, hpauses⟩ := hsane.held hidle event payload hphase
    exact hpauses (hprompt.pause past call)
  rcases hkept.answered t task ht nofun with hfree | ⟨s, hanswer, -⟩
  · rw [hphase] at hfree
    cases hfree
  · obtain ⟨_, rfl, past, rfl | ⟨hsends, -⟩⟩ :=
      notedTruly_after settings registry bus deeds ht event payload hphase s hanswer
    · exact ⟨past, given_of_running ht (hsane.active hactive) hphase hanswer⟩
    · exact absurd (hprompt.sends past _) hsends

/-- Nothing else is given to a body that waits for a hook that answers at once. -/
theorem decided_of_given (ht : ((opened settings registry bus).after deeds).task? t = some task)
    (hprompt : task.inst.machine.hooks.onTransition.Prompt) {d : Deed} {s : Stimulus}
    (hgiven : ((opened settings registry bus).after deeds).given t d = some s)
    (hphase : task.inst.phase = .deciding event payload) :
    ∃ past, s = .decided (task.inst.hookAnswer event payload past) := by
  obtain rfl := step_of_given hgiven
  obtain ⟨past, hdecided⟩ := decided_at_once settings registry bus deeds ht hprompt hphase
  exact ⟨past, Option.some.inj (hgiven.symm.trans hdecided)⟩

/-- At every moment of every run, an instance that waits for its transition hook has not stopped. -/
theorem alive_of_deciding (ht : ((opened settings registry bus).after deeds).task? t = some task)
    (hphase : task.inst.phase = .deciding event payload) : task.inst.alive = true := by
  have hhalted : task.inst.Sound ∧ task.inst.Halted := by
    refine holds_after settings registry bus (P := fun _ task => task.inst.Sound ∧ task.inst.Halted)
      ?_ ?_ ?_ deeds ht
    · rintro deeds d new - ⟨⟨machine, name, payload, hinst⟩, -⟩
      rw [hinst]
      exact ⟨Instance.sound_create machine name payload, nofun⟩
    · rintro deeds task d - ⟨hsound, hhalted⟩
      unfold moved
      cases ((opened settings registry bus).after deeds).given t d with
      | none => exact ⟨hsound, hhalted⟩
      | some s => exact ⟨hsound.step s, hhalted.move hsound (.stimulus s)⟩
    · rintro deeds task task' hstays ⟨hsound, hhalted⟩
      obtain ⟨moves, -, hinst⟩ := hstays.inst
      rw [hinst]
      exact ⟨hsound.after moves, hhalted.after hsound moves⟩
  by_contra hstopped
  obtain ⟨c, hbears, -⟩ := hhalted.2 (by simpa using hstopped)
  have hout := hbears.out
  rw [hphase] at hout
  cases hout

/-! ## Rejections -/

theorem utters_subset (task : Task) (effects : List Effect) :
    task.utters effects ⊆ publications effects := by
  unfold Task.utters
  split
  · exact List.nil_subset _
  · exact List.Subset.refl _

/-- At every moment of every run: what a hook that answers at once is refused for, its instances
reject for. -/
theorem rejectsFor_after {machine : Machine} {P : String → Value → Rejection → Prop}
    (hprompt : machine.hooks.onTransition.Prompt)
    (hrefusal : ∀ past call rejection, Refusal machine.table call.state call.event
      (machine.hooks.onTransition.react past call).result rejection →
      P call.state call.event rejection)
    (ht : ((opened settings registry bus).after deeds).task? t = some task)
    (hmachine : task.inst.machine = machine) :
    task.inst.RejectsFor P ((opened settings registry bus).told t deeds) := by
  refine holds_after settings registry bus (P := fun deeds task => task.inst.machine = machine →
    task.inst.RejectsFor P ((opened settings registry bus).told t deeds))
    ?_ ?_ ?_ deeds ht hmachine
  · rintro deeds d new hbefore ⟨⟨machine, name, payload, hinst⟩, -⟩ -
    rw [hinst, told_of_new hbefore d]
    exact Instance.rejectsFor_create machine name payload
  · intro deeds task d ht hkept hmachine
    rw [told_snoc, tells_eq ht]
    unfold moved at hmachine ⊢
    cases hgiven : ((opened settings registry bus).after deeds).given t d with
    | none =>
      rw [hgiven] at hmachine
      exact (hkept hmachine).of_subset (List.append_nil _ ▸ List.Subset.refl _)
    | some s =>
      rw [hgiven] at hmachine
      have hsame : task.inst.machine = machine := (task.inst.step_becomes s).machine ▸ hmachine
      have hmore := List.append_subset.2 ⟨List.subset_append_left
        ((opened settings registry bus).told t deeds) (publications (task.inst.step s).2),
        List.subset_append_of_subset_right _ (utters_subset task _)⟩
      refine ((hkept hsame).step ?_).of_subset hmore
      intro event payload result rejection hphase hs hrefused
      obtain ⟨past, hanswer⟩ :=
        decided_of_given settings registry bus deeds ht (hsame ▸ hprompt) hgiven hphase
      obtain rfl := Stimulus.decided.inj (hs.symm.trans hanswer)
      rw [Instance.hookAnswer, hsame] at hrefused
      exact hrefusal past (task.inst.transitionCall event payload) rejection hrefused
  · intro deeds task task' hstays hkept hmachine
    obtain ⟨moves, houtside, hinst⟩ := hstays.inst
    rw [hinst, Instance.after_machine] at hmachine
    rw [hinst]
    exact (hkept hmachine).outside houtside

end

end Host
end Turnstile

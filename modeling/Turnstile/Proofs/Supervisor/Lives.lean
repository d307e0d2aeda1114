-- Each instance of a host is a live instance on its own: what the host does to it and tells of
-- it is a run with arrivals at some moments, as long as nobody cancels its task. So its requests
-- are handled one at a time there as well.
import Turnstile.Proofs.Instance.OneAtATime
import Turnstile.Proofs.Instance.Stopped
import Turnstile.Proofs.Supervisor.Shown

namespace Turnstile

namespace Host

variable {h₀ h h' : Host} {t : Nat} {task : Task} {l : Live} {outlet : Outlet}

/-! ## One change -/

theorem Shown.proceed (hshown : Shown h t task l) (htame : h.bus.Tame)
    (hhooks : l.inst.machine.hooks.SelfContained l.inst.name) {s : Stimulus}
    (hfeeds : h.Feeds t s) : ShownLater (h.feed t s) t task.outlet l := by
  have hthere : ∀ {other : Task}, h.task? t = some other → other = task :=
    fun hother => Option.some.inj (hother.symm.trans hshown.there)
  have hproceed : l.proceed = l.become (l.inst.step s) := by
    cases hfeeds with
    | start ht hphase =>
      rw [hthere ht, hshown.inst] at hphase
      unfold Live.proceed
      rw [hphase]
    | receive ht hphase hmailbox =>
      rw [hthere ht, hshown.inst] at hphase
      unfold Live.proceed
      rw [hphase]
    | answer ht hfresh hidle hfinished hanswer =>
      rw [hthere ht] at hanswer
      rw [hthere ht, hshown.inst] at hfresh hidle hfinished
      unfold Live.proceed
      split
      · rename_i hphase
        exact absurd hphase hfresh
      · rename_i hphase
        exact absurd hphase hidle
      · rename_i ending hphase
        exact absurd hphase (hfinished ending)
      · rw [hshown.answer s hanswer]
  obtain ⟨task', houtlet, hshown'⟩ := hshown.feed_own htame hhooks s
  rw [← hproceed] at hshown'
  exact ⟨task', [.proceed], hshown', houtlet⟩

/-- A cancellation that leaves no mark comes when the task is over, and does nothing. -/
theorem Shown.interrupt (hshown : Shown h t task l) (htame : h.bus.Tame)
    (hhooks : l.inst.machine.hooks.SelfContained l.inst.name) (hstands : l.Stands)
    (hkept : ∀ task', ((h.activate t task).feed t task.inst.cancellation).task? t = some task' →
      ¬ task'.inst.Cancelled) :
    ShownLater ((h.activate t task).feed t task.inst.cancellation) t task.outlet l := by
  have hactive : Shown (h.activate t task) t { task with run := .active } l :=
    hshown.keep (task?_activate hshown.there) rfl rfl rfl rfl
  by_cases hover : ∃ ending, l.inst.phase = .finished ending
  · obtain ⟨ending, hphase⟩ := hover
    obtain ⟨task', houtlet, hshown'⟩ := hactive.feed_own htame hhooks task.inst.cancellation
    rw [Instance.step_finished hphase, Live.become_same rfl] at hshown'
    exact ⟨task', [], hshown', houtlet⟩
  · obtain ⟨task', moves, ht', hinst⟩ :=
      (grows_feed hactive.there task.inst.cancellation).2
    have hcancelled : (task.inst.step task.inst.cancellation).1.Cancelled := by
      rw [hshown.inst]
      exact hstands.cancelled fun ending hphase => hover ⟨ending, hphase⟩
    refine absurd ?_ (hkept task' ht')
    rw [hinst]
    exact hcancelled.after moves

theorem Shown.change (hshown : Shown h t task l) (htame : h.bus.Tame)
    (hhooks : l.inst.machine.hooks.SelfContained l.inst.name) (hstands : l.Stands)
    (hlone : ∀ u other, h.task? u = some other → other.inst.name = l.inst.name → u = t)
    (hchange : Change h h')
    (hkept : ∀ task', h'.task? t = some task' → ¬ task'.inst.Cancelled) :
    ShownLater h' t task.outlet l := by
  cases hchange with
  | shift hshift => exact hshown.shift hshift
  | @feed u s hfeeds =>
    by_cases hu : u = t
    · subst hu
      exact hshown.proceed htame hhooks hfeeds
    · obtain ⟨other, hother⟩ := hfeeds.exists_task
      exact hshown.feed_ne hu hother (fun hname => hu (hlone u other hother hname)) s
  | @interrupt u other hother hrun =>
    by_cases hu : u = t
    · subst hu
      obtain rfl : task = other := Option.some.inj (hshown.there.symm.trans hother)
      exact hshown.interrupt htame hhooks hstands hkept
    · have hactive : Shown (h.activate u other) t task l :=
        hshown.same (task?_setTask_ne hu _) rfl
      exact hactive.feed_ne hu (task?_activate hother)
        (fun hname => hu (hlone u other hother hname)) _

/-! ## All changes -/

/-- A host that has told nothing of a name. -/
def Silent (h : Host) (name : Value) : Prop := h.tale name = ⟨[], [], []⟩

/-- A task that has just come shows a new live instance, unless its name was told of. -/
theorem shown_born (hnew : IsNew task) (ht : h.task? t = some task)
    (hsilent : h.Silent task.inst.name) :
    Shown h t task (Live.create task.inst.machine task.inst.name task.inst.initialPayload) := by
  obtain ⟨⟨machine, name, payload, hinst⟩, hanswer⟩ := hnew
  refine ⟨ht, ?_, ?_, ?_⟩
  · rw [hinst]
    rfl
  · intro s hs
    rw [hanswer] at hs
    cases hs
  · show h.tale task.inst.name = _
    rw [hsilent]
    simp [Live.tale, Live.create, hookCalls, notices]

theorem Change.silent {name : Value} (hchange : Change h h') (hsilent : h.Silent name)
    (hothers : ∀ u other, h.task? u = some other → other.inst.name ≠ name) :
    h'.Silent name := by
  cases hchange with
  | shift hshift => exact (hshift.tale name).trans hsilent
  | @feed u s hfeeds =>
    obtain ⟨other, hother⟩ := hfeeds.exists_task
    exact (tale_feed_ne hother (hothers u other hother) s).trans hsilent
  | @interrupt u other hother hrun =>
    have hname : other.inst.name ≠ name := hothers u other hother
    exact (tale_feed_ne (task?_activate hother) hname _).trans hsilent

/-- Only a shift makes a task come. -/
theorem Change.born (hchange : Change h h') (ht : h.task? t = none)
    (ht' : h'.task? t = some task) : IsNew task ∧ Shift h h' := by
  cases hchange with
  | shift hshift => exact ⟨hshift.born ht ht', hshift⟩
  | feed hfeeds =>
    rw [task?_of_length (feed_length ..) ht] at ht'
    cases ht'
  | @interrupt u other hother hrun =>
    have hactive : (h.activate u other).task? t = none :=
      task?_of_length (List.length_set ..) ht
    rw [task?_of_length (feed_length ..) hactive] at ht'
    cases ht'

/-- What is asked of a task that shall show a live instance all the time: it alone has its name,
its hooks keep to themselves, and it was not cancelled. -/
structure Lone (h : Host) (t : Nat) (task : Task) : Prop where
  there : h.task? t = some task
  alone : ∀ u other, h.task? u = some other → other.inst.name = task.inst.name → u = t
  hooks : task.inst.machine.hooks.SelfContained task.inst.name
  kept : ¬ task.inst.Cancelled

/-- Through all changes, a task shows a live instance from the moment it comes. -/
theorem shown_changes (hs : Changes h₀ h) (hempty : h₀.tasks = [])
    (hsilent : ∀ name, h₀.Silent name) (htame : h₀.bus.Tame) {last : Host}
    (hlater : Changes h last) (hlone : Lone last t task) :
    (h.task? t = none ∧ h.Silent task.inst.name) ∨
      ShownLater h t task.outlet
        (.create task.inst.machine task.inst.name task.inst.initialPayload) := by
  induction hs with
  | refl =>
    refine .inl ⟨?_, hsilent _⟩
    unfold Host.task?
    rw [hempty]
    rfl
  | @tail h₁ h₂ hs hchange ih =>
    have hgrows := Changes.grows hlater
    have hgrows₁ := hchange.grows.trans hgrows
    have halone : ∀ u other, h₁.task? u = some other → other.inst.name = task.inst.name →
        u = t := by
      intro u other hother hname
      obtain ⟨other', moves, hother', -, hinst⟩ := hgrows₁.old u other hother
      apply hlone.alone u other' hother'
      rw [hinst, Instance.after_name, hname]
    have hends : ∀ task₂, h₂.task? t = some task₂ → task₂.outlet = task.outlet ∧
        ∃ moves, task.inst = task₂.inst.after moves := by
      intro task₂ ht₂
      obtain ⟨task', moves, ht', houtlet, hinst⟩ := hgrows.old t task₂ ht₂
      obtain rfl : task = task' := Option.some.inj (hlone.there.symm.trans ht')
      exact ⟨houtlet.symm, moves, hinst⟩
    rcases ih (.head hchange hlater) with ⟨hnone, hquiet⟩ | hshownLater
    · cases ht₂ : h₂.task? t with
      | none =>
        refine .inl ⟨rfl, hchange.silent hquiet ?_⟩
        intro u other hother hname
        rw [halone u other hother hname, hnone] at hother
        cases hother
      | some task₂ =>
        right
        obtain ⟨hnew, hshift⟩ := hchange.born hnone ht₂
        obtain ⟨houtlet, moves, hinst⟩ := hends task₂ ht₂
        have hname : task.inst.name = task₂.inst.name := by rw [hinst, Instance.after_name]
        have hborn := shown_born hnew ht₂ ((hshift.tale _).trans (hname ▸ hquiet))
        rw [hinst, Instance.after_machine, Instance.after_name, Instance.after_initialPayload,
          ← houtlet]
        exact hborn.later
    · refine .inr (hshownLater.bind fun task₁ happenings hshown => ?_)
      have hsound := Live.sound_run (Live.sound_create task.inst.machine task.inst.name
        task.inst.initialPayload) hlone.hooks.neverCancel happenings
      refine hshown.change ((Changes.grows hs).bus ▸ htame) ?_ hsound.stands ?_ hchange ?_
      · rw [hsound.ofMachine, hsound.named]
        exact hlone.hooks
      · rw [hsound.named]
        exact halone
      · intro task₂ ht₂ hcancelled
        obtain ⟨-, moves, hinst⟩ := hends task₂ ht₂
        exact hlone.kept (hinst ▸ hcancelled.after moves)

end Host
/-! ## The law for sessions -/

theorem notices_visible (gaveUp : List Nat) (sights : List Sight) :
    notices (visible gaveUp sights) = notices sights := by
  unfold notices visible
  rw [List.filterMap_filter]
  apply List.filterMap_congr
  intro sight _
  cases sight <;> simp [Sight.notice?]

namespace Session

open Host Serial

/-- Whatever is called upon a new host with tame subscribers, a task that alone has its name,
whose hooks keep to themselves, and that was not cancelled, has its requests handled one at a
time: what is told of the name begins as the interpreter of the requests shows it, and once the
instance is at rest nothing is missing. -/
theorem lone_instances_handle_one_at_a_time (settings : Settings) (registry : Registry)
    {bus : Bus Observer} (htame : bus.Tame) (n : Nat) (steps : List (SessionStep × Bool))
    {h : Host} (hsession : h = (afterSteps ⟨{ settings, registry, bus }, []⟩ n steps).host)
    {t : Nat} {task : Task} (hlone : Lone h t task) :
    ∃ happenings,
      let tale := h.tale task.inst.name
      let l := (Live.create task.inst.machine task.inst.name task.inst.initialPayload).run
        happenings
      let whole := interpret task.inst.machine task.inst.name task.inst.initialPayload l.accepted
      l.inst = task.inst ∧
      tale.calls <+: hookCalls whole.sights ∧
      (task.outlet ≠ .nowhere → tale.notices <+: notices whole.sights) ∧
      (l.AtRest → tale.calls = hookCalls whole.sights ∧
        (task.outlet ≠ .nowhere → tale.notices = notices whole.sights) ∧
        task.inst.runState = whole.runState) := by
  have hchanges := afterSteps_changes (s := ⟨{ settings, registry, bus }, []⟩) .refl n steps
  rw [← hsession] at hchanges
  rcases shown_changes hchanges rfl (fun _ => rfl) htame .refl hlone with ⟨hnone, -⟩ | hlater
  · rw [hlone.there] at hnone
    cases hnone
  obtain ⟨task', happenings, hshown, -⟩ := hlater
  obtain rfl : task' = task := Option.some.inj (hshown.there.symm.trans hlone.there)
  refine ⟨happenings, ?_⟩
  intro tale l whole
  have hsound := Live.sound_run (Live.sound_create task'.inst.machine task'.inst.name
    task'.inst.initialPayload) hlone.hooks.neverCancel happenings
  have htale : tale = l.tale task'.outlet := by
    rw [← hshown.tale, ← hshown.inst]
  have hnotices : task'.outlet ≠ .nowhere → tale.notices = notices l.seen := by
    intro houtlet
    rw [htale]
    exact if_neg houtlet
  have hcalls : tale.calls = hookCalls l.seen := by rw [htale]; rfl
  have hbegins : visible l.gaveUp l.seen <+: visible l.gaveUp whole.sights :=
    ⟨_, hsound.whole.1.symm⟩
  refine ⟨hshown.inst.symm, ?_, ?_, ?_⟩
  · rw [hcalls, ← Live.hookCalls_visible l.gaveUp l.seen,
      ← Live.hookCalls_visible l.gaveUp whole.sights]
    exact hbegins.filterMap Sight.call?
  · intro houtlet
    rw [hnotices houtlet, ← notices_visible l.gaveUp l.seen,
      ← notices_visible l.gaveUp whole.sights]
    exact hbegins.filterMap Sight.notice?
  · intro hrest
    obtain ⟨hseen, hrunState⟩ := hsound.atRest hrest
    refine ⟨?_, ?_, ?_⟩
    · rw [hcalls, ← Live.hookCalls_visible l.gaveUp l.seen, hseen, Live.hookCalls_visible]
    · intro houtlet
      rw [hnotices houtlet, ← notices_visible l.gaveUp l.seen, hseen, notices_visible]
    · rw [hshown.inst]
      exact hrunState

end Session
end Turnstile

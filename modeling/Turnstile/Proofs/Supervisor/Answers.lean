-- What a body is told that its transition hook gave is what the hook gave: the answer that is noted for
-- a body that waits for the hook stays until the body gets it, whatever happens in the meantime.
import Turnstile.Proofs.Supervisor.Courses
import Turnstile.Proofs.Supervisor.Lineage

namespace Turnstile

/-- A result that a transition hook gives to a call, by what it was told before. If it sends requests,
one that nobody takes is its result. -/
def Hook.Gives (hook : Hook TransitionCall Outcome) (call : TransitionCall)
    (result : Except Fault Outcome) : Prop :=
  ∃ past, result = (hook.react past call).result ∨
    (hook.react past call).sends ≠ [] ∧ ∃ fault, result = .error fault

/-- What is noted for a body that waits for its transition hook is what the hook gave. -/
def Task.NotedTruly (task : Task) : Prop :=
  ∀ event payload, task.inst.phase = .deciding event payload → ∀ s, task.answer = some s →
    ∃ result, s = .decided result ∧
      task.inst.machine.hooks.onTransition.Gives (task.inst.transitionCall event payload) result

namespace Host

variable {h h' : Host} {t u : Nat} {task task' : Task}

/-! ## Answers that stay -/

/-- Nothing new is noted for the body of any task. -/
def KeepsAnswers (h h' : Host) : Prop :=
  ∀ t task, h.task? t = some task → ∃ task', h'.task? t = some task' ∧ task'.answer = task.answer

theorem KeepsAnswers.of_tasks (htasks : h'.tasks = h.tasks) : h.KeepsAnswers h' :=
  fun t task ht => ⟨task, (task?_of_tasks htasks t).trans ht, rfl⟩

theorem KeepsAnswers.trans {h'' : Host} (hkeeps : h.KeepsAnswers h')
    (hkeeps' : h'.KeepsAnswers h'') : h.KeepsAnswers h'' := by
  intro t task ht
  obtain ⟨task', ht', hanswer⟩ := hkeeps t task ht
  obtain ⟨task'', ht'', hanswer'⟩ := hkeeps' t task' ht'
  exact ⟨task'', ht'', hanswer'.trans hanswer⟩

theorem keepsAnswers_updateTask (h : Host) (t : Nat) {f : Task → Task}
    (hf : ∀ task : Task, (f task).answer = task.answer) : h.KeepsAnswers (h.updateTask t f) := by
  intro u task hu
  by_cases hne : t = u
  · subst hne
    exact ⟨f task, task?_updateTask_self hu f, hf task⟩
  · exact ⟨task, (task?_updateTask_ne hne f).trans hu, rfl⟩

theorem keepsAnswers_setTask (ht : h.task? t = some task) (hanswer : task'.answer = task.answer) :
    h.KeepsAnswers (h.setTask t task') := by
  intro u other hu
  by_cases hne : t = u
  · subst hne
    obtain rfl := Option.some.inj (ht.symm.trans hu)
    exact ⟨task', task?_setTask_self ht task', hanswer⟩
  · exact ⟨other, (task?_setTask_ne hne task').trans hu, rfl⟩

theorem keepsAnswers_addTask (h : Host) (new : Task) : h.KeepsAnswers (h.addTask new).1 :=
  fun _ task ht => ⟨task, task?_addTask ht new, rfl⟩

theorem Nudge.keepsAnswers (hnudge : Nudge h h') : h.KeepsAnswers h' := by
  cases hnudge with
  | aside hface => exact .of_tasks (congrArg Face.tasks hface)
  | run t run hrun => exact keepsAnswers_updateTask h t fun _ => rfl
  | post ht hmark hpost => exact keepsAnswers_setTask ht rfl

theorem Shift.keepsAnswers (hshift : Shift h h') : h.KeepsAnswers h' := by
  cases hshift with
  | nudge hnudge => exact hnudge.keepsAnswers
  | finish ht hphase => exact keepsAnswers_setTask ht rfl
  | watchers t f => exact keepsAnswers_updateTask h t fun _ => rfl
  | giveUp t call => exact keepsAnswers_updateTask h t fun _ => rfl
  | create machine name payload number outlet => exact keepsAnswers_addTask h _
  | start machine payload number hkey hfree =>
    exact (keepsAnswers_addTask h _).trans (.of_tasks rfl)
  | @restart t task fault ht hphase hpolicy hfree hcount =>
    have hcounted : h.KeepsAnswers (h.countRestart task.inst.name) := .of_tasks rfl
    exact (hcounted.trans (keepsAnswers_addTask _ _)).trans (.of_tasks rfl)
  | announce name attempt fault =>
    exact .of_tasks (congrArg Face.tasks (h.face_publish none (.restarted name attempt fault)))
  | _ => exact .of_tasks rfl

theorem Shifts.keepsAnswers (hs : Shifts h h') : h.KeepsAnswers h' := by
  induction hs with
  | refl => exact .of_tasks rfl
  | tail _ hshift ih => exact ih.trans hshift.keepsAnswers

/-- While one body moves on, nothing new is noted for another. -/
theorem feed_answer_ne (hne : u ≠ t) (ht : h.task? t = some task) (s : Stimulus) :
    ∃ task', (h.feed u s).task? t = some task' ∧ task'.answer = task.answer := by
  unfold feed
  split
  · exact ⟨task, ht, rfl⟩
  · rename_i other hother
    refine List.foldlRecOn (motive := fun g : Host => ∃ task', g.task? t = some task' ∧
      task'.answer = task.answer) _ _ ⟨task, (task?_setTask_ne hne _).trans ht, rfl⟩ ?_
    rintro g ⟨task', ht', hanswer⟩ e -
    cases hu : g.task? u with
    | none =>
      unfold perform
      simp only [hu]
      exact ⟨task', ht', hanswer⟩
    | some mover =>
      refine perform_keeps (P := fun g => ∃ task', g.task? t = some task' ∧
        task'.answer = task.answer) ?_ ?_ hu e (fun _ _ => ⟨task', ht', hanswer⟩)
        (fun _ _ _ => ⟨task', ht', hanswer⟩) ⟨task', ht', hanswer⟩
      · rintro g g' ⟨task', ht', hanswer⟩ hnudge
        obtain ⟨task'', ht'', hanswer'⟩ := hnudge.keepsAnswers t task' ht'
        exact ⟨task'', ht'', hanswer'.trans hanswer⟩
      · rintro g s' - ⟨task', ht', hanswer⟩
        exact ⟨task', (task?_updateTask_ne hne _).trans ht', hanswer⟩

/-! ## Answers that come -/

/-- What is noted when a hook has reacted. -/
theorem react_answer {α : Type} (ht : h.task? t = some task) (r : Reaction α)
    (stimulus : Except Fault α → Stimulus) (ht' : (h.react t r stimulus).task? t = some task') :
    task'.answer = some (stimulus r.result) ∨
      r.sends ≠ [] ∧ ∃ fault, task'.answer = some (stimulus (.error fault)) := by
  have hlines : h.KeepsAnswers (r.lines.foldl (fun h text => h.see (.line text)) h) :=
    .of_tasks (congrArg Face.tasks (h.face_lines r.lines))
  have hsent : ∀ {g : Host}, Nudges (r.lines.foldl (fun h text => h.see (.line text)) h) g →
      ∃ other, g.task? t = some other := by
    intro g hnudges
    obtain ⟨other, hother, -⟩ := hlines t task ht
    obtain ⟨other', hother', -⟩ := (Shifts.nudges .refl hnudges).keepsAnswers t other hother
    exact ⟨other', hother'⟩
  unfold react at ht'
  simp only at ht'
  have hnudges : Nudges (r.lines.foldl (fun h text => h.see (.line text)) h)
      ((r.lines.foldl (fun h text => h.see (.line text)) h).sendAll r.sends).1 :=
    Nudges.sendAll .refl r.sends
  have hnone : r.sends = [] →
      ((r.lines.foldl (fun h text => h.see (.line text)) h).sendAll r.sends).2 = none := by
    intro hsends
    rw [hsends]
    rfl
  revert ht' hnudges hnone
  generalize (r.lines.foldl (fun h text => h.see (.line text)) h).sendAll r.sends = sent
  obtain ⟨g, fault⟩ := sent
  intro ht' hnudges hnone
  obtain ⟨other, hother⟩ := hsent hnudges
  have hnoted : ∀ s, (g.setAnswer t s).task? t = some { other with answer := some s } :=
    fun s => task?_updateTask_self hother _
  cases fault with
  | some fault =>
    obtain rfl := Option.some.inj ((hnoted _).symm.trans ht')
    refine .inr ⟨fun hsends => ?_, fault, rfl⟩
    cases hnone hsends
  | none =>
    obtain ⟨paused, hpaused, hanswer⟩ :=
      (Shifts.nudges .refl (Nudges.pause .refl t r.pause)).keepsAnswers t _ (hnoted _)
    obtain rfl := Option.some.inj (hpaused.symm.trans ht')
    exact .inl hanswer

/-- A body that has moved on and waits for its transition hook has asked for it. -/
theorem notedTruly_feed (ht : h.task? t = some task) (s : Stimulus)
    (ht' : (h.feed t s).task? t = some task') : task'.NotedTruly := by
  intro event payload hphase s' hanswer
  obtain ⟨other, hother, hstays⟩ := (stays_feed ht s).old t _ (task?_setTask_self ht _)
  obtain rfl := Option.some.inj (ht'.symm.trans hother)
  obtain ⟨moves, houtside, hinst⟩ := hstays.inst
  obtain ⟨hrunState, -, hsame, -⟩ := Instance.after_outside houtside (task.inst.step s).1
  have hmachine : task'.inst.machine = (task.inst.step s).1.machine := by
    rw [hinst, Instance.after_machine]
  have hcall : task'.inst.transitionCall event payload =
      (task.inst.step s).1.transitionCall event payload := by
    unfold Instance.transitionCall
    rw [hinst, hrunState]
  rw [hinst, hsame] at hphase
  unfold feed at ht'
  simp only [ht] at ht'
  rcases Instance.step_deciding hphase with hstill | ⟨-, -, rest, -, hstep⟩
  · -- a body that stands still has no answer noted
    rw [hstill, List.foldl_nil, task?_setTask_self ht] at ht'
    rw [← Option.some.inj ht'] at hanswer
    cases hanswer
  · have hasked : (task.inst.step s).2 =
        [.askTransition ((task.inst.step s).1.transitionCall event payload)] := by
      rw [hstep]
      rfl
    rw [hasked, List.foldl_cons, List.foldl_nil] at ht'
    unfold perform at ht'
    simp only [task?_setTask_self ht] at ht'
    rw [hmachine, hcall]
    have hmoved : (h.setTask t { task with inst := (task.inst.step s).1, answer := none }).task? t =
        some { task with inst := (task.inst.step s).1, answer := none } := task?_setTask_self ht _
    rcases react_answer (by exact hmoved) _ _ ht' with hresult | ⟨hsends, fault, hresult⟩
    · exact ⟨_, Option.some.inj (hanswer.symm.trans hresult), _, .inl rfl⟩
    · exact ⟨_, Option.some.inj (hanswer.symm.trans hresult), _, .inr ⟨hsends, fault, rfl⟩⟩

/-! ## Runs -/

theorem notedTruly_fresh (hphase : task.inst.phase = .fresh) : task.NotedTruly := by
  intro event payload hdeciding
  cases hphase.symm.trans hdeciding

theorem notedTruly_kept (hnoted : task.NotedTruly) (hstays : task.Stays task')
    (hanswer : task'.answer = task.answer) : task'.NotedTruly := by
  obtain ⟨moves, houtside, hinst⟩ := hstays.inst
  obtain ⟨hrunState, -, hphase, -⟩ := Instance.after_outside houtside task.inst
  intro event payload hdeciding s hs
  have hcall : task'.inst.transitionCall event payload =
      task.inst.transitionCall event payload := by
    unfold Instance.transitionCall
    rw [hinst, hrunState]
  rw [hcall, hinst, Instance.after_machine]
  rw [hinst, hphase] at hdeciding
  exact hnoted event payload hdeciding s (hanswer ▸ hs)

/-- What a deed notes for a body whose task was there before. -/
theorem notedTruly_act (ht : h.task? t = some task) (hnoted : task.NotedTruly) {d : Deed}
    (ht' : (h.act d).task? t = some task') : task'.NotedTruly := by
  cases hfed : h.fed d with
  | none =>
    obtain ⟨g, hshifts, htasks, -⟩ := act_of_fed_none hfed
    obtain ⟨other, hother, hstays⟩ := hshifts.stays.old t task ht
    obtain ⟨other', hother', hanswer⟩ := hshifts.keepsAnswers t task ht
    obtain rfl := Option.some.inj (hother.symm.trans hother')
    obtain rfl := Option.some.inj (ht'.symm.trans ((task?_of_tasks htasks t).symm.trans hother))
    exact notedTruly_kept hnoted hstays hanswer
  | some p =>
    obtain ⟨u, s⟩ := p
    obtain ⟨mover, run, g, hu, hshifts, hu', hact⟩ := act_of_fed hfed
    rw [hact] at ht'
    by_cases hut : u = t
    · subst hut
      exact notedTruly_feed hu' s ht'
    · obtain ⟨other, hother, hstays⟩ := hshifts.stays.old t task ht
      obtain ⟨other', hother', hanswer⟩ := hshifts.keepsAnswers t task ht
      obtain rfl := Option.some.inj (hother.symm.trans hother')
      obtain ⟨last, hlast, hstays'⟩ :=
        (stays_feed hu' s).old t other ((task?_setTask_ne hut _).trans hother)
      obtain ⟨last', hlast', hanswer'⟩ := feed_answer_ne hut hother s
      obtain rfl := Option.some.inj (hlast.symm.trans hlast')
      obtain rfl := Option.some.inj (ht'.symm.trans hlast)
      exact notedTruly_kept hnoted (hstays.trans hstays') (hanswer'.trans hanswer)

/-- At every moment of every run. -/
theorem notedTruly_after (settings : Settings) (registry : Registry) (bus : Bus Observer)
    (deeds : List Deed) (ht : ((opened settings registry bus).after deeds).task? t = some task) :
    task.NotedTruly := by
  induction deeds using List.reverseRecOn generalizing task with
  | nil => simp [after, opened, task?] at ht
  | append_singleton deeds d ih =>
    rw [after_snoc] at ht
    cases hbefore : ((opened settings registry bus).after deeds).task? t with
    | some old => exact notedTruly_act hbefore (ih hbefore) ht
    | none =>
      obtain ⟨new, ⟨⟨machine, name, payload, hinst⟩, -⟩, hstays⟩ := act_new hbefore ht
      obtain ⟨moves, houtside, hsame⟩ := hstays.inst
      refine notedTruly_fresh ?_
      rw [hsame, (Instance.after_outside houtside new.inst).2.2.1, hinst]
      rfl

end Host
end Turnstile

-- The instances of a host come and move on: none is lost or exchanged, and each is at every
-- moment what some moves have made of a new one.
import Turnstile.Proofs.Supervisor.Sessions

namespace Turnstile

namespace Host

variable {h h' : Host} {t u : Nat} {task : Task}

/-! ## Looking up a task -/

theorem task?_of_tasks (htasks : h'.tasks = h.tasks) (t : Nat) : h'.task? t = h.task? t :=
  congrArg (·[t]?) htasks

theorem task?_updateTask_self (ht : h.task? t = some task) (f : Task → Task) :
    (h.updateTask t f).task? t = some (f task) := by
  have ht' : h.tasks[t]? = some task := ht
  show (h.tasks.modify t f)[t]? = _
  rw [List.getElem?_modify, ht', Option.map_eq_map, Option.map_some, if_pos rfl]

theorem task?_updateTask_ne (hne : t ≠ u) (f : Task → Task) :
    (h.updateTask t f).task? u = h.task? u := by
  show (h.tasks.modify t f)[u]? = h.tasks[u]?
  rw [List.getElem?_modify]
  simp [hne]

theorem task?_setTask_self (ht : h.task? t = some task) (task' : Task) :
    (h.setTask t task').task? t = some task' := by
  have hlt : t < h.tasks.length := (List.getElem?_eq_some_iff.1 ht).1
  exact List.getElem?_set_self hlt

theorem task?_setTask_ne (hne : t ≠ u) (task' : Task) :
    (h.setTask t task').task? u = h.task? u := List.getElem?_set_ne hne

theorem task?_addTask (ht : h.task? t = some task) (task' : Task) :
    (h.addTask task').1.task? t = some task := by
  have hlt : t < h.tasks.length := (List.getElem?_eq_some_iff.1 ht).1
  show (h.tasks ++ [task'])[t]? = some task
  rw [List.getElem?_append_left hlt]
  exact ht

theorem task?_addTask_eq_some {task' other : Task}
    (ht : (h.addTask other).1.task? t = some task') :
    h.task? t = some task' ∨ t = h.tasks.length ∧ task' = other := by
  by_cases hlt : t < h.tasks.length
  · left
    have ht' : (h.tasks ++ [other])[t]? = some task' := ht
    rwa [List.getElem?_append_left hlt] at ht'
  · right
    have ht' : (h.tasks ++ [other])[t]? = some task' := ht
    rw [List.getElem?_append_right (by omega)] at ht'
    obtain ⟨hzero, hother⟩ := List.getElem?_eq_some_iff.1 ht'
    simp only [List.length_singleton, Nat.lt_one_iff] at hzero
    refine ⟨by omega, ?_⟩
    simpa [hzero] using hother.symm

/-! ## Looking up a holder -/

theorem holder?_of_lookup {name : Value} (ht : h.task? t = some task)
    (hheld : lookupName h.holders name = some t) :
    h.holder? name = some (t, task) := by
  simp [holder?, hheld, ht]

theorem lookup_of_holder? {name : Value} (hholder : h.holder? name = some (t, task)) :
    lookupName h.holders name = some t ∧ h.task? t = some task := by
  unfold holder? at hholder
  cases hheld : lookupName h.holders name with
  | none => simp [hheld] at hholder
  | some u =>
    cases hu : h.task? u with
    | none => simp [hheld, hu] at hholder
    | some other =>
      simp only [hheld, hu, Option.bind_eq_bind, Option.bind_some, Option.pure_def,
        Option.some.injEq, Prod.mk.injEq] at hholder
      obtain ⟨rfl, rfl⟩ := hholder
      exact ⟨rfl, hu⟩

/-- Who is found to send to is alive. -/
theorem holder_of_lookup {name : Value} (hlookup : h.lookup name = .ok t) :
    ∃ task, h.holder? name = some (t, task) ∧ task.inst.alive = true := by
  unfold Host.lookup at hlookup
  split at hlookup
  · cases hlookup
  · split at hlookup
    · rename_i u task hholder
      split at hlookup
      · rename_i halive
        obtain rfl := Except.ok.inj hlookup
        exact ⟨task, hholder, halive⟩
      · cases hlookup
    · cases hlookup

/-! ## Looking up a call -/

theorem call_addCall (h : Host) (call : Call) :
    (h.addCall call).1.calls[h.calls.length]? = some call := by
  show (h.calls ++ [call])[h.calls.length]? = _
  simp

theorem calls_leaveStage (h : Host) (c : Nat) (stage : Stage) :
    (h.leaveStage c stage).calls = h.calls := by
  cases stage <;> rfl

theorem calls_cancelTask (h : Host) (t : Nat) : (h.cancelTask t).1.calls = h.calls := by
  unfold Host.cancelTask
  split
  · rfl
  · split <;> rfl

/-! ## Growing -/

/-- A host has become another one: its tasks are still there and their instances have moved on,
and tasks may have come whose instances began after that. -/
structure Grows (h h' : Host) : Prop where
  bus : h'.bus = h.bus
  old : ∀ t task, h.task? t = some task → ∃ task' moves, h'.task? t = some task' ∧
    task'.outlet = task.outlet ∧ task'.inst = task.inst.after moves
  new : ∀ t task', h'.task? t = some task' → h.task? t = none →
    ∃ machine name payload moves, task'.inst = (Instance.create machine name payload).after moves

theorem Grows.of_tasks (hbus : h'.bus = h.bus) (htasks : h'.tasks = h.tasks) : Grows h h' := by
  have htask := task?_of_tasks htasks
  refine ⟨hbus, ?_, ?_⟩
  · intro t task ht
    exact ⟨task, [], (htask t).trans ht, rfl, rfl⟩
  · intro t task' ht' ht
    rw [htask, ht] at ht'
    cases ht'

theorem Grows.refl (h : Host) : Grows h h := .of_tasks rfl rfl

theorem Grows.of_face (hface : h'.face = h.face) : Grows h h' :=
  .of_tasks (congrArg Face.bus hface) (congrArg Face.tasks hface)

theorem Grows.trans {h'' : Host} (hg : Grows h h') (hg' : Grows h' h'') : Grows h h'' := by
  refine ⟨hg'.bus.trans hg.bus, ?_, ?_⟩
  · intro t task ht
    obtain ⟨task', moves, ht', houtlet, hinst⟩ := hg.old t task ht
    obtain ⟨task'', more, ht'', houtlet', hinst'⟩ := hg'.old t task' ht'
    refine ⟨task'', moves ++ more, ht'', houtlet'.trans houtlet, ?_⟩
    rw [hinst', hinst, Instance.after_append]
  · intro t task'' ht'' ht
    cases ht' : h'.task? t with
    | none => exact hg'.new t task'' ht'' ht'
    | some task' =>
      obtain ⟨machine, name, payload, moves, hinst⟩ := hg.new t task' ht' ht
      obtain ⟨other, more, hother, -, hinst'⟩ := hg'.old t task' ht'
      obtain rfl : other = task'' := Option.some.inj (hother.symm.trans ht'')
      refine ⟨machine, name, payload, moves ++ more, ?_⟩
      rw [hinst', hinst, Instance.after_append]

theorem grows_updateTask (h : Host) (t : Nat) {f : Task → Task}
    (hf : ∀ task, (f task).outlet = task.outlet ∧
      ∃ moves, (f task).inst = task.inst.after moves) : Grows h (h.updateTask t f) := by
  refine ⟨rfl, ?_, ?_⟩
  · intro u task hu
    by_cases hne : t = u
    · subst hne
      obtain ⟨houtlet, moves, hinst⟩ := hf task
      exact ⟨f task, moves, task?_updateTask_self hu f, houtlet, hinst⟩
    · exact ⟨task, [], (task?_updateTask_ne hne f).trans hu, rfl, rfl⟩
  · intro u task' hu' hu
    have hlen := List.getElem?_eq_none_iff.1 hu
    obtain ⟨hlt, -⟩ := List.getElem?_eq_some_iff.1 hu'
    simp only [updateTask, List.length_modify] at hlt
    omega

theorem grows_setTask (ht : h.task? t = some task) (task' : Task)
    (houtlet : task'.outlet = task.outlet) (moves : List Move)
    (hinst : task'.inst = task.inst.after moves) : Grows h (h.setTask t task') := by
  refine ⟨rfl, ?_, ?_⟩
  · intro u other hu
    by_cases hne : t = u
    · subst hne
      obtain rfl : task = other := Option.some.inj (ht.symm.trans hu)
      exact ⟨task', moves, task?_setTask_self ht task', houtlet, hinst⟩
    · exact ⟨other, [], (task?_setTask_ne hne task').trans hu, rfl, rfl⟩
  · intro u other hu' hu
    have hlen := List.getElem?_eq_none_iff.1 hu
    obtain ⟨hlt, -⟩ := List.getElem?_eq_some_iff.1 hu'
    simp only [setTask, List.length_set] at hlt
    omega

theorem grows_addTask (h : Host) {task : Task} {machine : Machine} {name payload : Value}
    (hinst : task.inst = .create machine name payload) : Grows h (h.addTask task).1 := by
  refine ⟨rfl, ?_, ?_⟩
  · intro t other ht
    exact ⟨other, [], task?_addTask ht task, rfl, rfl⟩
  · intro t task' ht' ht
    rcases task?_addTask_eq_some ht' with hold | ⟨-, rfl⟩
    · rw [ht] at hold
      cases hold
    · exact ⟨machine, name, payload, [], hinst⟩

theorem Nudge.grows (hnudge : Nudge h h') : Grows h h' := by
  cases hnudge with
  | aside hface => exact .of_face hface
  | run t run hrun => exact grows_updateTask h t fun task => ⟨rfl, [], rfl⟩
  | @post t task r inst ht hmark hpost =>
    refine grows_setTask ht _ rfl [.post r] ?_
    show inst = task.inst.move (.post r)
    unfold Instance.move
    simp only [hpost]

theorem Shift.grows (hshift : Shift h h') : Grows h h' := by
  cases hshift with
  | nudge hnudge => exact hnudge.grows
  | clock time => exact .of_tasks rfl rfl
  | finish ht hphase => exact grows_setTask ht _ rfl [] rfl
  | watchers t f => exact grows_updateTask h t fun task => ⟨rfl, [], rfl⟩
  | giveUp t call => exact grows_updateTask h t fun task => ⟨rfl, [.abandon call], rfl⟩
  | create machine name payload number outlet => exact grows_addTask h rfl
  | start machine payload number hkey hfree => exact (grows_addTask h rfl).trans (.of_tasks rfl rfl)
  | restart ht hphase hpolicy hfree hcount =>
    exact (grows_addTask h rfl).trans (.of_tasks rfl rfl)
  | vacate ht hheld => exact .of_tasks rfl rfl
  | forget hkey hfree => exact .of_tasks rfl rfl
  | recount name => exact .of_tasks rfl rfl
  | announce name attempt fault =>
    have hface := h.face_publish none (.restarted name attempt fault)
    exact .of_tasks (congrArg Face.bus hface) (congrArg Face.tasks hface)

/-! ## A body moves on -/

theorem grows_setAnswer (h : Host) (t : Nat) (s : Stimulus) : Grows h (h.setAnswer t s) :=
  grows_updateTask h t fun _ => ⟨rfl, [], rfl⟩

theorem grows_perform (h : Host) (t : Nat) (e : Effect) : Grows h (h.perform t e) := by
  cases ht : h.task? t with
  | none =>
    unfold perform
    simp only [ht]
    exact .refl h
  | some task =>
    apply perform_keeps (fun _ _ hg hnudge => hg.trans hnudge.grows)
      (fun h' s _ hg => hg.trans (grows_setAnswer h' t s)) ht e
    · exact fun _ _ => .of_tasks rfl rfl
    · exact fun _ _ _ => .of_tasks rfl rfl
    · exact .refl h

/-- Feeding the body of a task moves its instance by that stimulus first. -/
theorem grows_feed (ht : h.task? t = some task) (s : Stimulus) :
    Grows h (h.feed t s) ∧ ∃ task' moves, (h.feed t s).task? t = some task' ∧
      task'.inst = (task.inst.step s).1.after moves := by
  have hperform : ∀ (effects : List Effect) (h : Host),
      Grows h (effects.foldl (fun h e => h.perform t e) h) :=
    fun effects h => List.foldlRecOn effects _ (Grows.refl h)
      fun h' hg e _ => hg.trans (grows_perform h' t e)
  have hset := grows_setTask ht { task with inst := (task.inst.step s).1, answer := none } rfl
    [.stimulus s] rfl
  have hat := task?_setTask_self ht { task with inst := (task.inst.step s).1, answer := none }
  unfold feed
  simp only [ht]
  refine ⟨hset.trans (hperform _ _), ?_⟩
  obtain ⟨task', moves, ht', -, hinst⟩ := (hperform (task.inst.step s).2 _).old t _ hat
  exact ⟨task', moves, ht', hinst⟩

theorem Feeds.exists_task {s : Stimulus} (hfeeds : h.Feeds t s) :
    ∃ task, h.task? t = some task := by
  cases hfeeds with
  | start ht => exact ⟨_, ht⟩
  | receive ht => exact ⟨_, ht⟩
  | answer ht => exact ⟨_, ht⟩

theorem task?_activate (ht : h.task? t = some task) :
    (h.activate t task).task? t = some { task with run := .active } :=
  task?_setTask_self ht { task with run := .active }

theorem grows_activate (ht : h.task? t = some task) : Grows h (h.activate t task) := by
  have hset := grows_setTask ht { task with run := .active } rfl [] rfl
  exact hset.trans (.of_tasks rfl rfl)

theorem Change.grows (hchange : Change h h') : Grows h h' := by
  cases hchange with
  | shift hshift => exact hshift.grows
  | @feed t s hfeeds =>
    obtain ⟨task, ht⟩ := hfeeds.exists_task
    exact (grows_feed ht s).1
  | @interrupt t task ht hrun =>
    exact (grows_activate ht).trans (grows_feed (task?_activate ht) _).1

theorem Changes.grows (hs : Changes h h') : Grows h h' := by
  induction hs with
  | refl => exact .refl h
  | tail _ hchange ih => exact ih.trans hchange.grows

/-! ## Coming -/

theorem Nudge.length (hnudge : Nudge h h') : h'.tasks.length = h.tasks.length := by
  cases hnudge with
  | aside hface => exact congrArg (fun face => face.tasks.length) hface
  | run t run hrun => exact List.length_modify ..
  | post ht hmark hpost => exact List.length_set ..

theorem perform_length (h : Host) (t : Nat) (e : Effect) :
    (h.perform t e).tasks.length = h.tasks.length := by
  cases ht : h.task? t with
  | none =>
    unfold perform
    simp only [ht]
  | some task =>
    apply perform_keeps (P := fun h' => h'.tasks.length = h.tasks.length)
      (fun _ _ hlength hnudge => hnudge.length.trans hlength)
      (fun _ _ _ hlength => (List.length_modify ..).trans hlength) ht e
    · exact fun _ _ => rfl
    · exact fun _ _ _ => rfl
    · rfl

/-- No task comes while a body moves on. -/
theorem feed_length (h : Host) (t : Nat) (s : Stimulus) :
    (h.feed t s).tasks.length = h.tasks.length := by
  unfold feed
  split
  · rfl
  · rename_i task ht
    refine List.foldlRecOn (motive := fun h' : Host => h'.tasks.length = h.tasks.length) _ _
      (List.length_set ..) ?_
    intro h' hlength e _
    exact (perform_length h' t e).trans hlength

theorem task?_of_length (hlength : h'.tasks.length = h.tasks.length) (ht : h.task? t = none) :
    h'.task? t = none := by
  have hle := List.getElem?_eq_none_iff.1 ht
  exact List.getElem?_eq_none_iff.2 (hlength ▸ hle)

/-- A task that has just come has a new instance, whose body awaits no answer. -/
def IsNew (task : Task) : Prop :=
  (∃ machine name payload, task.inst = .create machine name payload) ∧ task.answer = none

theorem Shift.born (hshift : Shift h h') (ht : h.task? t = none)
    (ht' : h'.task? t = some task) : IsNew task := by
  have hsame : h'.tasks.length = h.tasks.length → IsNew task := by
    intro hlength
    rw [task?_of_length hlength ht] at ht'
    cases ht'
  have hadded : ∀ other, (h.addTask other).1.task? t = some task → task = other := by
    intro other hother
    rcases task?_addTask_eq_some hother with hold | ⟨-, hnew⟩
    · rw [ht] at hold
      cases hold
    · exact hnew
  cases hshift with
  | nudge hnudge => exact hsame hnudge.length
  | clock time => exact hsame rfl
  | finish hu hphase => exact hsame (List.length_set ..)
  | watchers u f => exact hsame (List.length_modify ..)
  | giveUp u call => exact hsame (List.length_modify ..)
  | create machine name payload number outlet =>
    obtain rfl := hadded _ ht'
    exact ⟨⟨machine, name, payload, rfl⟩, rfl⟩
  | @start machine name payload number hkey hfree =>
    obtain rfl := hadded _ ht'
    exact ⟨⟨machine, name, payload, rfl⟩, rfl⟩
  | @restart u other fault hu hphase hpolicy hfree hcount =>
    obtain rfl := hadded _ ht'
    exact ⟨⟨other.inst.machine, other.inst.name, other.inst.initialPayload, rfl⟩, rfl⟩
  | vacate hu hheld => exact hsame rfl
  | forget hkey hfree => exact hsame rfl
  | recount name => exact hsame rfl
  | announce name attempt fault =>
    have hface := h.face_publish none (.restarted name attempt fault)
    exact hsame (congrArg (fun face => face.tasks.length) hface)

end Host

namespace Session

/-- Whatever is called upon a host, each of its instances is at each moment what some moves
make of a new one. -/
theorem instances_change_by_moves_only {s : Session} (hempty : s.host.tasks = []) (n : Nat)
    (steps : List (SessionStep × Bool)) {t : Nat} {task : Task}
    (ht : (s.afterSteps n steps).host.task? t = some task) :
    ∃ machine name payload moves,
      task.inst = (Instance.create machine name payload).after moves := by
  have hgrows := (afterSteps_changes (s := s) .refl n steps).grows
  apply hgrows.new t task ht
  unfold Host.task?
  rw [hempty]
  rfl

/-- The run states of all instances of a session follow their tables. -/
theorem instances_follow_their_tables {s : Session} (hempty : s.host.tasks = []) (n : Nat)
    (steps : List (SessionStep × Bool)) {t : Nat} {task : Task}
    (ht : (s.afterSteps n steps).host.task? t = some task) :
    task.inst.runState.Follows task.inst.machine.table := by
  obtain ⟨machine, name, payload, moves, hinst⟩ :=
    instances_change_by_moves_only hempty n steps ht
  rw [hinst]
  exact Instance.follows_after (RunState.follows_initial machine.table payload) moves

end Session
end Turnstile

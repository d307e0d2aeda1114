-- What the bodies of tasks are given in the course of a run, and what they publish. A deed moves
-- one body on at most; all others stand still, and get requests or have them given up.
import Turnstile.Proofs.Supervisor.Contained

namespace Turnstile

/-- The cancellation that a task is given which somebody has cancelled while it was queued. -/
def Task.interruption (task : Task) : Option Stimulus :=
  match task.run with
  | .queued true => some task.inst.cancellation
  | _ => none

/-- The notification that an event is, if the body of a task has published it. -/
def Event.own? : Event → Option Notification
  | .published _ n => if n.isOwn then some n else none
  | .hook .. | .logged .. | .line .. => none

theorem Event.tells_of_own? {e : Event} (he : e.own? ≠ none) : e.tells = true := by
  cases e with
  | hook name origin call => rfl
  | published outlet n => rfl
  | logged scope level text => exact absurd rfl he
  | line text => exact absurd rfl he

/-- What is seen of the notifications among some effects of a task: without a bus nothing is. -/
def Task.utters (task : Task) (effects : List Effect) : List Notification :=
  if task.outlet = .nowhere then [] else publications effects

theorem Task.utters_cons (task : Task) (e : Effect) (effects : List Effect) :
    task.utters (e :: effects) = task.utters [e] ++ task.utters effects := by
  unfold utters
  split
  · rfl
  · exact publications_cons e effects

/-- What becomes of a task whose body stands still. -/
structure Task.Stays (task task' : Task) : Prop where
  inst : ∃ moves, (∀ m ∈ moves, Move.Outside m) ∧ task'.inst = task.inst.after moves
  outlet : task'.outlet = task.outlet
  supervised : task'.supervised = task.supervised
  proper : (∀ s, task.answer = some s → s.Proper) → ∀ s, task'.answer = some s → s.Proper

theorem Task.Stays.refl (task : Task) : task.Stays task := ⟨⟨[], by simp, rfl⟩, rfl, rfl, id⟩

theorem Task.Stays.trans {task task' task'' : Task} (h : task.Stays task')
    (h' : task'.Stays task'') : task.Stays task'' := by
  obtain ⟨moves, houtside, hinst⟩ := h.inst
  obtain ⟨more, houtside', hinst'⟩ := h'.inst
  refine ⟨⟨moves ++ more, ?_, ?_⟩, h'.outlet.trans h.outlet, h'.supervised.trans h.supervised,
    h'.proper ∘ h.proper⟩
  · exact fun m hm => (List.mem_append.1 hm).elim (houtside m) (houtside' m)
  · rw [hinst', hinst, Instance.after_append]

/-- What changes neither the instance nor the answer for its body. -/
theorem Task.Stays.of_same {task task' : Task} (hinst : task'.inst = task.inst)
    (houtlet : task'.outlet = task.outlet) (hsupervised : task'.supervised = task.supervised)
    (hanswer : task'.answer = task.answer) : task.Stays task' :=
  ⟨⟨[], by simp, hinst⟩, houtlet, hsupervised, by rw [hanswer]; exact id⟩

namespace Host

variable {h₀ h h' : Host} {t u : Nat} {task : Task}

/-! ## Who is given what -/

/-- The body that a deed moves on, and what that body is given: only the steps of the host move
bodies on, that of the running task, or one that is cancelled where it waits. -/
def fed (h : Host) : Deed → Option (Nat × Stimulus)
  | .step =>
    match h.running with
    | some t => (h.task? t).bind fun task => task.turn.map (t, ·)
    | none =>
      match h.batch with
      | .resume t :: _ => (h.task? t).bind fun task => task.interruption.map (t, ·)
      | _ => none
  | _ => none

/-- What a deed gives to the body of a task. -/
def given (h : Host) (t : Nat) (d : Deed) : Option Stimulus :=
  (h.fed d).bind fun p => if p.1 = t then some p.2 else none

/-- What a deed makes of the instance of a task through its body. -/
def moved (h : Host) (t : Nat) (d : Deed) (i : Instance) : Instance :=
  (h.given t d).elim i fun s => (i.step s).1

/-- All that bodies have published. -/
def ownNotices (h : Host) : List Notification := h.events.filterMap Event.own?

/-- What the body of a task publishes in a deed. -/
def tells (h : Host) (t : Nat) (d : Deed) : List Notification :=
  (h.given t d).elim [] fun _ => (h.act d).ownNotices.drop h.ownNotices.length

/-- What the deeds of a run come to, one after the other. -/
def during {α : Type} (f : Host → Deed → List α) (h : Host) : List Deed → List α
  | [] => []
  | d :: deeds => f h d ++ (h.act d).during f deeds

theorem during_append {α : Type} (f : Host → Deed → List α) (h : Host) (deeds more : List Deed) :
    h.during f (deeds ++ more) = h.during f deeds ++ (h.after deeds).during f more := by
  induction deeds generalizing h with
  | nil => rfl
  | cons d deeds ih =>
    show f h d ++ (h.act d).during f (deeds ++ more) = _
    rw [ih, ← List.append_assoc]
    rfl

theorem during_snoc {α : Type} (f : Host → Deed → List α) (h : Host) (deeds : List Deed)
    (d : Deed) : h.during f (deeds ++ [d]) = h.during f deeds ++ f (h.after deeds) d := by
  rw [during_append]
  exact congrArg _ (List.append_nil _)

/-- What the body of a task publishes in a run. -/
def told (h : Host) (t : Nat) (deeds : List Deed) : List Notification :=
  h.during (fun h d => h.tells t d) deeds

theorem told_snoc (h : Host) (t : Nat) (deeds : List Deed) (d : Deed) :
    h.told t (deeds ++ [d]) = h.told t deeds ++ (h.after deeds).tells t d := h.during_snoc _ deeds d

/-! ## Standing still -/

/-- All tasks stand still, and those that come have new instances. -/
structure Stays (h h' : Host) : Prop where
  old : ∀ t task, h.task? t = some task → ∃ task', h'.task? t = some task' ∧ task.Stays task'
  new : ∀ t task', h'.task? t = some task' → h.task? t = none → ∃ new, IsNew new ∧ new.Stays task'

theorem Stays.of_tasks (htasks : h'.tasks = h.tasks) : h.Stays h' := by
  have htask := task?_of_tasks htasks
  refine ⟨fun t task ht => ⟨task, (htask t).trans ht, .refl task⟩, fun t task' ht' ht => ?_⟩
  rw [htask, ht] at ht'
  cases ht'

theorem Stays.trans {h'' : Host} (hs : h.Stays h') (hs' : h'.Stays h'') : h.Stays h'' := by
  refine ⟨fun t task ht => ?_, fun t task'' ht'' ht => ?_⟩
  · obtain ⟨task', ht', hstays⟩ := hs.old t task ht
    obtain ⟨task'', ht'', hstays'⟩ := hs'.old t task' ht'
    exact ⟨task'', ht'', hstays.trans hstays'⟩
  · cases ht' : h'.task? t with
    | none => exact hs'.new t task'' ht'' ht'
    | some task' =>
      obtain ⟨new, hnew, hstays⟩ := hs.new t task' ht' ht
      obtain ⟨other, hother, hstays'⟩ := hs'.old t task' ht'
      obtain rfl := Option.some.inj (ht''.symm.trans hother)
      exact ⟨new, hnew, hstays.trans hstays'⟩

theorem stays_updateTask (h : Host) (t : Nat) {f : Task → Task}
    (hf : ∀ task : Task, task.Stays (f task)) :
    h.Stays (h.updateTask t f) := by
  refine ⟨fun u task hu => ?_, fun u task' hu' hu => ?_⟩
  · by_cases hne : t = u
    · subst hne
      exact ⟨f task, task?_updateTask_self hu f, hf task⟩
    · exact ⟨task, (task?_updateTask_ne hne f).trans hu, .refl task⟩
  · rw [task?_of_length (List.length_modify ..) hu] at hu'
    cases hu'

theorem stays_setTask (ht : h.task? t = some task) {task' : Task} (hstays : task.Stays task') :
    h.Stays (h.setTask t task') := by
  refine ⟨fun u other hu => ?_, fun u other hu' hu => ?_⟩
  · by_cases hne : t = u
    · subst hne
      obtain rfl := Option.some.inj (ht.symm.trans hu)
      exact ⟨task', task?_setTask_self ht task', hstays⟩
    · exact ⟨other, (task?_setTask_ne hne task').trans hu, .refl other⟩
  · rw [task?_of_length (List.length_set ..) hu] at hu'
    cases hu'

theorem stays_addTask (h : Host) {new : Task} (hnew : IsNew new) : h.Stays (h.addTask new).1 := by
  refine ⟨fun t task ht => ⟨task, task?_addTask ht new, .refl task⟩, fun t task' ht' ht => ?_⟩
  rcases task?_addTask_eq_some ht' with hold | ⟨-, rfl⟩
  · cases ht.symm.trans hold
  · exact ⟨task', hnew, .refl task'⟩

theorem Nudge.stays (hnudge : Nudge h h') : h.Stays h' := by
  cases hnudge with
  | aside hface => exact .of_tasks (congrArg Face.tasks hface)
  | run t run hrun => exact stays_updateTask h t fun task => .of_same rfl rfl rfl rfl
  | @post t task r inst ht hmark hpost =>
    refine stays_setTask ht ⟨⟨[.post r], ?_, ?_⟩, rfl, rfl, id⟩
    · exact fun m hm => List.mem_singleton.1 hm ▸ trivial
    · show inst = task.inst.move (.post r)
      unfold Instance.move
      simp only [hpost]

theorem Shift.stays (hshift : Shift h h') : h.Stays h' := by
  cases hshift with
  | nudge hnudge => exact hnudge.stays
  | clock time => exact .of_tasks rfl
  | finish ht hphase => exact stays_setTask ht (.of_same rfl rfl rfl rfl)
  | watchers t f => exact stays_updateTask h t fun task => .of_same rfl rfl rfl rfl
  | giveUp t call =>
    refine stays_updateTask h t fun task => ⟨⟨[.abandon call], ?_, rfl⟩, rfl, rfl, id⟩
    exact fun m hm => List.mem_singleton.1 hm ▸ trivial
  | create machine name payload number outlet => exact stays_addTask h ⟨⟨_, _, _, rfl⟩, rfl⟩
  | start machine payload number hkey hfree =>
    exact (stays_addTask h ⟨⟨_, _, _, rfl⟩, rfl⟩).trans (.of_tasks rfl)
  | @restart t task fault ht hphase hpolicy hfree hcount =>
    have hcounted : h.Stays (h.countRestart task.inst.name) := .of_tasks rfl
    exact (hcounted.trans (stays_addTask _ ⟨⟨_, _, _, rfl⟩, rfl⟩)).trans (.of_tasks rfl)
  | vacate ht hheld => exact .of_tasks rfl
  | forget hkey hfree => exact .of_tasks rfl
  | recount name => exact .of_tasks rfl
  | announce name attempt fault =>
    exact .of_tasks (congrArg Face.tasks (h.face_publish none (.restarted name attempt fault)))

theorem Shifts.stays (hs : Shifts h h') : h.Stays h' := by
  induction hs with
  | refl => exact .of_tasks rfl
  | tail _ hshift ih => exact ih.trans hshift.stays

/-- Whatever a body wants done, no body moves on by that. -/
theorem stays_perform (h : Host) (t : Nat) (e : Effect) : h.Stays (h.perform t e) := by
  cases ht : h.task? t with
  | none =>
    unfold perform
    simp only [ht]
    exact .of_tasks rfl
  | some task =>
    apply perform_keeps (P := fun g => h.Stays g)
      (fun _ _ hs hnudge => hs.trans hnudge.stays) ?_ ht e
    · exact fun _ _ => .of_tasks rfl
    · exact fun _ _ _ => .of_tasks rfl
    · exact .of_tasks rfl
    · intro g s hproper hs
      refine hs.trans (stays_updateTask g t fun task => ⟨⟨[], by simp, rfl⟩, rfl, rfl, ?_⟩)
      exact fun _ s' hs' => Option.some.inj hs' ▸ hproper

/-! ## What bodies publish -/

theorem ownNotices_of_face (hface : h'.face = h.face) : h'.ownNotices = h.ownNotices := by
  have hevents : h'.events.filter Event.tells = h.events.filter Event.tells :=
    congrArg Face.told hface
  unfold ownNotices
  rw [← filterMap_filter_tells (fun _ => Event.tells_of_own?) h'.events, hevents,
    filterMap_filter_tells fun _ => Event.tells_of_own?]

theorem Nudge.ownNotices (hnudge : Nudge h h') : h'.ownNotices = h.ownNotices := by
  cases hnudge with
  | aside hface => exact ownNotices_of_face hface
  | _ => rfl

theorem Shift.ownNotices (hshift : Shift h h') : h'.ownNotices = h.ownNotices := by
  cases hshift with
  | nudge hnudge => exact hnudge.ownNotices
  | announce name attempt fault =>
    rw [ownNotices_of_face (h.face_publish none (.restarted name attempt fault))]
    simp [Host.ownNotices, see, Event.own?, Notification.isOwn]
  | _ => rfl

theorem Shifts.ownNotices (hs : Shifts h h') : h'.ownNotices = h.ownNotices := by
  induction hs with
  | refl => rfl
  | tail _ hshift ih => exact hshift.ownNotices.trans ih

theorem ownNotices_published (h : Host) (outlet : Outlet) {n : Notification}
    (hown : n.isOwn = true) : (h.see (.published outlet n)).ownNotices = h.ownNotices ++ [n] := by
  simp [ownNotices, see, Event.own?, hown]

/-- What the body of a task wants published is published, if it has a bus. -/
theorem ownNotices_perform (ht : h.task? t = some task) {e : Effect}
    (hown : ∀ n, e = .publish n → n.isOwn = true) :
    (h.perform t e).ownNotices = h.ownNotices ++ task.utters [e] := by
  by_cases he : e.notice? = none
  · have hnone : task.utters [e] = [] := by simp [Task.utters, publications, he]
    rw [hnone, List.append_nil]
    apply perform_keeps (P := fun g => g.ownNotices = h.ownNotices)
      (fun _ _ hsame hnudge => hnudge.ownNotices.trans hsame) (fun _ _ _ hsame => hsame) ht e
    · exact fun _ _ => by simp [Host.ownNotices, noteCall, see, Event.own?]
    · rintro outlet n rfl
      cases he
    · rfl
  · cases e with
    | publish n =>
      have hn := hown n rfl
      unfold perform Task.utters
      simp only [ht]
      cases houtlet : task.outlet with
      | nowhere => exact (List.append_nil _).symm
      | shared =>
        exact (ownNotices_of_face (h.face_publish (some task.inst.name) n)).trans
          (ownNotices_published h .shared hn)
      | own => exact ownNotices_published h .own hn
    | _ => exact absurd rfl he

/-! ## A body moves on -/

/-- A body takes its step, and wants something done; apart from that all tasks stand still. -/
theorem stays_feed (ht : h.task? t = some task) (s : Stimulus) :
    (h.setTask t { task with inst := (task.inst.step s).1, answer := none }).Stays
      (h.feed t s) := by
  unfold feed
  simp only [ht]
  refine List.foldlRecOn (motive := fun g : Host => Stays _ g) _ _ (.of_tasks rfl) ?_
  exact fun g hs e _ => hs.trans (stays_perform g t e)

theorem ownNotices_feed (ht : h.task? t = some task) (s : Stimulus) :
    (h.feed t s).ownNotices = h.ownNotices ++ task.utters (task.inst.step s).2 := by
  have hall : ∀ (effects : List Effect) (g : Host) (task' : Task), g.task? t = some task' →
      task'.outlet = task.outlet → (∀ n, .publish n ∈ effects → n.isOwn = true) →
      (effects.foldl (fun h e => h.perform t e) g).ownNotices =
        g.ownNotices ++ task.utters effects := by
    intro effects
    induction effects with
    | nil =>
      intro g _ _ _ _
      simp [Task.utters, publications]
    | cons e effects ih =>
      intro g task' ht' houtlet hown
      obtain ⟨task'', ht'', hstays⟩ := (stays_perform g t e).old t task' ht'
      have hfirst := ownNotices_perform (e := e) ht' fun n hn => hown n (hn ▸ List.mem_cons_self)
      have hsame : task'.utters [e] = task.utters [e] := by simp [Task.utters, houtlet]
      rw [List.foldl_cons, ih _ task'' ht'' (hstays.outlet.trans houtlet) fun n hn =>
        hown n (List.mem_cons_of_mem _ hn), hfirst, hsame, List.append_assoc, ← task.utters_cons]
  unfold feed
  simp only [ht]
  exact hall _ _ { task with inst := (task.inst.step s).1, answer := none }
    (task?_setTask_self ht _) rfl fun n hn => (Instance.publish_step hn).1

/-! ## Deeds -/

/-- A step of the host that moves no body on. -/
theorem step_of_fed_none (hnone : h.fed .step = none) : Shifts h h.step := by
  have hs : Shifts h h := .refl
  unfold fed at hnone
  cases hrunning : h.running with
  | some t =>
    rw [step_running hrunning]
    simp only [hrunning] at hnone
    cases ht : h.task? t with
    | none =>
      unfold Host.runTask
      simp only [ht]
      exact hs.aside rfl
    | some task =>
      rw [ht, Option.bind_some, Option.map_eq_none_iff] at hnone
      exact hs.runTask ht hnone
  | none =>
    simp only [hrunning] at hnone
    cases hbatch : h.batch with
    | nil =>
      rw [step_turn hrunning hbatch]
      exact hs.aside rfl
    | cons j rest =>
      rw [step_job hrunning hbatch]
      simp only [hbatch] at hnone
      have htaken : Shifts h { h with batch := rest } := hs.aside rfl
      by_cases hresume : ∃ t, j = .resume t
      · obtain ⟨t, rfl⟩ := hresume
        refine htaken.resume fun task ht hrun => ?_
        have ht : h.task? t = some task := ht
        simp [ht, Task.interruption, hrun] at hnone
      · exact htaken.runJob fun t hj => hresume ⟨t, hj⟩

/-- A deed that moves no body on. -/
theorem act_of_fed_none {d : Deed} (hnone : h.fed d = none) :
    ∃ g, Shifts h g ∧ g.tasks = (h.act d).tasks ∧ g.events = (h.act d).events := by
  by_cases hd : d = .step
  · subst hd
    exact ⟨h.step, step_of_fed_none hnone, rfl, rfl⟩
  · exact shifts_of_act hd

/-- A step of the host that moves a body on: the task runs, or is let run, and its body is fed. -/
theorem step_of_fed {s : Stimulus} (hfed : h.fed .step = some (t, s)) :
    ∃ task run g, h.task? t = some task ∧ Shifts h g ∧ g.task? t = some { task with run := run } ∧
      h.step = g.feed t s := by
  have hs : Shifts h h := .refl
  unfold fed at hfed
  cases hrunning : h.running with
  | some u =>
    rw [step_running hrunning]
    simp only [hrunning] at hfed
    cases hu : h.task? u with
    | none => simp [hu] at hfed
    | some task =>
      rw [hu, Option.bind_some] at hfed
      obtain ⟨s', hturn, heq⟩ := Option.map_eq_some_iff.1 hfed
      obtain ⟨rfl, rfl⟩ := Prod.mk.inj heq
      exact ⟨task, task.run, h, hu, hs, hu, (runTask_eq_feed hu hturn).1⟩
  | none =>
    simp only [hrunning] at hfed
    cases hbatch : h.batch with
    | nil => simp [hbatch] at hfed
    | cons j rest =>
      rw [step_job hrunning hbatch]
      simp only [hbatch] at hfed
      cases j with
      | resume u =>
        cases hu : h.task? u with
        | none => simp [hu] at hfed
        | some task =>
          simp only [hu, Option.bind_some] at hfed
          obtain ⟨s', hinterruption, heq⟩ := Option.map_eq_some_iff.1 hfed
          obtain ⟨rfl, rfl⟩ := Prod.mk.inj heq
          unfold Task.interruption at hinterruption
          split at hinterruption
          · rename_i hrun
            obtain rfl := Option.some.inj hinterruption
            have hu' : ({ h with batch := rest } : Host).task? u = some task := hu
            have htaken : Shifts h { h with batch := rest } := hs.aside rfl
            refine ⟨task, .active, _, hu, ?_, task?_activate hu', resume_eq_feed hu' hrun⟩
            exact (htaken.setRun hu' .active nofun).aside rfl
          · cases hinterruption
      | _ => cases hfed

theorem act_of_fed {d : Deed} {s : Stimulus} (hfed : h.fed d = some (t, s)) :
    ∃ task run g, h.task? t = some task ∧ Shifts h g ∧ g.task? t = some { task with run := run } ∧
      h.act d = g.feed t s := by
  cases d with
  | step => exact step_of_fed hfed
  | _ => cases hfed

theorem given_eq {d : Deed} {s : Stimulus} (hfed : h.fed d = some (u, s)) (t : Nat) :
    h.given t d = if u = t then some s else none := by
  unfold given
  rw [hfed]
  rfl

theorem given_none {d : Deed} (hnone : h.fed d = none) (t : Nat) : h.given t d = none := by
  unfold given
  rw [hnone]
  rfl

/-- In a deed the body of a task takes its step if it is given something; otherwise the task stands
still. -/
theorem act_task (ht : h.task? t = some task) (d : Deed) : ∃ task', (h.act d).task? t = some task' ∧
    ({ task with inst := h.moved t d task.inst } : Task).Stays task' := by
  unfold moved
  cases hfed : h.fed d with
  | none =>
    obtain ⟨g, hshifts, htasks, -⟩ := act_of_fed_none hfed
    obtain ⟨task', ht', hstays⟩ := hshifts.stays.old t task ht
    rw [given_none hfed]
    exact ⟨task', (task?_of_tasks htasks t).symm.trans ht', hstays⟩
  | some p =>
    obtain ⟨u, s⟩ := p
    obtain ⟨other, run, g, hu, hshifts, hu', hact⟩ := act_of_fed hfed
    rw [given_eq hfed, hact]
    by_cases hut : u = t
    · subst hut
      obtain rfl := Option.some.inj (hu.symm.trans ht)
      rw [if_pos rfl]
      obtain ⟨task', ht', hstays⟩ := (stays_feed hu' s).old u _ (task?_setTask_self hu' _)
      exact ⟨task', ht', hstays.inst, hstays.outlet, hstays.supervised,
        fun _ => hstays.proper (by simp)⟩
    · rw [if_neg hut]
      obtain ⟨task₁, ht₁, hstays₁⟩ := hshifts.stays.old t task ht
      obtain ⟨task', ht', hstays⟩ := (stays_feed hu' s).old t task₁
        ((task?_setTask_ne hut _).trans ht₁)
      exact ⟨task', ht', hstays₁.trans hstays⟩

/-- A task that comes in a deed has a new instance. -/
theorem act_new {d : Deed} {task' : Task} (ht : h.task? t = none)
    (ht' : (h.act d).task? t = some task') : ∃ new, IsNew new ∧ new.Stays task' := by
  cases hfed : h.fed d with
  | none =>
    obtain ⟨g, hshifts, htasks, -⟩ := act_of_fed_none hfed
    exact hshifts.stays.new t task' ((task?_of_tasks htasks t).trans ht') ht
  | some p =>
    obtain ⟨u, s⟩ := p
    obtain ⟨other, run, g, hu, hshifts, hu', hact⟩ := act_of_fed hfed
    rw [hact] at ht'
    -- no task comes while a body moves on
    have hlt := (List.getElem?_eq_some_iff.1 ht').1
    rw [feed_length] at hlt
    have hg : g.task? t = some g.tasks[t] := List.getElem?_eq_getElem hlt
    obtain ⟨new, hnew, hstays⟩ := hshifts.stays.new t _ hg ht
    have hut : u ≠ t := by
      rintro rfl
      cases ht.symm.trans hu
    obtain ⟨other', hother', hstays'⟩ := (stays_feed hu' s).old t _
      ((task?_setTask_ne hut _).trans hg)
    obtain rfl := Option.some.inj (ht'.symm.trans hother')
    exact ⟨new, hnew, hstays.trans hstays'⟩

/-- What bodies publish in a deed is the work of the one that moves on. -/
theorem ownNotices_act (h : Host) (d : Deed) : (h.act d).ownNotices = h.ownNotices ++
    (h.fed d).elim [] fun p => (h.task? p.1).elim [] fun task =>
      task.utters (task.inst.step p.2).2 := by
  cases hfed : h.fed d with
  | none =>
    obtain ⟨g, hshifts, -, hevents⟩ := act_of_fed_none hfed
    have hsame := hshifts.ownNotices
    unfold ownNotices at hsame ⊢
    rw [← hevents, hsame]
    exact (List.append_nil _).symm
  | some p =>
    obtain ⟨u, s⟩ := p
    obtain ⟨task, run, g, hu, hshifts, hu', hact⟩ := act_of_fed hfed
    rw [hact, ownNotices_feed hu' s, hshifts.ownNotices, Option.elim_some, hu]
    rfl

/-- What a task tells in a deed is what its body publishes when it takes its step. -/
theorem tells_eq (ht : h.task? t = some task) (d : Deed) : h.tells t d =
    (h.given t d).elim [] fun s => task.utters (task.inst.step s).2 := by
  unfold tells
  rw [ownNotices_act, List.drop_left]
  cases hfed : h.fed d with
  | none =>
    rw [given_none hfed]
    rfl
  | some p =>
    obtain ⟨u, s⟩ := p
    rw [given_eq hfed]
    by_cases hut : u = t
    · subst hut
      rw [if_pos rfl, Option.elim_some, Option.elim_some, ht]
      rfl
    · rw [if_neg hut]
      rfl

/-! ## Runs -/

/-- A body that is given something belongs to a task that is there. -/
theorem given_of_none (ht : h.task? t = none) (d : Deed) : h.given t d = none := by
  cases hfed : h.fed d with
  | none => exact given_none hfed t
  | some p =>
    obtain ⟨u, s⟩ := p
    obtain ⟨task, run, g, hu, -⟩ := act_of_fed hfed
    rw [given_eq hfed, if_neg]
    rintro rfl
    cases ht.symm.trans hu

theorem none_before {d : Deed} (ht : (h.act d).task? t = none) : h.task? t = none := by
  by_contra hsome
  obtain ⟨task, htask⟩ := Option.ne_none_iff_exists'.1 hsome
  obtain ⟨task', ht', -⟩ := act_task htask d
  cases ht.symm.trans ht'

/-- Nothing comes of a task that has not come itself. -/
theorem during_of_none {α : Type} {f : Host → Deed → List α}
    (hf : ∀ g d, (g.act d).task? t = none → f g d = []) {deeds : List Deed}
    (ht : (h.after deeds).task? t = none) : h.during f deeds = [] := by
  induction deeds using List.reverseRecOn with
  | nil => rfl
  | append_singleton deeds d ih =>
    rw [after_snoc] at ht
    rw [during_snoc, ih (none_before ht), hf _ d ht]
    rfl

theorem told_of_none {deeds : List Deed} (ht : (h.after deeds).task? t = none) :
    h.told t deeds = [] := by
  refine during_of_none (fun g d hg => ?_) ht
  unfold tells
  rw [given_of_none (none_before hg)]
  rfl

theorem told_of_new {deeds : List Deed} (ht : (h.after deeds).task? t = none) (d : Deed) :
    h.told t (deeds ++ [d]) = [] := by
  rw [told_snoc, told_of_none ht, tells, given_of_none ht]
  rfl

/-- What holds of new tasks, whatever a body does in its steps and what becomes of a task that stands
still, holds of all tasks at every moment of every run. -/
theorem holds_after (settings : Settings) (registry : Registry) (bus : Bus Observer)
    {P : List Deed → Task → Prop}
    (hnew : ∀ deeds d new, ((opened settings registry bus).after deeds).task? t = none →
      IsNew new → P (deeds ++ [d]) new)
    (hmoved : ∀ deeds task d, ((opened settings registry bus).after deeds).task? t = some task →
      P deeds task → P (deeds ++ [d])
        { task with inst := ((opened settings registry bus).after deeds).moved t d task.inst })
    (hstays : ∀ deeds task task', Task.Stays task task' → P deeds task → P deeds task')
    (deeds : List Deed) (ht : ((opened settings registry bus).after deeds).task? t = some task) :
    P deeds task := by
  induction deeds using List.reverseRecOn generalizing task with
  | nil => simp [after, opened, task?] at ht
  | append_singleton deeds d ih =>
    rw [after_snoc] at ht
    cases hbefore : ((opened settings registry bus).after deeds).task? t with
    | some old =>
      obtain ⟨task', ht', hstands⟩ := act_task hbefore d
      obtain rfl := Option.some.inj (ht.symm.trans ht')
      exact hstays _ _ _ hstands (hmoved deeds old d hbefore (ih hbefore))
    | none =>
      obtain ⟨new, hfresh, hstands⟩ := act_new hbefore ht
      exact hstays _ _ _ hstands (hnew deeds d new hbefore hfresh)

end Host
end Turnstile

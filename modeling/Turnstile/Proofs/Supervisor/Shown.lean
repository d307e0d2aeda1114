-- A task of a host shows a live instance: whatever the host does, either something happens to
-- that instance, or its body moves on, or the task is not concerned.
import Turnstile.Proofs.Instance.Live
import Turnstile.Proofs.Supervisor.Heard

namespace Turnstile

/-! ## Hooks and subscribers -/

/-- A hook that sends nothing, that answers by the calls made for one name only, and never with
a cancellation. -/
structure Hook.SelfContained {Call α : Type} (k : Hook Call α) (name : Value) : Prop where
  sends : ∀ past call, (k.react past call).sends = []
  past : ∀ past call, k.react past call = k.react (ownPast name past) call
  result : ∀ past call, Uncancelled (k.react past call).result

structure BoundHooks.SelfContained (hooks : BoundHooks) (name : Value) : Prop where
  onTransition : hooks.onTransition.SelfContained name
  onFailure : hooks.onFailure.SelfContained name
  onTerminate : hooks.onTerminate.SelfContained name

theorem BoundHooks.SelfContained.neverCancel {hooks : BoundHooks} {name : Value}
    (hhooks : hooks.SelfContained name) : hooks.NeverCancel :=
  ⟨hhooks.onTransition.result, hhooks.onFailure.result, hhooks.onTerminate.result⟩

theorem keyOf_error {source event : Value} {fault : Fault}
    (hfault : Table.keyOf source event = .error fault) : ∃ v, fault = .notKey v := by
  unfold Table.keyOf at hfault
  split at hfault
  · exact ⟨source, (Except.error.inj hfault).symm⟩
  · split at hfault
    · exact ⟨event, (Except.error.inj hfault).symm⟩
    · split at hfault <;> cases hfault

/-- The only fault of following a table is that of a state or an event that cannot be looked up. -/
theorem follow_error {t : Table} {state event payload : Value} {fault : Fault}
    (hfault : t.follow state event payload = .error fault) : ∃ v, fault = .notKey v := by
  unfold Table.follow Table.targetsOfValue at hfault
  cases hof : Table.keyOf state event with
  | error other =>
    rw [hof] at hfault
    obtain rfl := Except.error.inj hfault
    exact keyOf_error hof
  | ok key =>
    rw [hof] at hfault
    simp only [bind, Except.bind] at hfault
    cases key <;> (simp only [pure, Except.pure] at hfault; split at hfault <;> cases hfault)

theorem follow_uncancelled (t : Table) (state event payload : Value) :
    Uncancelled (t.follow state event payload) := by
  intro fault hfault
  obtain ⟨v, rfl⟩ := follow_error hfault
  rfl

/-- The hooks that come with a table keep to themselves. -/
theorem defaults_selfContained (table : Table) (name : Value) :
    (({} : Hooks).bind table).SelfContained name where
  onTransition :=
    { sends := fun _ _ => rfl
      past := fun _ _ => rfl
      result := fun _ call => follow_uncancelled table (.text call.state) call.event
        call.statePayload }
  onFailure := ⟨fun _ _ => rfl, fun _ _ => rfl, fun _ _ => nofun⟩
  onTerminate := ⟨fun _ _ => rfl, fun _ _ => rfl, fun _ _ => nofun⟩

/-- Subscribers whose faults are no cancellations. -/
def Bus.Tame (b : Bus Observer) : Prop :=
  ∀ topic, ∀ s ∈ b.onTopic topic, ∀ n,
    Uncancelled (s.handler.accepts n) ∧ Uncancelled (s.handler.result n)

/-- The notification that a sight is, if it is one. -/
def Sight.notice? : Sight → Option Notification
  | .published n => some n
  | _ => none

/-- The notifications among the sights. -/
def notices (sights : List Sight) : List Notification := sights.filterMap Sight.notice?

/-- What is to be told of a live instance. Without a bus nothing is published. -/
def Live.tale (l : Live) (outlet : Outlet) : Tale where
  past := l.past
  calls := hookCalls l.seen
  notices := if outlet = .nowhere then [] else notices l.seen

theorem filterMap_snoc {α β : Type} (f : α → Option β) (xs : List α) (x : α) :
    (xs ++ [x]).filterMap f = xs.filterMap f ++ (f x).toList := by
  rw [List.filterMap_append]
  cases hx : f x <;> simp [hx]

theorem hookCalls_snoc (sights : List Sight) (sight : Sight) :
    hookCalls (sights ++ [sight]) = hookCalls sights ++ sight.call?.toList :=
  filterMap_snoc Sight.call? sights sight

theorem notices_snoc (sights : List Sight) (sight : Sight) :
    notices (sights ++ [sight]) = notices sights ++ sight.notice?.toList :=
  filterMap_snoc Sight.notice? sights sight

namespace Host

variable {h h' : Host} {t u : Nat} {task : Task}

theorem deliver_tame {o : Observer} {n : Notification} (haccepts : Uncancelled (o.accepts n))
    (hresult : Uncancelled (o.result n)) (h : Host) (scope : Option Value) :
    (h.deliver scope n o).2 = none := by
  unfold deliver
  cases hok : o.accepts n with
  | error fault => simp [haccepts fault hok]
  | ok accepted =>
    cases accepted with
    | false => rfl
    | true =>
      cases hend : o.result n with
      | ok _ => rfl
      | error fault => simp [hresult fault hend]

/-- The faults of tame subscribers do not reach the one who publishes. -/
theorem publish_tame (htame : h.bus.Tame) (scope : Option Value) (n : Notification) :
    (h.publish scope n).2 = .ok () := by
  unfold publish
  generalize hdelivered : List.foldl _ _ (h.bus.inOrder n.topic) = delivered
  have hnone : delivered.2 = none := by
    rw [← hdelivered]
    apply List.foldlRecOn (motive := fun s : Host × Option Fault => s.2 = none) _ _ rfl
    rintro ⟨h', stop⟩ rfl s hs
    have hmem : s ∈ h.bus.onTopic n.topic := List.mem_mergeSort.1 hs
    exact deliver_tame (htame _ s hmem n).1 (htame _ s hmem n).2 h' scope
  obtain ⟨h', stop⟩ := delivered
  obtain rfl : stop = none := hnone
  rfl

/-! ## A task and its live instance -/

/-- A task shows a live instance: the instances are the same, the answer for the body is the
one it awaits, and no more and no less is told of its name than was seen. -/
structure Shown (h : Host) (t : Nat) (task : Task) (l : Live) : Prop where
  there : h.task? t = some task
  inst : task.inst = l.inst
  answer : ∀ s, task.answer = some s → l.awaited = s
  tale : h.tale l.inst.name = l.tale task.outlet

/-- A task shows what becomes of a live instance when something happens to it. -/
def ShownLater (h : Host) (t : Nat) (outlet : Outlet) (l : Live) : Prop :=
  ∃ task happenings, Shown h t task (l.run happenings) ∧ task.outlet = outlet

variable {l : Live} {outlet : Outlet}

theorem Shown.later (hshown : Shown h t task l) : ShownLater h t task.outlet l :=
  ⟨task, [], hshown, rfl⟩

/-- What does not touch the body and is not told of its name does not matter. -/
theorem Shown.keep (hshown : Shown h t task l) {task' : Task} (ht : h'.task? t = some task')
    (hinst : task'.inst = task.inst) (hanswer : task'.answer = task.answer)
    (houtlet : task'.outlet = task.outlet)
    (htale : h'.tale l.inst.name = h.tale l.inst.name) : Shown h' t task' l := by
  refine ⟨ht, hinst.trans hshown.inst, ?_, ?_⟩
  · intro s hs
    rw [hanswer] at hs
    exact hshown.answer s hs
  · rw [htale, houtlet]
    exact hshown.tale

theorem Shown.same (hshown : Shown h t task l) (ht : h'.task? t = h.task? t)
    (htale : h'.tale l.inst.name = h.tale l.inst.name) : Shown h' t task l :=
  hshown.keep (ht.trans hshown.there) rfl rfl rfl htale

theorem Shown.updateTask (hshown : Shown h t task l) (u : Nat) {f : Task → Task}
    (hf : (f task).inst = task.inst ∧ (f task).answer = task.answer ∧
      (f task).outlet = task.outlet) : ShownLater (h.updateTask u f) t task.outlet l := by
  by_cases hu : u = t
  · subst hu
    refine ⟨f task, [], ?_, hf.2.2⟩
    exact hshown.keep (task?_updateTask_self hshown.there f) hf.1 hf.2.1 hf.2.2 rfl
  · exact (hshown.same (task?_updateTask_ne hu f) rfl).later

theorem Shown.addTask (hshown : Shown h t task l) (other : Task) :
    Shown (h.addTask other).1 t task l :=
  hshown.keep (task?_addTask hshown.there other) rfl rfl rfl rfl

theorem Shown.spawn (hshown : Shown h t task l) (machine : Machine) (name payload : Value)
    (number : Option Nat) : Shown (h.spawn machine name payload number).1 t task l :=
  (hshown.addTask _).same rfl rfl

/-- A request that is posted to the task arrives. -/
theorem Shown.post (hshown : Shown h t task l) {r : Request} (hmark : r.unmarked = r)
    {inst : Instance} (hpost : task.inst.post r = .ok inst) :
    ShownLater (h.setTask t { task with inst := inst }) t task.outlet l := by
  have harrive : l.arrive r = { l with inst := inst, accepted := l.accepted ++ [r] } := by
    unfold Live.arrive
    rw [← hshown.inst, hpost]
  have hname : inst.name = l.inst.name := by
    have hmove := (task.inst.post_becomes r).name
    simp only [Instance.move, hpost] at hmove
    rw [hmove, hshown.inst]
  have hafter : Shown (h.setTask t { task with inst := inst }) t { task with inst := inst }
      (l.arrive r) := by
    rw [harrive]
    refine ⟨task?_setTask_self hshown.there _, rfl, hshown.answer, ?_⟩
    show h.tale inst.name = _
    rw [hname]
    exact hshown.tale
  cases r with
  | transition event payload =>
    exact ⟨{ task with inst := inst }, [.send event payload], hafter, rfl⟩
  | query call question abandoned =>
    obtain rfl : false = abandoned := (Request.query.inj hmark).2.2
    exact ⟨{ task with inst := inst }, [.query call question], hafter, rfl⟩
  | stop => exact ⟨{ task with inst := inst }, [.requestStop], hafter, rfl⟩

theorem Shown.giveUp (hshown : Shown h t task l) (u call : Nat) :
    ShownLater (h.updateTask u fun task => { task with inst := task.inst.abandon call }) t
      task.outlet l := by
  by_cases hu : u = t
  · subst hu
    refine ⟨{ task with inst := task.inst.abandon call }, [.giveUp call], ?_, rfl⟩
    refine ⟨task?_updateTask_self hshown.there _, ?_, hshown.answer, hshown.tale⟩
    show task.inst.abandon call = l.inst.abandon call
    rw [hshown.inst]
  · exact (hshown.same (task?_updateTask_ne hu _) rfl).later

theorem Shown.of_tasks (hshown : Shown h t task l) (htasks : h'.tasks = h.tasks)
    (htale : h'.tale l.inst.name = h.tale l.inst.name) : Shown h' t task l :=
  hshown.same (task?_of_tasks htasks t) htale

theorem Shown.nudge (hshown : Shown h t task l) (hnudge : Nudge h h') :
    ShownLater h' t task.outlet l := by
  cases hnudge with
  | aside hface =>
    exact (hshown.of_tasks (congrArg Face.tasks hface) (tale_of_face hface _)).later
  | run u run hrun => exact hshown.updateTask u ⟨rfl, rfl, rfl⟩
  | @post u other r inst hu hmark hpost =>
    by_cases heq : u = t
    · subst heq
      obtain rfl : task = other := Option.some.inj (hshown.there.symm.trans hu)
      exact hshown.post hmark hpost
    · exact (hshown.same (task?_setTask_ne heq _) rfl).later

theorem Shown.shift (hshown : Shown h t task l) (hshift : Shift h h') :
    ShownLater h' t task.outlet l := by
  have hsame : h'.tasks = h.tasks → ShownLater h' t task.outlet l :=
    fun htasks => (hshown.of_tasks htasks (hshift.tale l.inst.name)).later
  cases hshift with
  | nudge hnudge => exact hshown.nudge hnudge
  | clock time => exact hsame rfl
  | @finish u other ending hu hphase =>
    by_cases heq : u = t
    · subst heq
      obtain rfl : task = other := Option.some.inj (hshown.there.symm.trans hu)
      refine ⟨{ task with run := .ended, watchers := [] }, [], ?_, rfl⟩
      exact hshown.keep (task?_setTask_self hu _) rfl rfl rfl rfl
    · exact (hshown.same (task?_setTask_ne heq _) rfl).later
  | watchers u f => exact hshown.updateTask u ⟨rfl, rfl, rfl⟩
  | giveUp u call => exact hshown.giveUp u call
  | create machine name payload number outlet => exact (hshown.addTask _).later
  | start machine payload number hkey hfree => exact (hshown.spawn _ _ _ _).later
  | @restart u other fault hu hphase hpolicy hfree hcount =>
    have hcounted : Shown (h.countRestart other.inst.name) t task l := hshown.same rfl rfl
    exact (hcounted.spawn _ _ _ _).later
  | vacate hu hheld => exact hsame rfl
  | forget hkey hfree => exact hsame rfl
  | recount name => exact hsame rfl
  | announce name attempt fault =>
    exact hsame (congrArg Face.tasks (h.face_publish none (.restarted name attempt fault)))

theorem ShownLater.bind (hlater : ShownLater h t outlet l)
    (hnext : ∀ task happenings, Shown h t task (l.run happenings) →
      ShownLater h' t task.outlet (l.run happenings)) : ShownLater h' t outlet l := by
  obtain ⟨task, happenings, hshown, rfl⟩ := hlater
  obtain ⟨task', more, hshown', houtlet⟩ := hnext task happenings hshown
  rw [← Live.run_append] at hshown'
  exact ⟨task', happenings ++ more, hshown', houtlet⟩

/-! ## The body of another task moves on -/

theorem Shown.setAnswer_ne (hshown : Shown h t task l) (hu : u ≠ t) (s : Stimulus) :
    Shown (h.setAnswer u s) t task l := hshown.same (task?_updateTask_ne hu _) rfl

/-- What another body wants done may make requests arrive. -/
theorem Shown.perform_ne (hshown : Shown h t task l) (hu : u ≠ t) {other : Task}
    (hother : h.task? u = some other) (hname : other.inst.name ≠ l.inst.name) {e : Effect}
    (he : ∀ n, e = .publish n → n.name = other.inst.name) :
    ShownLater (h.perform u e) t task.outlet l := by
  apply perform_keeps (P := fun h => ShownLater h t task.outlet l)
    (fun _ _ hlater hnudge => hlater.bind fun _ _ hshown => hshown.nudge hnudge)
    (fun _ s _ hlater => hlater.bind fun _ _ hshown => (hshown.setAnswer_ne hu s).later) hother e
  · intro origin call
    have hnoted : Shown (h.noteCall other.inst.name origin call) t task l :=
      hshown.same rfl (tale_noteCall_ne hname origin call)
    exact hnoted.later
  · intro outlet n hn
    have hseen : Shown (h.see (.published outlet n)) t task l :=
      hshown.same rfl (tale_published_ne h outlet fun _ => he n hn ▸ hname)
    exact hseen.later
  · exact hshown.later

theorem Shown.feed_ne (hshown : Shown h t task l) (hu : u ≠ t) {other : Task}
    (hother : h.task? u = some other) (hname : other.inst.name ≠ l.inst.name) (s : Stimulus) :
    ShownLater (h.feed u s) t task.outlet l := by
  have hset : Shown (h.setTask u { other with inst := (other.inst.step s).1, answer := none })
      t task l := hshown.same (task?_setTask_ne hu _) rfl
  apply feed_induction (P := fun h => ShownLater h t task.outlet l) hother s hset.later
  intro h' other' e hother' hsame he hlater
  refine hlater.bind fun task happenings hshown => hshown.perform_ne hu hother' ?_ ?_
  · rw [hsame, Live.run_name]
    exact hname
  · rw [hsame]
    exact he

/-! ## The body of the task itself moves on -/

theorem pause_task (ht : h.task? t = some task) (p : Pause) :
    ∃ run, (h.pause t p).task? t = some { task with run := run } := by
  cases p with
  | none => exact ⟨task.run, ht⟩
  | forever =>
    exact ⟨.paused none, task?_updateTask_self ht fun task => { task with run := .paused none }⟩
  | seconds s =>
    unfold Host.pause
    simp only
    split
    · exact ⟨.queued false,
        task?_updateTask_self ht fun task => { task with run := .queued false }⟩
    · exact ⟨.paused (some h.serials), task?_updateTask_self ht fun task =>
        { task with run := .paused (some h.serials) }⟩

/-- A hook that sends nothing leaves its answer for the body. -/
theorem react_task (ht : h.task? t = some task) {α : Type} {r : Reaction α}
    (hsends : r.sends = []) (stimulus : Except Fault α → Stimulus) :
    ∃ run, (h.react t r stimulus).task? t =
      some { task with answer := some (stimulus r.result), run := run } := by
  have hlines := task?_of_tasks (congrArg Face.tasks (h.face_lines r.lines)) t
  have hthere : (r.lines.foldl (fun h text => h.see (.line text)) h).task? t = some task :=
    hlines.trans ht
  have hanswer := task?_updateTask_self hthere fun task =>
    { task with answer := some (stimulus r.result) }
  unfold Host.react
  simp only [hsends, Host.sendAll]
  exact pause_task hanswer r.pause

theorem Shown.ask (hshown : Shown h t task l) (origin : Origin) (call : HookCall) {α : Type}
    {r : Reaction α} (hsends : r.sends = []) (stimulus : Except Fault α → Stimulus) :
    ∃ task', task'.outlet = task.outlet ∧
      Shown ((h.noteCall l.inst.name origin call).react t r stimulus) t task'
        { l with
          awaited := stimulus r.result
          past := (l.inst.name, call) :: l.past
          seen := l.seen ++ [.called call] } := by
  obtain ⟨run, hrun⟩ := react_task (h := h.noteCall l.inst.name origin call) hshown.there
    hsends stimulus
  refine ⟨_, ?_, hrun, hshown.inst, ?_, ?_⟩
  · rfl
  · intro s hs
    exact Option.some.inj hs
  · show _ = Live.tale _ task.outlet
    rw [tale_react, tale_noteCall, hshown.tale]
    simp [Live.tale, hookCalls_snoc, notices_snoc, Sight.call?, Sight.notice?]

/-- What is published, or would be if there were a bus, is answered without a fault. -/
theorem Shown.published (hshown : Shown h t task l) {n : Notification}
    (ht : h'.task? t = some task)
    (htale : h'.tale l.inst.name =
      ({ l with seen := l.seen ++ [.published n] } : Live).tale task.outlet) :
    ∃ task', task'.outlet = task.outlet ∧
      Shown (h'.setAnswer t (.published (.ok ()))) t task' (l.perform (.publish n)) := by
  refine ⟨_, ?_, task?_updateTask_self ht _, hshown.inst, ?_, htale⟩
  · rfl
  · intro s hs
    exact Option.some.inj hs

/-- The body gets done what the live instance sees done. -/
theorem Shown.perform_own (hshown : Shown h t task l) (htame : h.bus.Tame)
    (hhooks : l.inst.machine.hooks.SelfContained l.inst.name) {e : Effect}
    (he : ∀ n, e = .publish n → n.isOwn = true ∧ n.name = l.inst.name) :
    ∃ task', task'.outlet = task.outlet ∧ Shown (h.perform t e) t task' (l.perform e) := by
  have hpast : ownPast l.inst.name h.past = l.past := congrArg Tale.past hshown.tale
  unfold Host.perform
  simp only [hshown.there]
  cases e with
  | log level text =>
    exact ⟨task, rfl, hshown.same rfl (tale_of_face (h.face_see rfl) _)⟩
  | askTransition call =>
    simp only
    rw [hshown.inst, hhooks.onTransition.past h.past call, hpast]
    exact hshown.ask _ (.transition call) (hhooks.onTransition.sends l.past call) .decided
  | askFailure call =>
    simp only
    rw [hshown.inst, hhooks.onFailure.past h.past call, hpast]
    exact hshown.ask _ (.failure call) (hhooks.onFailure.sends l.past call) .handled
  | askTerminate runState =>
    simp only
    rw [hshown.inst, hhooks.onTerminate.past h.past runState, hpast]
    exact hshown.ask _ (.terminate runState) (hhooks.onTerminate.sends l.past runState) .handled
  | answer c result =>
    have hface := face_resolve h c result
    refine ⟨task, rfl, ?_, hshown.inst, hshown.answer, ?_⟩
    · exact (task?_of_tasks (congrArg Face.tasks hface) t).trans hshown.there
    · show (h.resolve c result).tale l.inst.name = _
      rw [tale_of_face hface, hshown.tale]
      simp [Live.tale, Live.perform, hookCalls_snoc, notices_snoc, Sight.call?, Sight.notice?]
  | publish n =>
    obtain ⟨hown, hname⟩ := he n rfl
    have htold : ∀ outlet, (h.see (.published outlet n)).tale l.inst.name =
        ⟨(h.tale l.inst.name).past, (h.tale l.inst.name).calls,
          (h.tale l.inst.name).notices ++ [n]⟩ := by
      intro outlet
      rw [← hname]
      exact tale_published h outlet hown
    simp only
    split
    · rename_i houtlet
      have hface := h.face_publish (some task.inst.name) n
      rw [publish_tame htame]
      refine hshown.published ?_ ?_
      · exact (task?_of_tasks (congrArg Face.tasks hface) t).trans hshown.there
      · rw [tale_of_face hface, htold, hshown.tale]
        simp [Live.tale, houtlet, hookCalls_snoc, notices_snoc, Sight.call?, Sight.notice?]
    · rename_i houtlet
      refine hshown.published hshown.there ?_
      rw [htold, hshown.tale]
      simp [Live.tale, houtlet, hookCalls_snoc, notices_snoc, Sight.call?, Sight.notice?]
    · rename_i houtlet
      refine hshown.published hshown.there ?_
      rw [hshown.tale]
      simp [Live.tale, houtlet, hookCalls_snoc, Sight.call?]

/-- Carrying out effects one by one, the task keeps showing the live instance. -/
theorem Shown.perform_all (hshown : Shown h t task l) (htame : h.bus.Tame)
    (hhooks : l.inst.machine.hooks.SelfContained l.inst.name) (effects : List Effect)
    (hown : ∀ n, .publish n ∈ effects → n.isOwn = true ∧ n.name = l.inst.name) :
    ∃ task', task'.outlet = task.outlet ∧
      Shown (effects.foldl (fun h e => h.perform t e) h) t task' (effects.foldl Live.perform l)
        := by
  induction effects generalizing h task l with
  | nil => exact ⟨task, rfl, hshown⟩
  | cons e effects ih =>
    have hinst : (l.perform e).inst = l.inst := by cases e <;> rfl
    obtain ⟨task', houtlet, hshown'⟩ := hshown.perform_own htame hhooks (e := e)
      fun n hn => hown n (hn ▸ List.mem_cons_self)
    obtain ⟨task'', houtlet', hshown''⟩ := ih hshown' ((grows_perform h t e).bus ▸ htame)
      (by rw [hinst]; exact hhooks)
      (by rw [hinst]; exact fun n hn => hown n (List.mem_cons_of_mem _ hn))
    exact ⟨task'', houtlet'.trans houtlet, hshown''⟩

theorem Shown.feed_own (hshown : Shown h t task l) (htame : h.bus.Tame)
    (hhooks : l.inst.machine.hooks.SelfContained l.inst.name) (s : Stimulus) :
    ∃ task', task'.outlet = task.outlet ∧
      Shown (h.feed t s) t task' (l.become (l.inst.step s)) := by
  have hstep := l.inst.step_becomes s
  have hset : Shown (h.setTask t { task with inst := (task.inst.step s).1, answer := none }) t
      { task with inst := (task.inst.step s).1, answer := none }
      { l with
        inst := (l.inst.step s).1
        seen := l.seen ++ Live.commits l.inst (l.inst.step s).1 } := by
    refine ⟨task?_setTask_self hshown.there _, ?_, ?_, ?_⟩
    · show (task.inst.step s).1 = _
      rw [hshown.inst]
    · intro s' hs'
      cases hs'
    · show h.tale (l.inst.step s).1.name = _
      rw [hstep.name, hshown.tale]
      unfold Live.commits
      split <;> simp [Live.tale, hookCalls_snoc, notices_snoc, Sight.call?, Sight.notice?]
  have hfeed : h.feed t s = (task.inst.step s).2.foldl (fun h e => h.perform t e)
      (h.setTask t { task with inst := (task.inst.step s).1, answer := none }) := by
    unfold Host.feed
    simp only [hshown.there]
  rw [hfeed, hshown.inst]
  rw [hshown.inst] at hset
  obtain ⟨task', houtlet, hshown'⟩ := hset.perform_all htame
    (by rw [hstep.machine, hstep.name]; exact hhooks) (l.inst.step s).2
    (by rw [hstep.name]; exact fun n hn => Instance.publish_step hn)
  exact ⟨task', houtlet, hshown'⟩

end Host
end Turnstile

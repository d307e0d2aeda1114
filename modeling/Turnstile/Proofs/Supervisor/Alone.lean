-- A host in which one task runs and nobody else: while the hooks of its instance only compute, the
-- task moves on as the live instance does, and the rest of the host stays as it is.
import Turnstile.Proofs.Instance.Plain
import Turnstile.Proofs.Supervisor.Shown

namespace Turnstile

/-- An effect that is neither a question to a hook nor a publication, and answers nobody. -/
def Effect.IsLog (e : Effect) : Prop := ∃ level text, e = .log level text

theorem logs_of_quiet {effects : List Effect} (hquiet : ∀ e ∈ effects, e.IsQuiet)
    (hnone : answers effects = []) : ∀ e ∈ effects, e.IsLog := by
  intro e he
  cases hquiet e he with
  | log level text => exact ⟨level, text, rfl⟩
  | answer c result =>
    have hanswer := List.filterMap_eq_nil_iff.1 hnone _ he
    cases hanswer

/-- An instance for which nobody waits answers nobody. -/
theorem nobody_answered {i : Instance} (hwaiting : i.waiting = []) (s : Stimulus) :
    answers (i.step s).2 = [] ∧ (i.step s).1.waiting = [] := by
  have hsplit := (i.serves_step s).waiting_eq
  rw [hwaiting] at hsplit
  obtain ⟨hanswers, hrest⟩ := List.append_eq_nil_iff.1 hsplit.symm
  exact ⟨List.map_eq_nil_iff.1 hanswers, hrest⟩

namespace Live

variable {l : Live}

theorem foldl_perform_logs {effects : List Effect} (hlogs : ∀ e ∈ effects, e.IsLog) (l : Live) :
    effects.foldl perform l = l := by
  induction effects with
  | nil => rfl
  | cons e effects ih =>
    obtain ⟨⟨level, text, rfl⟩, hrest⟩ := List.forall_mem_cons.1 hlogs
    exact ih hrest

/-- While the body moves on, the machine stays, and so does whoever waits for nobody. -/
theorem proceed_keeps (l : Live) : l.proceed.inst.machine = l.inst.machine ∧
    (l.inst.waiting = [] → l.proceed.inst.waiting = []) := by
  have hstep : ∀ s, (l.become (l.inst.step s)).inst.machine = l.inst.machine ∧
      (l.inst.waiting = [] → (l.become (l.inst.step s)).inst.waiting = []) := by
    intro s
    rw [become_inst]
    exact ⟨(l.inst.step_becomes s).machine, fun hwaiting => (nobody_answered hwaiting s).2⟩
  unfold proceed
  split
  · exact hstep _
  · exact hstep _
  · exact ⟨rfl, id⟩
  · exact hstep _

end Live

namespace Host

variable {h g : Host} {t n : Nat} {task : Task} {past : HookPast} {events : List Event}
  {l l' : Live}

/-! ## A task that runs -/

/-- The host with a task that runs, hooks that were told some more, and more that was seen. -/
def moving (h : Host) (t : Nat) (task : Task) (past : HookPast) (events : List Event) : Host :=
  { h with
    tasks := h.tasks.set t { task with run := .active }
    running := some t
    past := past
    events := events }

theorem moving_setTask (task' : Task) :
    (h.moving t task past events).setTask t { task' with run := .active } =
      h.moving t task' past events := by
  unfold moving setTask
  simp

section
variable (ht : t < h.tasks.length)
include ht

theorem moving_task : (h.moving t task past events).task? t =
    some { task with run := .active } := List.getElem?_set_self ht

theorem moving_setAnswer (s : Stimulus) : (h.moving t task past events).setAnswer t s =
    h.moving t { task with answer := some s } past events := by
  unfold setAnswer
  rw [← setTask_eq_updateTask (moving_task ht) fun task => { task with answer := some s }]
  exact moving_setTask { task with answer := some s }

/-- The reaction of a hook that only computes. -/
theorem moving_react {α : Type} {r : Reaction α} (hplain : r.IsPlain)
    (stimulus : Except Fault α → Stimulus) :
    ∃ events', (h.moving t task past events).react t r stimulus =
      h.moving t { task with answer := some (stimulus r.result) } past events' := by
  unfold react
  obtain ⟨events', hlines⟩ := (h.moving t task past events).lines_eq r.lines
  simp only [hlines, hplain.sends, hplain.pause, sendAll, Host.pause]
  exact ⟨events', moving_setAnswer ht _⟩

theorem moving_publish (htame : h.bus.Tame) (n : Notification) :
    ∃ events', (h.moving t task past events).perform t (.publish n) =
      h.moving t { task with answer := some (.published (.ok ())) } past events' := by
  unfold perform
  rw [moving_task ht]
  simp only
  split
  · obtain ⟨events', hevents⟩ := (h.moving t task past events).publish_eq (some task.inst.name) n
    have hok : ((h.moving t task past events).publish (some task.inst.name) n).2 = .ok () :=
      publish_tame (h := h.moving t task past events) htame (some task.inst.name) n
    simp only [hevents, hok]
    exact ⟨events', moving_setAnswer ht _⟩
  · exact ⟨_, moving_setAnswer ht _⟩
  · exact ⟨events, moving_setAnswer ht _⟩

/-- What the body asks for is done as the live instance has it. -/
theorem moving_asks (htame : h.bus.Tame) (hplain : l.inst.machine.hooks.Plain) {e : Effect}
    (hasks : l.inst.Asks e) (answer : Option Stimulus) :
    ∃ events', (h.moving t { task with inst := l.inst, answer := answer } l.past events).perform t
        e = h.moving t { task with inst := l.inst, answer := some (l.perform e).awaited }
          (l.perform e).past events' := by
  cases hasks with
  | transition call hphase =>
    unfold perform
    rw [moving_task ht]
    exact moving_react ht (hplain.onTransition l.past call) .decided
  | failure call hphase =>
    unfold perform
    rw [moving_task ht]
    exact moving_react ht (hplain.onFailure l.past call) .handled
  | terminate hphase =>
    unfold perform
    rw [moving_task ht]
    exact moving_react ht (hplain.onTerminate l.past l.inst.runState) .handled
  | publish n hphase => exact moving_publish ht htame n

theorem moving_logs {effects : List Effect} (hlogs : ∀ e ∈ effects, e.IsLog)
    (events : List Event) :
    ∃ events', effects.foldl (fun h e => h.perform t e) (h.moving t task past events) =
      h.moving t task past events' := by
  induction effects generalizing events with
  | nil => exact ⟨events, rfl⟩
  | cons e effects ih =>
    obtain ⟨⟨level, text, rfl⟩, hrest⟩ := List.forall_mem_cons.1 hlogs
    rw [List.foldl_cons]
    unfold perform
    rw [moving_task ht]
    exact ih hrest _

end

/-! ## The task and its live instance -/

/-- The running task stands where a live instance stands, in a host that is otherwise as it was. -/
def Mirrors (h : Host) (t : Nat) (task : Task) (l : Live) (g : Host) : Prop :=
  ∃ answer events,
    g = h.moving t { task with inst := l.inst, answer := answer } l.past events ∧
      (l.inst.phase.IsFree ∨ answer = some l.awaited ∧ l.inst.phase.Awaits l.awaited)

theorem awaits_of_asks {e : Effect} (hasks : l.inst.Asks e) :
    l.inst.phase.Awaits (l.perform e).awaited := by
  cases hasks with
  | transition call hphase => exact hphase ▸ .decided ..
  | failure call hphase => exact hphase ▸ .reported ..
  | terminate hphase => exact hphase ▸ .terminated ..
  | publish n hphase =>
    rcases hphase with hphase | ⟨ending, hphase⟩
    · exact hphase ▸ .told _
    · exact hphase ▸ .announced ..

/-- The body is given what fits: it takes the step of the live instance. -/
theorem mirrors_feed (ht : t < h.tasks.length) (htame : h.bus.Tame)
    (hplain : l.inst.machine.hooks.Plain) {s : Stimulus} (hfits : l.inst.Fits s)
    (hnone : answers (l.inst.step s).2 = []) (answer : Option Stimulus) (events : List Event) :
    Mirrors h t task (l.become (l.inst.step s))
      ((h.moving t { task with inst := l.inst, answer := answer } l.past events).feed t s) := by
  have hmachine : (l.inst.step s).1.machine = l.inst.machine := (l.inst.step_becomes s).machine
  have hposes := Instance.poses_step hfits
  unfold feed
  rw [moving_task ht]
  simp only
  generalize l.inst.step s = next at *
  obtain ⟨i, effects⟩ := next
  have hset : (h.moving t { task with inst := l.inst, answer := answer } l.past events).setTask t
      { task with inst := i, answer := none, run := .active } =
      h.moving t { task with inst := i, answer := none } l.past events :=
    moving_setTask { task with inst := i, answer := none }
  simp only at hset ⊢
  rw [hset]
  -- The live instance before it carries the effects out.
  let l' : Live := { l with inst := i, seen := l.seen ++ Live.commits l.inst i }
  have hbecome : l.become (i, effects) = effects.foldl Live.perform l' := rfl
  have hlogged : ∀ {logs : List Effect}, (∀ e ∈ logs, e.IsLog) → ∃ events',
      logs.foldl (fun h e => h.perform t e)
        (h.moving t { task with inst := i, answer := none } l.past events) =
        h.moving t { task with inst := i, answer := none } l.past events' :=
    fun hlogs => moving_logs ht hlogs events
  cases hposes with
  | free hfree hquiet =>
    have hlogs := logs_of_quiet hquiet hnone
    obtain ⟨events', hevents⟩ := hlogged hlogs
    rw [hbecome, Live.foldl_perform_logs hlogs]
    exact ⟨none, events', hevents, .inl hfree⟩
  | @asking quiet e heffects hquiet hasks =>
    simp only at heffects
    have hquiets : answers quiet = [] := by
      rw [heffects, answers_append] at hnone
      exact (List.append_eq_nil_iff.1 hnone).1
    have hlogs := logs_of_quiet hquiet hquiets
    obtain ⟨events', hevents⟩ := hlogged hlogs
    obtain ⟨events'', hevents'⟩ : ∃ events'', (h.moving t
        { task with inst := l'.inst, answer := none } l'.past events').perform t e = _ :=
      moving_asks ht htame (hmachine ▸ hplain) hasks none
    rw [hbecome, heffects, List.foldl_append, List.foldl_append, Live.foldl_perform_logs hlogs,
      hevents]
    have hinst : (l'.perform e).inst = i := Live.foldl_perform_inst [e] l'
    refine ⟨_, events'', hevents'.trans ?_, .inr ⟨rfl, ?_⟩⟩
    · rw [show (List.foldl Live.perform l' [e]).inst = i from hinst]
      rfl
    · show (l'.perform e).inst.phase.Awaits _
      rw [hinst]
      exact awaits_of_asks (l := l') hasks

/-- A body that is busy is given what fits, by its host as by itself. -/
theorem moving_step (task : Task) (ht : t < h.tasks.length) {answer : Option Stimulus}
    (hstands : l.inst.phase.IsFree ∨ answer = some l.awaited ∧ l.inst.phase.Awaits l.awaited)
    (hbusy : ¬l.AtRest) (past : HookPast) (events : List Event) :
    ∃ s, l.inst.Fits s ∧ l.proceed = l.become (l.inst.step s) ∧
      (h.moving t { task with inst := l.inst, answer := answer } past events).step =
        (h.moving t { task with inst := l.inst, answer := answer } past events).feed t s := by
  rw [step_running rfl]
  unfold runTask Live.proceed
  rw [moving_task ht]
  simp only
  cases hphase : l.inst.phase with
  | fresh => exact ⟨_, .start hphase, rfl, rfl⟩
  | idle =>
    have hmailbox : l.inst.mailbox ≠ [] := fun hempty => hbusy (.inl ⟨hphase, hempty⟩)
    simp only [List.isEmpty_iff, hmailbox, if_false]
    exact ⟨_, .receive hphase, rfl, rfl⟩
  | finished ending => exact absurd (.inr ⟨ending, hphase⟩) hbusy
  | _ =>
    obtain ⟨rfl, hawaits⟩ := hstands.resolve_left fun hfree => by rw [hphase] at hfree; cases hfree
    exact ⟨_, .answer hawaits, rfl, rfl⟩

/-- A step of the host is a step of the live instance. -/
theorem Mirrors.step (hmirrors : Mirrors h t task l g) (ht : t < h.tasks.length)
    (htame : h.bus.Tame) (hplain : l.inst.machine.hooks.Plain) (hwaiting : l.inst.waiting = [])
    (hbusy : ¬l.AtRest) : Mirrors h t task l.proceed g.step := by
  obtain ⟨answer, events, rfl, hstands⟩ := hmirrors
  obtain ⟨s, hfits, hproceed, hstep⟩ := moving_step task ht hstands hbusy l.past events
  rw [hproceed, hstep]
  exact mirrors_feed ht htame hplain hfits (nobody_answered hwaiting _).1 answer events

/-- Until the live instance is at rest, the host does nothing but move its task on. -/
theorem Mirrors.passes {n : Nat} (hmirrors : Mirrors h t task l g) (ht : t < h.tasks.length)
    (htame : h.bus.Tame) (hplain : l.inst.machine.hooks.Plain) (hwaiting : l.inst.waiting = [])
    (hpasses : l.Passes n l') : Mirrors h t task l' (Host.step^[n] g) := by
  induction hpasses generalizing g with
  | refl l => exact hmirrors
  | @step l l' n hbusy hrest ih =>
    obtain ⟨hmachine, hkept⟩ := l.proceed_keeps
    rw [Function.iterate_succ_apply]
    exact ih (hmirrors.step ht htame hplain hwaiting hbusy) (hmachine ▸ hplain) (hkept hwaiting)

/-! ## The task comes and goes -/

/-- The turn that comes next, without the jobs that were queued for it. -/
def turned (h : Host) : Host :=
  { h with
    batch := (h.timers.filter h.isDue).map (·.job)
    ready := []
    timers := h.timers.filter fun timer => !h.isDue timer }

/-- The host with a task that has stopped running. -/
def halted (h : Host) (t : Nat) (task : Task) (past : HookPast) (events : List Event) : Host :=
  { h with tasks := h.tasks.set t task, running := none, past := past, events := events }

/-- A task whose turn has come runs. -/
theorem step_resumes {rest : List Job} (hrunning : h.running = none)
    (hbatch : h.batch = .resume t :: rest) (ht : h.task? t = some task)
    (hrun : task.run = .queued false) :
    h.step = ({ h with batch := rest } : Host).moving t task h.past h.events := by
  rw [step_job hrunning hbatch]
  show resume _ t = _
  unfold resume
  have hthere : ({ h with batch := rest } : Host).task? t = some task := ht
  rw [hthere]
  simp only [hrun]
  rfl

/-- A task that alone is queued runs after two steps. -/
theorem runs_queued (hrunning : h.running = none) (hbatch : h.batch = [])
    (hready : h.ready = [.resume t]) (ht : h.task? t = some task)
    (hrun : task.run = .queued false) :
    Host.step^[2] h = h.turned.moving t task h.past h.events := by
  have hturn : h.beginTurn.batch = .resume t :: (h.timers.filter h.isDue).map (·.job) := by
    unfold beginTurn
    rw [hready]
    rfl
  show h.step.step = _
  rw [step_turn hrunning hbatch, step_resumes (h := h.beginTurn) hrunning hturn ht hrun]
  rfl

/-- So the host goes on as the live instance of a task does that alone is queued. -/
theorem mirrors_queued (hrunning : h.running = none) (hbatch : h.batch = [])
    (hready : h.ready = [.resume t]) (ht : h.task? t = some task)
    (hrun : task.run = .queued false) (hfree : task.inst.phase.IsFree) :
    Mirrors h.turned t task { inst := task.inst, past := h.past } (Host.step^[2] h) := by
  rw [runs_queued hrunning hbatch hready ht hrun]
  exact ⟨task.answer, h.events, rfl, .inl hfree⟩

/-- A running task at its mailbox, with nothing in it, waits. -/
theorem moving_waits (ht : t < h.tasks.length) (hphase : task.inst.phase = .idle)
    (hmailbox : task.inst.mailbox = []) : (h.moving t task past events).step =
      h.halted t { task with run := .receiving } past events := by
  rw [step_running rfl]
  unfold runTask
  rw [moving_task ht]
  simp only [hphase, hmailbox, List.isEmpty_nil, if_true]
  unfold block
  rw [← setTask_eq_updateTask (moving_task ht) fun task => { task with run := .receiving }]
  simp [moving, setTask, halted]

/-- A task at its mailbox, with nothing in it, waits. -/
theorem Mirrors.waits (hmirrors : Mirrors h t task l g) (ht : t < h.tasks.length)
    (hphase : l.inst.phase = .idle) (hmailbox : l.inst.mailbox = []) :
    ∃ answer events, g.step = h.halted t
      { task with inst := l.inst, answer := answer, run := .receiving } l.past events := by
  obtain ⟨answer, events, rfl, -⟩ := hmirrors
  exact ⟨answer, events, moving_waits ht hphase hmailbox⟩

theorem enqueue_taskEnded (h : Host) (calls : List Nat) :
    calls.foldl (fun h c => h.enqueue (.taskEnded c)) h =
      { h with ready := h.ready ++ calls.map .taskEnded } := by
  induction calls generalizing h with
  | nil => simp
  | cons c calls ih =>
    rw [List.foldl_cons, ih]
    simp [enqueue]

/-- A running task that is through ends, and all that are to know of it are told in the next turn. -/
theorem moving_ends (task : Task) (past : HookPast) (events : List Event) (ht : t < h.tasks.length)
    {ending : Ending} (hphase : task.inst.phase = .finished ending)
    (hsupervised : task.supervised = true) :
    (h.moving t task past events).step = { h.halted t
      { task with run := .ended, watchers := [] } past events with
      ready := h.ready ++ .exited t :: task.watchers.map .taskEnded } := by
  rw [step_running rfl]
  unfold runTask
  rw [moving_task ht]
  simp only [hphase]
  unfold endTask
  simp only [hsupervised, if_true, enqueue_taskEnded]
  simp [moving, setTask, halted, enqueue]

/-- A task that is through ends, and all that are to know of it are told in the next turn. -/
theorem Mirrors.ends (hmirrors : Mirrors h t task l g) (ht : t < h.tasks.length) {ending : Ending}
    (hphase : l.inst.phase = .finished ending) (hsupervised : task.supervised = true) :
    ∃ answer events, g.step = { h.halted t
      { task with inst := l.inst, answer := answer, run := .ended, watchers := [] } l.past
        events with
      ready := h.ready ++ .exited t :: task.watchers.map .taskEnded } := by
  obtain ⟨answer, events, rfl, -⟩ := hmirrors
  exact ⟨answer, events, moving_ends { task with inst := l.inst, answer := answer } l.past events ht
    hphase hsupervised⟩

end Host
end Turnstile

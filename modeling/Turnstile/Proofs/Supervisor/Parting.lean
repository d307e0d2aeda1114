-- A host whose only instance is on its way out. It has left the diagram and somebody waits for its
-- end, or it rests and all instances are stopped: either way its task ends, whoever waited goes on,
-- nothing is left to do, and no line is written.
import Turnstile.Proofs.Supervisor.Asked

namespace Turnstile

namespace Host

variable {h k : Host} {typeName name text : String} {t : Table} {task : Task} {c n : Nat}
  {lines : List String}

/-! ## The end -/

theorem lines_write (h : Host) (text : String) : (h.write text).lines = h.lines ++ [text] := by
  rw [lines_eq_linesOf, lines_eq_linesOf]
  exact linesOf_append _ _

/-- A host whose only task has ended, in which nothing is left to do. -/
structure Over (k : Host) (task : Task) (lines : List String) : Prop where
  stuck : k.IsStuck
  tasks : k.tasks = [task]
  ended : task.run = .ended
  lines : k.lines = lines

theorem Over.write (hover : k.Over task lines) (text : String) :
    (k.write text).Over task (lines ++ [text]) where
  stuck := ⟨hover.stuck.running, hover.stuck.batch, hover.stuck.ready, hover.stuck.timers⟩
  tasks := hover.tasks
  ended := hover.ended
  lines := hover.lines ▸ k.lines_write text

/-- Who has ended cannot be cancelled. -/
theorem Over.cancelAll (hover : k.Over task lines) : k.cancelAll = k := by
  have hcancel : k.cancelTask 0 = (k, false) := by
    have hthere : k.task? 0 = some task := by simp [task?, hover.tasks]
    unfold cancelTask
    rw [hthere]
    simp only [hover.ended]
  unfold Host.cancelAll
  rw [hover.tasks]
  show (k.cancelTask 0).1.settled = k
  rw [hcancel]
  exact settle_eq (n := 0) hover.stuck.isIdle (Nat.zero_le _)

/-! ## Waiting -/

theorem result_of_queued {parent : Option Nat} {stage : Stage} {cancelled : Bool}
    (hcall : h.calls[c]? = some ⟨parent, stage, .queued cancelled⟩) : h.result? c = none := by
  unfold result?
  rw [hcall]

theorem result_of_done {call : Call} {result : Except Fault CallAnswer}
    (hcall : h.calls[c]? = some call) (hdone : call.run = .done result) :
    h.result? c = some result := by
  obtain ⟨parent, stage, run⟩ := call
  obtain rfl : run = .done result := hdone
  unfold result?
  rw [hcall]

/-- The host in which somebody waits for the end of the only task, which has ended. -/
def awaiting (h : Host) : Host :=
  { h with
    calls := h.calls ++ [⟨none, .exit 0, .waiting false⟩]
    ready := [.taskEnded h.calls.length] }

theorem Gone.waitTask (hgone : h.Gone typeName t name task) :
    h.waitTask 0 = (h.awaiting, .later h.calls.length) := by
  have hended : (h.addCall ⟨none, .exit 0, .waiting false⟩).1.hasEnded 0 = true := by
    have hthere : (h.addCall ⟨none, .exit 0, .waiting false⟩).1.task? 0 = some task :=
      hgone.toSingle.there
    unfold hasEnded
    rw [hthere]
    simp [hgone.ended]
  unfold Host.waitTask watch
  simp only [hended, if_true]
  simp [addCall, enqueue, awaiting, hgone.ready]

/-- Whoever waits for the end of an instance that has left the diagram goes on when the task has ended
and the name is free. -/
theorem Gone.awaited {settings : Settings} {registry : Registry}
    (hgone : h.Gone typeName t name task)
    (hleads : (opened settings registry {}).Leads h) :
    ∃ k, await (h.waitTask 0) = (k, .ok (.exited 0)) ∧ k.Over task h.lines := by
  let c := h.calls.length
  let freed : Host := { h.awaiting with
    batch := [], holders := eraseName h.holders task.inst.name }
  let told : Host := { freed with batch := [.taskEnded c], ready := [] }
  let queued : Host := { told with
    batch := [.proceed c], calls := told.calls.set c ⟨none, .exit 0, .queued false⟩ }
  let finished : Host := { queued with
    batch := [], calls := queued.calls.set c ⟨none, .exit 0, .done (.ok (.exited 0))⟩ }
  have hcall : told.calls[c]? = some ⟨none, .exit 0, .waiting false⟩ :=
    List.getElem?_concat_length
  have hthere : queued.calls[c]? = some ⟨none, .exit 0, .queued false⟩ :=
    List.getElem?_set_self (List.getElem?_eq_some_iff.1 hcall).1
  have hdue : ∀ timer ∈ h.timers, h.isDue timer = false := hgone.timers ▸ List.forall_mem_nil _
  have hfreed : h.awaiting.step = freed := step_left (h := h.awaiting) hgone.running hgone.batch
    hgone.toSingle.there (hgone.named ▸ hgone.toSingle.held) hgone.uncrashed
  have htold : freed.step = told := step_ready hgone.running rfl hdue
  have hqueued : Host.step^[2] told = queued := goes_on (h := told) hgone.running rfl rfl hdue hcall
  have hsteps : Host.step^[4] h.awaiting = queued := by
    show Host.step^[2] h.awaiting.step.step = queued
    rw [hfreed, htold, hqueued]
  have hlast : queued.step = finished := by
    refine (step_job (h := queued) hgone.running rfl).trans ?_
    show ({ queued with batch := [] } : Host).proceed c = finished
    unfold proceed
    rw [show ({ queued with batch := [] } : Host).calls[c]? = _ from hthere]
    rfl
  have hdone : finished.calls[c]? = some ⟨none, .exit 0, .done (.ok (.exited 0))⟩ :=
    List.getElem?_set_self (List.getElem?_eq_some_iff.1 hthere).1
  have hwait : h.wait (.text name) = (h.awaiting, .later c) := by
    unfold Host.wait
    simp only [hgone.toSingle.holder, hgone.waitTask]
    rfl
  have hattended : h.awaiting.Attended :=
    (@Leads.of_act _ _ _ hleads (.wait (.text name)) (congrArg Prod.fst hwait)).grown.attended
  refine ⟨finished, ?_, ⟨hgone.running, rfl, rfl, hgone.timers⟩, hgone.tasks, hgone.ended, rfl⟩
  rw [hgone.waitTask, hattended.await_later (n := 0) hsteps (result_of_queued hthere)
    (hlast ▸ result_of_done hdone rfl) (by omega)]
  exact congrArg (·, _) hlast

/-! ## Stopping all instances -/

section
variable {d : Nat} {parent : Option Nat} {timeout : Number} {children : List Nat}
  (hrunning : h.running = none)
include hrunning

/-- A guard whose turn comes when the task has ended is told of the end in the next turn. -/
theorem guard_opens (ht : h.task? 0 = some task) (hended : task.run = .ended)
    (htimers : h.timers = []) (hbatch : h.batch = [.proceed d])
    (hcall : h.calls[d]? = some ⟨parent, .closing 0 timeout, .queued false⟩) :
    h.step = { h with
      calls := h.calls.set d ⟨parent, .window 0 timeout, .waiting false⟩
      timers := [⟨h.dueAfter timeout, .close d⟩]
      batch := []
      ready := h.ready ++ [.taskEnded d] } := by
  let waiting : Host := { h with
    calls := h.calls.set d ⟨parent, .window 0 timeout, .waiting false⟩
    timers := [⟨h.dueAfter timeout, .close d⟩]
    batch := [] }
  have hover : waiting.hasEnded 0 = true := by
    have hthere : waiting.task? 0 = some task := ht
    unfold hasEnded
    rw [hthere]
    simp [hended]
  have hset : (({ h with batch := [] } : Host).setCall d
      ⟨parent, .window 0 timeout, .waiting false⟩).setTimer timeout (.close d) = waiting := by
    simp [setTimer, setCall, htimers, insertTimer, dueAfter, waiting]
  have hthere : ({ h with batch := [] } : Host).calls[d]? =
      some ⟨parent, .closing 0 timeout, .queued false⟩ := hcall
  rw [step_job hrunning hbatch]
  show ({ h with batch := [] } : Host).proceed d = _
  unfold proceed
  rw [hthere]
  simp only
  unfold openWindow
  simp only [hset]
  unfold watch
  rw [if_pos hover]
  rfl

/-- The end of a task is told to its supervisor and to the guard, which goes on, whether or not its
window is over meanwhile. -/
theorem guard_told {timer : Timer} (ht : h.task? 0 = some task)
    (hheld : lookupName h.holders task.inst.name = some 0)
    (huncrashed : ∀ fault, task.inst.phase ≠ .finished (.failed fault))
    (htimers : h.timers = [timer]) (hjob : timer.job = .close d) (hbatch : h.batch = [])
    (hready : h.ready = [.exited 0, .taskEnded d])
    (hcall : h.calls[d]? = some ⟨parent, .window 0 timeout, .waiting false⟩) :
    ∃ n ≤ 5, ∃ timers, (∀ timer ∈ timers, timer.job = .close d) ∧ Host.step^[n] h = { h with
      holders := eraseName h.holders task.inst.name
      calls := h.calls.set d ⟨parent, .window 0 timeout, .queued false⟩
      timers := timers
      batch := [.proceed d]
      ready := [] } := by
  have hturn : h.step = { h with
      batch := [.exited 0, .taskEnded d] ++ ([timer].filter h.isDue).map (·.job)
      ready := []
      timers := [timer].filter fun timer => !h.isDue timer } := by
    rw [step_turn hrunning hbatch]
    unfold beginTurn
    rw [hready, htimers]
  cases hdue : h.isDue timer with
  | false =>
    let turned : Host := { h with
      batch := [.exited 0, .taskEnded d], ready := [], timers := [timer] }
    let freed : Host := { turned with
      batch := [.taskEnded d], holders := eraseName h.holders task.inst.name }
    have hturned : h.step = turned := by simpa [List.filter_singleton, hdue] using hturn
    have hfreed : turned.step = freed := step_left (h := turned) hrunning rfl ht hheld huncrashed
    have hon := goes_on (h := freed) hrunning rfl rfl (List.forall_mem_singleton.2 hdue) hcall
    refine ⟨4, by omega, [timer], List.forall_mem_singleton.2 hjob, ?_⟩
    show Host.step^[2] h.step.step = _
    rw [hturned, hfreed, hon]
  | true =>
    let turned : Host := { h with
      batch := [.exited 0, .taskEnded d, .close d], ready := [], timers := [] }
    let freed : Host := { turned with
      batch := [.taskEnded d, .close d], holders := eraseName h.holders task.inst.name }
    let released : Host := { freed with
      batch := [.close d], ready := [.proceed d]
      calls := h.calls.set d ⟨parent, .window 0 timeout, .queued false⟩ }
    have hturned : h.step = turned := by simpa [List.filter_singleton, hdue, hjob] using hturn
    have hfreed : turned.step = freed := step_left (h := turned) hrunning rfl ht hheld huncrashed
    have hreleased : freed.step = released :=
      (step_job (h := freed) hrunning rfl).trans
        (release_waiting (h := { freed with batch := [.close d] }) hcall)
    have hclosed : released.step = { released with batch := [] } :=
      (step_job (h := released) hrunning rfl).trans
        (release_queued (h := { released with batch := [] })
          (List.getElem?_set_self (List.getElem?_eq_some_iff.1 hcall).1))
    have hlast := step_ready (h := { released with batch := [] }) hrunning rfl
      (List.forall_mem_nil _)
    refine ⟨5, by omega, [], List.forall_mem_nil _, ?_⟩
    show h.step.step.step.step.step = _
    rw [hturned, hfreed, hreleased, hclosed, hlast]

/-- A guard that goes on when the task has ended returns, and whoever stopped all instances learns of it
in the next turn. -/
theorem guard_returns (htasks : h.tasks = [task]) (hended : task.run = .ended)
    (hwatchers : task.watchers = []) (htimers : ∀ timer ∈ h.timers, timer.job = .close d)
    (hbatch : h.batch = [.proceed d]) (hready : h.ready = [])
    (hcall : h.calls[d]? = some ⟨some c, .window 0 timeout, .queued false⟩) : h.step = { h with
      calls := h.calls.set d ⟨some c, .window 0 timeout, .done (.ok .nothing)⟩
      timers := []
      batch := []
      ready := [.joined c false] } := by
  have hthere : ({ h with batch := [] } : Host).task? 0 = some task := by simp [task?, htasks]
  have hkept : ({ h with batch := [] } : Host).tasks.set 0
      { task with watchers := task.watchers.filter (· ≠ d) } = h.tasks := by
    show h.tasks.set 0 _ = h.tasks
    rw [htasks, hwatchers]
    obtain ⟨⟩ := task
    obtain rfl := hwatchers
    rfl
  have hdropped : (({ h with batch := [] } : Host).dropWindow d).timers = [] := by
    refine List.filter_eq_nil_iff.2 fun timer hmem => ?_
    rw [htimers timer hmem]
    simp
  rw [step_job hrunning hbatch]
  show ({ h with batch := [] } : Host).proceed d = _
  rw [proceed_window (h := { h with batch := [] }) hthere hended hcall, hdropped, hkept]
  simp [finishCall, setCall, enqueue, hready]

/-- When the only task has ended its guard returns, and whoever stopped it is to learn of that. -/
theorem guard_parts (htasks : h.tasks = [task]) (hended : task.run = .ended)
    (hwatchers : task.watchers = []) (hheld : lookupName h.holders task.inst.name = some 0)
    (huncrashed : ∀ fault, task.inst.phase ≠ .finished (.failed fault)) (htimers : h.timers = [])
    (hbatch : h.batch = [.proceed d]) (hready : h.ready = [.exited 0])
    (hguard : h.calls[d]? = some ⟨some c, .closing 0 timeout, .queued false⟩) :
    ∃ n ≤ 7, ∃ calls, (∀ j ≠ d, calls[j]? = h.calls[j]?) ∧ Host.step^[n] h = { h with
      holders := eraseName h.holders task.inst.name
      calls := calls
      timers := []
      batch := []
      ready := [.joined c false] } := by
  have hthere : h.task? 0 = some task := by simp [task?, htasks]
  have hset : ∀ {calls : List Call} (call : Call), calls.length = h.calls.length →
      (calls.set d call)[d]? = some call := fun call hlength =>
    List.getElem?_set_self (hlength ▸ (List.getElem?_eq_some_iff.1 hguard).1)
  let window : Call := ⟨some c, .window 0 timeout, .waiting false⟩
  let opened : Host := { h with
    calls := h.calls.set d window
    timers := [⟨h.dueAfter timeout, .close d⟩]
    batch := []
    ready := [.exited 0, .taskEnded d] }
  have hopened : h.step = opened :=
    (guard_opens hrunning hthere hended htimers hbatch hguard).trans (by rw [hready]; rfl)
  obtain ⟨n, hn, timers, hclose, htold⟩ := guard_told (h := opened) hrunning hthere hheld huncrashed
    rfl rfl rfl rfl (hset window rfl)
  let told : Host := { opened with
    holders := eraseName h.holders task.inst.name
    calls := opened.calls.set d ⟨some c, .window 0 timeout, .queued false⟩
    timers := timers
    batch := [.proceed d]
    ready := [] }
  have hreturned := guard_returns (h := told) hrunning htasks hended hwatchers hclose rfl rfl
    (hset _ List.length_set)
  refine ⟨n + 2, by omega,
    told.calls.set d ⟨some c, .window 0 timeout, .done (.ok .nothing)⟩, fun j hne => ?_, ?_⟩
  · have hkept : ∀ {calls : List Call} (call : Call), (calls.set d call)[j]? = calls[j]? :=
      fun call => List.getElem?_set_ne hne.symm
    exact (hkept _).trans ((hkept _).trans (hkept _))
  · rw [Function.iterate_succ_apply, hopened, Function.iterate_succ_apply', htold]
    exact hreturned

/-- Whoever stopped the only instance goes on when its guard has returned. -/
theorem join_returns (htimers : h.timers = []) (hbatch : h.batch = [])
    (hready : h.ready = [.joined c false])
    (hcall : h.calls[c]? = some ⟨none, .join children 1, .waiting false⟩) :
    (Host.step^[3] h).result? c = none ∧ Host.step^[4] h = { h with
      calls := h.calls.set c ⟨none, .join children 0, .done (.ok .nothing)⟩
      ready := [] } := by
  let turned : Host := { h with batch := [.joined c false], ready := [] }
  let released : Host := { turned with
    batch := []
    ready := [.proceed c]
    calls := h.calls.set c ⟨none, .join children 0, .queued false⟩ }
  let queued : Host := { released with batch := [.proceed c], ready := [] }
  have hdue : ∀ timer ∈ h.timers, h.isDue timer = false := htimers ▸ List.forall_mem_nil _
  have hlt : c < h.calls.length := (List.getElem?_eq_some_iff.1 hcall).1
  have hturned : h.step = turned := (step_ready hrunning hbatch hdue).trans (by rw [hready])
  have hreleased : turned.step = released := by
    have hthere : ({ turned with batch := [] } : Host).calls[c]? =
        some ⟨none, .join children 1, .waiting false⟩ := hcall
    refine (step_job (h := turned) hrunning rfl).trans ?_
    show ({ turned with batch := [] } : Host).joined c false = _
    unfold joined
    rw [hthere]
    simp only [Bool.or_false, Nat.sub_self, Bool.false_or, le_refl, decide_true, if_true]
    rw [release_waiting (List.getElem?_set_self hlt)]
    simp [setCall, released, turned]
  have hqueued : released.step = queued := step_ready (h := released) hrunning rfl hdue
  have hthere : queued.calls[c]? = some ⟨none, .join children 0, .queued false⟩ :=
    List.getElem?_set_self hlt
  constructor
  · show (h.step.step.step).result? c = none
    rw [hturned, hreleased, hqueued]
    exact result_of_queued hthere
  · show h.step.step.step.step = _
    rw [hturned, hreleased, hqueued]
    refine (step_job (h := queued) hrunning rfl).trans ?_
    show ({ queued with batch := [] } : Host).proceed c = _
    unfold proceed
    rw [show ({ queued with batch := [] } : Host).calls[c]? = _ from hthere]
    simp [finishCall, setCall, queued, released, turned, hbatch]

end

/-- The host in which all instances have been told to stop, and a guard is to wait for the only one. -/
def dismissing (h : Host) (task : Task) : Host :=
  { h with
    tasks := [task.given .stop]
    calls := h.calls ++ [⟨none, .join [h.calls.length + 1] 1, .waiting false⟩,
      ⟨some h.calls.length, .closing 0 h.settings.shutdownTimeout, .queued false⟩]
    ready := [.resume 0, .proceed (h.calls.length + 1)] }

theorem Poised.receiving (hpoised : h.Poised typeName t name task)
    (hwaits : task.run ≠ .queued false) : task.run = .receiving :=
  hpoised.waits.elim (fun hqueued => absurd hqueued.1 hwaits) fun hrests => hrests.1

theorem Poised.resting (hpoised : h.Poised typeName t name task) (hrun : task.run = .receiving) :
    task.Rests ∧ h.IsStuck := by
  obtain ⟨hqueued, -⟩ | ⟨-, hready, hphase, hmailbox⟩ := hpoised.waits
  · cases hrun.symm.trans hqueued
  · exact ⟨⟨hpoised.alive, hphase, hmailbox, hrun, hpoised.supervised, hpoised.watchers⟩,
      hpoised.running, hpoised.batch, hready, hpoised.timers⟩

theorem Poised.shutdown (hpoised : h.Poised typeName t name task) (hrun : task.run = .receiving) :
    h.shutdown none = (h.dismissing task, .later h.calls.length) := by
  obtain ⟨hrests, hstuck⟩ := hpoised.resting hrun
  have hthere := hpoised.toSingle.there
  have hlive : h.live = [(.text name, 0)] := by
    unfold live
    rw [hpoised.holders]
    simp [hthere, hpoised.alive]
  have hpost := post_resting hstuck hthere hrests .stop
  unfold Host.shutdown
  rw [hlive]
  simp only [List.map_cons, List.map_nil, List.isEmpty_cons, Bool.false_eq_true, if_false,
    List.foldl_cons, List.foldl_nil, hpost]
  simp [addCall, addGuards, enqueue, updateCall, posted, dismissing, hpoised.tasks,
    List.modify_eq_set_getElem?]

/-- The only instance that is told to stop ends, and its supervisor is to learn of it. -/
theorem Poised.dismissed (hpoised : h.Poised typeName t name task) (hrun : task.run = .receiving) :
    ∃ ended past events, ended.run = .ended ∧ ended.inst.name = .text name ∧
      ended.inst.phase = .finished .returned ∧ ended.watchers = [] ∧
      linesOf events = linesOf h.events ∧ Host.step^[6] (h.dismissing task) = { h.dismissing task with
        tasks := [ended]
        timers := []
        batch := [.proceed (h.calls.length + 1)]
        ready := [.exited 0]
        running := none
        past := past
        events := events } := by
  obtain ⟨hrests, hstuck⟩ := hpoised.resting hrun
  let f := h.dismissing task
  -- The host in which the task gets its turn, and the guard is to have the next one.
  let g : Host := { f with batch := [.proceed (h.calls.length + 1)], ready := [] }
  let l : Live := { inst := (task.given .stop).inst, past := h.past }
  have hmachine : l.inst.machine = .ofTable typeName t {} := hpoised.machine
  have hturn : f.step = { g with batch := [.resume 0, .proceed (h.calls.length + 1)] } :=
    step_ready hstuck.running hstuck.batch (hstuck.timers ▸ List.forall_mem_nil _)
  have hruns : Host.step^[2] f = g.moving 0 (task.given .stop) h.past h.events := by
    show f.step.step = _
    rw [hturn]
    exact step_resumes (h := { g with batch := [.resume 0, .proceed (h.calls.length + 1)] })
      hstuck.running rfl rfl rfl
  obtain ⟨l', hpasses, hdone⟩ := Live.passes_stop (l := l) hrests.phase rfl hrests.alive
    (hmachine ▸ defaults_plain typeName t)
  obtain ⟨-, hphase, -⟩ := hdone.outcome.resolve_left fun hstays => nomatch hstays.1
  have hechoes : Echoes g 0 (task.given .stop) l' (Host.step^[3] (Host.step^[2] f)) := by
    refine Echoes.passes ?_ Nat.zero_lt_one hpoised.bus (hmachine ▸ silent_defaults typeName t)
      hpasses
    rw [hruns]
    exact ⟨(task.given .stop).answer, h.events, rfl, rfl, .inl (hrests.isFree .stop)⟩
  obtain ⟨answer, events, hlines, hends⟩ :=
    hechoes.ends Nat.zero_lt_one hphase hpoised.supervised hpoised.watchers
  refine ⟨{ task.given .stop with inst := l'.inst, answer := answer, run := .ended }, l'.past, events,
    rfl, hdone.name.trans hpoised.named, hphase, hpoised.watchers, hlines, ?_⟩
  show (Host.step^[3] (Host.step^[2] f)).step = _
  rw [hends, hpasses.unanswered rfl, ← hstuck.timers]
  rfl

/-- Whoever stops all instances goes on when the only one has ended; and nothing is written. -/
theorem Poised.parted (hpoised : h.Poised typeName t name task) (hrun : task.run = .receiving)
    (hattended : h.Attended) :
    ∃ k ended, await (h.shutdown none) = (k, .ok .nothing) ∧ k.Over ended h.lines := by
  let c := h.calls.length
  let f := h.dismissing task
  obtain ⟨ended, past, events, hended, hname, hphase, hwatchers, hlines, hsix⟩ :=
    hpoised.dismissed hrun
  let g : Host := { f with
    tasks := [ended], timers := [], batch := [.proceed (c + 1)], ready := [.exited 0]
    running := none, past := past, events := events }
  have hjoin : g.calls[c]? = some ⟨none, .join [c + 1] 1, .waiting false⟩ := by
    simp [g, f, dismissing, c]
  have hguard : g.calls[c + 1]? =
      some ⟨some c, .closing 0 h.settings.shutdownTimeout, .queued false⟩ := by
    simp [g, f, dismissing, c]
  obtain ⟨n, hn, calls, hothers, hreturned⟩ := guard_parts (h := g) rfl rfl hended hwatchers
    (hname ▸ hpoised.toSingle.held) (fun _ hfailed => nomatch hphase.symm.trans hfailed) rfl rfl rfl
    hguard
  let returned : Host := { g with
    holders := eraseName g.holders ended.inst.name, calls := calls, timers := [], batch := []
    ready := [.joined c false] }
  have hsteps : Host.step^[n + 6] f = returned :=
    (Function.iterate_add_apply ..).trans ((congrArg Host.step^[n] hsix).trans hreturned)
  have hwaits : returned.calls[c]? = some ⟨none, .join [c + 1] 1, .waiting false⟩ :=
    (hothers c (Nat.succ_ne_self c).symm).trans hjoin
  have hattended' : f.Attended := by
    have hact : h.act (.shutdown none) = f := congrArg Prod.fst (hpoised.shutdown hrun)
    exact hact ▸ (hattended.act (.shutdown none)).1
  have hkept : g.lines = h.lines := by
    rw [lines_eq_linesOf, lines_eq_linesOf]
    exact hlines
  let finished : Host := { returned with
    calls := calls.set c ⟨none, .join [c + 1] 0, .done (.ok .nothing)⟩, ready := [] }
  obtain ⟨hnone, hlast⟩ : (Host.step^[3] returned).result? c = none ∧
      Host.step^[4] returned = finished := join_returns (h := returned) rfl rfl rfl rfl hwaits
  have hresult : finished.result? c = some (.ok .nothing) :=
    result_of_done (List.getElem?_set_self (List.getElem?_eq_some_iff.1 hwaits).1) rfl
  refine ⟨finished, ended, ?_, ⟨rfl, rfl, rfl, rfl⟩, rfl, hended, hkept⟩
  rw [hpoised.shutdown hrun, hattended'.await_later hsteps hnone (hlast ▸ hresult) (by omega)]
  exact congrArg (·, _) hlast

/-! ## Writing -/

/-- What is seen makes no difference to who is attended. -/
theorem Attended.see (h₀ : h.Attended) (e : Event) : (h.see e).Attended where
  steady := ⟨h₀.steady.running, h₀.steady.timers, h₀.steady.exits⟩
  orderly := h₀.orderly
  finished := h₀.finished
  placed := h₀.placed
  office := h₀.office

theorem Poised.write (hpoised : h.Poised typeName t name task) (text : String) :
    (h.write text).Poised typeName t name task where
  machine := hpoised.machine
  named := hpoised.named
  supervised := hpoised.supervised
  watchers := hpoised.watchers
  tasks := hpoised.tasks
  holders := hpoised.holders
  bus := hpoised.bus
  running := hpoised.running
  timers := hpoised.timers
  batch := hpoised.batch
  alive := hpoised.alive
  sends := hpoised.sends
  waits := hpoised.waits

end Host
end Turnstile

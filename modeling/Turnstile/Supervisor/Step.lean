-- What the host does next: it moves the running task on, or takes the next job from the
-- queue. Jobs run in turns; timers that are due join the queue between two turns.
import Turnstile.Supervisor.Host

namespace Turnstile.Host

/-! ## Tasks -/

/-- Notes the answer that the body of a task waits for. -/
def setAnswer (h : Host) (t : Nat) (s : Stimulus) : Host :=
  h.updateTask t fun task => { task with answer := some s }

/-- Lets the running task wait. -/
def block (h : Host) (t : Nat) (run : TaskRun) : Host :=
  { h.updateTask t (fun task => { task with run := run }) with running := none }

/-- Waits for the time that a hook asks for. -/
def pause (h : Host) (t : Nat) : Pause → Host
  | .none => h
  | .forever => h.block t (.paused none)
  | .seconds s =>
    if s.leRat 0 then (h.block t (.queued false)).enqueue (.resume t)
    else
      let serial := h.serials
      { h with serials := serial + 1 }.setTimer s (.wake t serial) |>.block t
        (.paused (some serial))

/-- Notes the call of a hook, which later calls may go by. -/
def noteCall (h : Host) (name : Value) (origin : Origin) (call : HookCall) : Host :=
  { h.see (.hook name origin call) with past := (name, call) :: h.past }

/-- Performs the reaction of a hook. -/
def react {α : Type} (h : Host) (t : Nat) (r : Reaction α) (stimulus : Except Fault α → Stimulus) :
    Host :=
  let h := r.lines.foldl (fun h text => h.see (.line text)) h
  match h.sendAll r.sends with
  | (h, some fault) => h.setAnswer t (stimulus (.error fault))
  | (h, none) => (h.setAnswer t (stimulus r.result)).pause t r.pause

/-- Gives a waiting call its answer. -/
def resolve (h : Host) (c : Nat) (result : Except Fault Answer) : Host :=
  match h.calls[c]? with
  | some ⟨parent, .reply t none, .waiting cancelled⟩ =>
    (h.setCall c ⟨parent, .reply t (some result), .queued cancelled⟩).enqueue (.proceed c)
  | _ => h

/-- Carries out what the body of a task wants done. -/
def perform (h : Host) (t : Nat) (e : Effect) : Host :=
  match h.task? t with
  | none => h
  | some task =>
    let name := task.inst.name
    let hooks := task.inst.machine.hooks
    match e with
    | .log level text => h.see (.logged (some name) level text)
    | .askTransition call =>
      (h.noteCall name hooks.onTransition.origin (.transition call)).react t
        (hooks.onTransition.react h.past call) .decided
    | .askFailure call =>
      (h.noteCall name hooks.onFailure.origin (.failure call)).react t
        (hooks.onFailure.react h.past call) .handled
    | .askTerminate runState =>
      (h.noteCall name hooks.onTerminate.origin (.terminate runState)).react t
        (hooks.onTerminate.react h.past runState) .handled
    | .publish n =>
      match task.outlet with
      | .shared =>
        let (h, result) := h.publish (some name) n
        h.setAnswer t (.published result)
      | .own => (h.see (.published .own n)).setAnswer t (.published (.ok ()))
      | .nowhere => h.setAnswer t (.published (.ok ()))
    | .answer c result => h.resolve c result

/-- Moves the body of a task on, and carries its effects out in order. -/
def feed (h : Host) (t : Nat) (s : Stimulus) : Host :=
  match h.task? t with
  | none => h
  | some task =>
    let (inst, effects) := task.inst.step s
    effects.foldl (fun h e => h.perform t e)
      (h.setTask t { task with inst := inst, answer := none })

/-- Ends a task: its supervisor and all that wait for its end are told in the next turn. -/
def endTask (h : Host) (t : Nat) (task : Task) : Host :=
  let h := { h.setTask t { task with run := .ended, watchers := [] } with running := none }
  let h := if task.supervised then h.enqueue (.exited t) else h
  task.watchers.foldl (fun h c => h.enqueue (.taskEnded c)) h

/-- Moves the running task on by one stimulus, or lets it wait or end. -/
def runTask (h : Host) (t : Nat) : Host :=
  match h.task? t with
  | none => { h with running := none }
  | some task =>
    match task.inst.phase with
    | .finished _ => h.endTask t task
    | .fresh => h.feed t .start
    | .idle => if task.inst.mailbox.isEmpty then h.block t .receiving else h.feed t .receive
    | _ =>
      match task.answer with
      | some s => h.feed t s
      | none => h.block t (.paused none)

/-- Lets a queued task run, or raises the cancellation where it waits. -/
def resume (h : Host) (t : Nat) : Host :=
  match h.task? t with
  | some task =>
    match task.run with
    | .queued cancelled =>
      let h := { h.setTask t { task with run := .active } with running := some t }
      if cancelled then h.feed t task.inst.cancellation else h
    | _ => h
  | none => h

/-- Ends the pause of a hook. -/
def wake (h : Host) (t serial : Nat) : Host :=
  match h.task? t with
  | some task =>
    if task.run = .paused (some serial) then
      (h.setTask t { task with run := .queued false }).enqueue (.resume t)
    else h
  | none => h

/-! ## Supervision -/

/-- The restarts of a name that still count. -/
def recentRestarts (h : Host) (name : Value) : List Rat :=
  ((lookupName h.restarts name).getD []).filter fun time =>
    h.settings.maxSeconds.gtRat (h.clock - time)

/-- Records something about an instance outside of its task. -/
def note (h : Host) (level : LogLevel) (name : Value) (text : String) : Host :=
  h.see (.logged none level (name.plain ++ text))

/-- Decides what follows the crash of an instance. -/
def afterCrash (h : Host) (task : Task) (fault : Fault) : Host :=
  let name := task.inst.name
  match h.settings.restart with
  | .temporary =>
    h.note .error name " crashed, not restarting (policy temporary)"
  | .transient =>
    if (lookupName h.holders name).isSome then h
    else
      let recent := h.recentRestarts name
      let count := recent.length
      if h.settings.maxRestarts.leRat count then
        { h.note .error name (s!" crashed {count + 1} times within " ++
            h.settings.maxSeconds.textToTenth ++ "s, giving up") with
          restarts := setName h.restarts name recent }
      else
        let attempt := count + 1
        let limit := (h.settings.maxRestarts.toRat?.map (·.floor)).getD 0
        let h := { h with restarts := setName h.restarts name (recent ++ [h.clock]) }
        let h := h.note .warning name s!" crashed, restarting ({attempt}/{limit})"
        let (h, _) := h.spawn task.inst.machine name task.inst.initialPayload none
        h.enqueue (.announce name attempt fault)

/-- The supervisor learns of the end of a task: the name is free unless another instance took
it, and a crash may be followed by a restart. -/
def exited (h : Host) (t : Nat) : Host :=
  match h.task? t with
  | none => h
  | some task =>
    let h := if lookupName h.holders task.inst.name = some t then
        { h with holders := eraseName h.holders task.inst.name }
      else h
    match task.inst.phase with
    | .finished (.failed fault) => h.afterCrash task fault
    | _ => h

/-! ## Calls that wait -/

/-- Ends a call; a shutdown that made it is told. -/
def finishCall (h : Host) (c : Nat) (call : Call) (result : Except Fault CallAnswer) : Host :=
  let h := h.setCall c { call with run := .done result }
  match call.parent with
  | some p => h.enqueue (.joined p (match result with | .ok _ => false | .error _ => true))
  | none => h

/-- Takes back what a waiting call set up. -/
def leaveStage (h : Host) (c : Nat) : Stage → Host
  | .exit t | .forced t => h.unwatch t c
  | .window t _ => (h.dropWindow c).unwatch t c
  | .reply .. | .closing .. | .join .. => h

/-- Waits for the end of a task, for some time at most. -/
def openWindow (h : Host) (c : Nat) (call : Call) (t : Nat) (timeout : Number) : Host :=
  let h := h.setCall c { call with stage := .window t timeout, run := .waiting false }
  (h.setTimer timeout (.close c)).watch t c

/-- Goes on with a call whose wait is over. -/
def proceed (h : Host) (c : Nat) : Host :=
  match h.calls[c]? with
  | none => h
  | some call =>
    match call.run with
    | .waiting _ | .done _ => h
    | .queued true => (h.leaveStage c call.stage).finishCall c call (.error .cancellation)
    | .queued false =>
      match call.stage with
      | .reply _ result =>
        h.finishCall c call ((result.getD (.error .cancellation)).map .answer)
      | .exit t => h.finishCall c call (.ok (.exited t))
      | .closing t timeout => h.openWindow c call t timeout
      | .window t timeout =>
        let h := h.leaveStage c call.stage
        if h.hasEnded t then h.finishCall c call (.ok .nothing)
        else
          let name := ((h.task? t).map (·.inst.name)).getD .null
          let h := h.note .warning name (" did not stop within " ++ timeout.textToTenth ++
            "s, cancelling")
          let (h, _) := h.cancelTask t
          (h.setCall c { call with stage := .forced t, run := .waiting false }).watch t c
      | .forced _ | .join .. => h.finishCall c call (.ok .nothing)

/-- Queues a call whose wait is over. -/
def release (h : Host) (c : Nat) : Host :=
  match h.calls[c]? with
  | some call =>
    match call.run with
    | .waiting cancelled =>
      (h.setCall c { call with run := .queued cancelled }).enqueue (.proceed c)
    | _ => h
  | none => h

/-- A shutdown learns of the end of one of the calls that it made. -/
def joined (h : Host) (p : Nat) (cancelled : Bool) : Host :=
  match h.calls[p]? with
  | some call =>
    match call.stage, call.run with
    | .join children left, .waiting requested =>
      let call := { call with
        stage := .join children (left - 1), run := .waiting (requested || cancelled) }
      let h := h.setCall p call
      if cancelled || left ≤ 1 then h.release p else h
    | _, _ => h
  | none => h

/-! ## The step -/

/-- Runs a job. -/
def runJob (h : Host) : Job → Host
  | .resume t => h.resume t
  | .exited t => h.exited t
  | .taskEnded c => h.release c
  | .proceed c => h.proceed c
  | .joined p cancelled => h.joined p cancelled
  | .wake t serial => h.wake t serial
  | .close c => h.release c
  | .announce name attempt fault => (h.publish none (.restarted name attempt fault)).1

/-- Whether a timer is due. -/
def isDue (h : Host) (timer : Timer) : Bool :=
  match timer.due with
  | some time => time ≤ h.clock
  | none => false

/-- Begins the next turn: all queued jobs, then the timers that are due. -/
def beginTurn (h : Host) : Host :=
  { h with
    batch := h.ready ++ (h.timers.filter h.isDue).map (·.job)
    ready := []
    timers := h.timers.filter fun timer => !h.isDue timer }

/-- Does one thing. -/
def step (h : Host) : Host :=
  match h.running with
  | some t => h.runTask t
  | none =>
    match h.batch with
    | j :: rest => { h with batch := rest }.runJob j
    | [] => h.beginTurn

/-- Whether there is nothing to do until the clock moves or someone calls. -/
def isIdle (h : Host) : Bool :=
  h.running.isNone && h.batch.isEmpty && h.ready.isEmpty && !h.timers.any h.isDue

/-- Goes on until there is nothing to do, for a bounded number of steps. -/
def settle (fuel : Nat) (h : Host) : Host :=
  match fuel with
  | 0 => h
  | fuel + 1 => if h.isIdle then h else settle fuel h.step

/-- The result of a call, once it has one. -/
def result? (h : Host) (c : Nat) : Option (Except Fault CallAnswer) :=
  match h.calls[c]? with
  | some ⟨_, _, .done result⟩ => some result
  | _ => none

/-- Goes on until a call has its result. -/
def settleCall (fuel : Nat) (c : Nat) (h : Host) : Host :=
  match fuel with
  | 0 => h
  | fuel + 1 => if (h.result? c).isSome || h.isIdle then h else settleCall fuel c h.step

/-- Moves the clock to a time, from one timer to the next, and lets everything run at each. -/
def advanceTo (fuel : Nat) (target : Rat) (h : Host) : Host :=
  let h := settle 1000000 h
  match fuel with
  | 0 => { h with clock := target }
  | fuel + 1 =>
    match h.timers.head? with
    | some ⟨some due, _⟩ =>
      if due ≤ target then advanceTo fuel target { h with clock := due }
      else { h with clock := target }
    | _ => { h with clock := target }

end Turnstile.Host

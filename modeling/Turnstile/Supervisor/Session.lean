-- Sessions: a list of calls made of one host, and what each of them returns, what it lets
-- happen, and which earlier calls it brings to an end.
import Turnstile.Supervisor.Calls

namespace Turnstile

/-- What can be told about the instance of a task. -/
structure TaskInfo where
  number : Option Nat
  alive : Bool
  stopReason : Option StopReason
  runState : RunState
  task : String
  crash : Option Fault
  deriving Repr, Inhabited

def Task.info (task : Task) : TaskInfo where
  number := task.number
  alive := task.inst.alive
  stopReason := task.inst.stopReason
  runState := task.inst.runState
  crash := task.inst.crash
  task := match task.run, task.inst.phase with
    | .absent, _ => "none"
    | .ended, .finished .returned => "done"
    | .ended, .finished .cancelled => "cancelled"
    | .ended, .finished (.failed _) => "failed"
    | _, _ => "pending"

/-- A call upon one instance that was handed out before. -/
inductive InstanceCall where
  | start
  | send (event payload : Value)
  | query (kind : String) (argument : Value)
  | requestStop
  | cancel
  | info
  deriving Repr, Inhabited

/-- A step of a session. -/
inductive SessionStep where
  | start (choice : MachineChoice) (name payload : Value)
  | send (name event payload : Value)
  | query (name : Value) (kind : String) (argument : Value)
  | stop (name : Value) (timeout : Option Number)
  | shutdown (timeout : Option Number)
  | wait (name : Value)
  | isAlive (name : Value)
  | names
  | get (name : Value)
  | advance (seconds : Rat)
  | settle
  | cancelCall (step : Nat)
  | create (choice : MachineChoice) (name payload : Value) (outlet : Outlet)
  | upon (number : Nat) (call : InstanceCall)

/-- What a step returns. -/
inductive SessionAnswer where
  | nothing
  | started (number : Nat) (state : String)
  | answer (a : Answer)
  | flag (b : Bool)
  | names (names : List Value)
  | info (info : Option TaskInfo)
  | stillWaiting (b : Bool)
  deriving Repr, Inhabited

/-- What a step led to: its result unless it waits, the steps that ended with it, and what
could be seen. -/
structure SessionReport where
  result : Option (Except Fault SessionAnswer)
  ended : List (Nat × Except Fault SessionAnswer)
  events : List Event

/-- A session in progress: the host, and the numbers of the steps that wait with those of
their calls. -/
structure Session where
  host : Host
  waiting : List (Nat × Nat) := []

namespace Session

/-- The task of an instance that was handed out under a number. -/
def taskOf (h : Host) (number : Nat) : Nat :=
  h.tasks.findIdx fun task => task.number = some number

/-- The number and the first state of an instance that was just made. -/
def startedAnswer (h : Host) (t : Nat) : SessionAnswer :=
  match h.task? t with
  | some task => .started (task.number.getD 0) task.inst.runState.current
  | none => .nothing

def infoAnswer (h : Host) (t : Option Nat) : SessionAnswer :=
  .info ((t.bind h.task?).map (·.info))

/-- The answer of a step whose call returned. -/
def answerOf (h : Host) : CallAnswer → SessionAnswer
  | .nothing => .nothing
  | .answer a => .answer a
  | .exited t => infoAnswer h (some t)

/-- Makes a call upon one instance. -/
def callInstance (h : Host) (t : Nat) : InstanceCall →
    Host × Except Nat (Except Fault SessionAnswer)
  | .start => (h.startTask t, .ok (.ok (.flag true)))
  | .send event payload =>
    match h.post t (.transition event payload) with
    | .ok h => (h, .ok (.ok .nothing))
    | .error fault => (h, .ok (.error fault))
  | .query kind argument =>
    match Question.ofKind kind argument with
    | .error fault => (h, .ok (.error fault))
    | .ok question =>
      match h.ask t question with
      | (h, .now result) => (h, .ok (result.map (answerOf h)))
      | (h, .later c) => (h, .error c)
  | .requestStop =>
    match h.post t .stop with
    | .ok h => (h, .ok (.ok .nothing))
    | .error fault => (h, .ok (.error fault))
  | .cancel =>
    let (h, b) := h.cancelTask t
    (h, .ok (.ok (.flag b)))
  | .info => (h, .ok (.ok (infoAnswer h (some t))))

/-- What a call that may wait returned: a result, or the number of the call. -/
def ofReturned (r : Host × Returned) : Host × Except Nat (Except Fault SessionAnswer) :=
  match r with
  | (h, .now result) => (h, .ok (result.map (answerOf h)))
  | (h, .later c) => (h, .error c)

/-- Makes the call of a step. -/
def call (s : Session) (step : SessionStep) : Host × Except Nat (Except Fault SessionAnswer) :=
  let h := s.host
  match step with
  | .start choice name payload =>
    let (h, result) := h.start choice name payload
    (h, .ok (result.map (startedAnswer h)))
  | .send name event payload =>
    match h.send ⟨name, event, payload⟩ with
    | .ok h => (h, .ok (.ok .nothing))
    | .error fault => (h, .ok (.error fault))
  | .query name kind argument => ofReturned (h.query name kind argument)
  | .stop name timeout => ofReturned (h.stop name timeout)
  | .shutdown timeout => ofReturned (h.shutdown timeout)
  | .wait name => ofReturned (h.wait name)
  | .isAlive name => (h, .ok ((h.isAlive name).map .flag))
  | .names => (h, .ok (.ok (.names h.names)))
  | .get name => (h, .ok ((h.get name).map (infoAnswer h)))
  | .advance seconds => (h.advance seconds, .ok (.ok .nothing))
  | .settle => (h, .ok (.ok .nothing))
  | .cancelCall step =>
    match s.waiting.lookup step with
    | some c =>
      let (h, b) := h.cancelCall c
      (h, .ok (.ok (.stillWaiting b)))
    | none => (h, .ok (.ok (.stillWaiting false)))
  | .create choice name payload outlet =>
    let (h, result) := h.create choice name payload outlet
    (h, .ok (result.map (startedAnswer h)))
  | .upon number call => callInstance h (taskOf h number) call

/-- Takes a step: makes its call, and unless it is held lets everything run. -/
def step (s : Session) (n : Nat) (hold : Bool) (step : SessionStep) : Session × SessionReport :=
  let seen := s.host.events.length
  let (h, returned) := s.call step
  let h := if hold then h else h.settled
  let waiting := match returned with
    | .ok _ => s.waiting
    | .error c => s.waiting ++ [(n, c)]
  let finished := waiting.filterMap fun (m, c) =>
    (h.result? c).map fun result => (m, result.map (answerOf h))
  let result := match returned with
    | .ok result => some result
    | .error _ => finished.lookup n
  (⟨h, waiting.filter fun (_, c) => (h.result? c).isNone⟩,
    ⟨result, finished.filter fun (m, _) => m ≠ n, h.events.drop seen⟩)

/-- Takes all steps in turn. -/
def run (s : Session) (n : Nat) : List (SessionStep × Bool) → List SessionReport
  | [] => []
  | (step, hold) :: rest =>
    let (s, report) := s.step n hold step
    report :: run s (n + 1) rest

end Session
end Turnstile

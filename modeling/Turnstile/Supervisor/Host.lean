-- The host of all instances: their tasks, who holds which name, the calls that wait for
-- something, the timers, and the queue of what runs next.
import Turnstile.Bus.Basic
import Turnstile.Instance.Step
import Turnstile.Supervisor.Settings

namespace Turnstile

/-- What the task of an instance does. -/
inductive TaskRun where
  | absent
  | queued (cancelled : Bool)
  | active
  | receiving
  | paused (serial : Option Nat)
  | ended
  deriving DecidableEq, Repr, Inhabited

/-- Where an instance publishes: nowhere, on the bus of the host, or on a bus of its own. -/
inductive Outlet where
  | nowhere
  | shared
  | own
  deriving DecidableEq, Repr, Inhabited

/-- An instance with its task. -/
structure Task where
  inst : Instance
  /-- The number under which the instance was handed out, if it was. -/
  number : Option Nat
  /-- Whether the supervisor is told of the end of the task. -/
  supervised : Bool
  outlet : Outlet
  run : TaskRun := .absent
  /-- The answer that the body waits for, once it is known. -/
  answer : Option Stimulus := none
  /-- The calls that wait for the end of the task, in order. -/
  watchers : List Nat := []

/-- Where a call stands that could not return at once. -/
inductive Stage where
  | reply (task : Nat) (result : Option (Except Fault Answer))
  | exit (task : Nat)
  | closing (task : Nat) (timeout : Number)
  | window (task : Nat) (timeout : Number)
  | forced (task : Nat)
  | join (children : List Nat) (left : Nat)

/-- What a call returns. -/
inductive CallAnswer where
  | nothing
  | answer (a : Answer)
  | exited (task : Nat)
  deriving Inhabited

inductive CallRun where
  | waiting (cancelled : Bool)
  | queued (cancelled : Bool)
  | done (result : Except Fault CallAnswer)

/-- A call that waits. The calls that a shutdown makes for each instance have it as parent. -/
structure Call where
  parent : Option Nat
  stage : Stage
  run : CallRun

/-- An entry of the queue. -/
inductive Job where
  | resume (task : Nat)
  | exited (task : Nat)
  | taskEnded (call : Nat)
  | proceed (call : Nat)
  | joined (parent : Nat) (cancelled : Bool)
  | wake (task serial : Nat)
  | close (call : Nat)
  | announce (name : Value) (attempt : Nat) (error : Fault)
  deriving Repr, Inhabited

/-- A timer; one without a due time never fires. -/
structure Timer where
  due : Option Rat
  job : Job
  deriving Repr, Inhabited

/-- What can be seen from outside. A record of the log has the name of the instance in whose
task it was made. -/
inductive Event where
  | hook (name : Value) (origin : Origin) (call : HookCall)
  | published (outlet : Outlet) (n : Notification)
  | logged (scope : Option Value) (level : LogLevel) (text : String)
  | line (text : String)
  deriving Repr, Inhabited

/-- A subscriber that only watches: it may refuse a notification, write lines, and raise. -/
structure Observer where
  accepts : Notification → Except Fault Bool
  lines : Notification → List String
  result : Notification → Except Fault Unit

structure Host where
  settings : Settings
  registry : Registry
  bus : Bus Observer := {}
  clock : Rat := 0
  tasks : List Task := []
  /-- The task that holds each name, in the order in which the names were taken. -/
  holders : List (Value × Nat) := []
  /-- The times of the restarts of each name that may still count. -/
  restarts : List (Value × List Rat) := []
  calls : List Call := []
  timers : List Timer := []
  /-- The queue of this turn, and the one of the next turn. -/
  batch : List Job := []
  ready : List Job := []
  /-- The task that runs, until it waits. -/
  running : Option Nat := none
  numbers : Nat := 0
  serials : Nat := 0
  past : HookPast := []
  events : List Event := []

/-! ## Lists with values as keys -/

/-- The entry of a name, equal names being the same. -/
def lookupName {α : Type} (entries : List (Value × α)) (name : Value) : Option α :=
  (entries.find? fun (key, _) => key.same name).map (·.2)

/-- Sets the entry of a name; a name that is there keeps its place. -/
def setName {α : Type} (entries : List (Value × α)) (name : Value) (x : α) :
    List (Value × α) :=
  match entries with
  | [] => [(name, x)]
  | (key, y) :: rest =>
    if key.same name then (key, x) :: rest else (key, y) :: setName rest name x

def eraseName {α : Type} (entries : List (Value × α)) (name : Value) : List (Value × α) :=
  entries.filter fun (key, _) => !key.same name

namespace Host

/-! ## Parts -/

def task? (h : Host) (t : Nat) : Option Task := h.tasks[t]?

def setTask (h : Host) (t : Nat) (task : Task) : Host := { h with tasks := h.tasks.set t task }

/-- Changes the task of a number. -/
def updateTask (h : Host) (t : Nat) (f : Task → Task) : Host :=
  { h with tasks := h.tasks.modify t f }

def updateCall (h : Host) (c : Nat) (f : Call → Call) : Host :=
  { h with calls := h.calls.modify c f }

def setCall (h : Host) (c : Nat) (call : Call) : Host := { h with calls := h.calls.set c call }

/-- Puts a job into the queue of the next turn. -/
def enqueue (h : Host) (j : Job) : Host := { h with ready := h.ready ++ [j] }

def see (h : Host) (e : Event) : Host := { h with events := h.events ++ [e] }

/-- The instance that holds a name. -/
def holder? (h : Host) (name : Value) : Option (Nat × Task) := do
  let t ← lookupName h.holders name
  let task ← h.task? t
  return (t, task)

/-- Whether the task of a number has ended. -/
def hasEnded (h : Host) (t : Nat) : Bool :=
  match h.task? t with
  | some task => task.run = .ended
  | none => true

/-! ## Timers -/

/-- Whether a timer goes off no later than another one. -/
def Timer.le (a b : Timer) : Bool :=
  match a.due, b.due with
  | some x, some y => x ≤ y
  | _, none => true
  | none, some _ => false

/-- Puts a timer behind those that go off no later. -/
def insertTimer (timer : Timer) : List Timer → List Timer
  | [] => [timer]
  | other :: rest =>
    if Timer.le other timer then other :: insertTimer timer rest else timer :: other :: rest

/-- The time of a timer that is set now. An infinite delay is never over, and one that is no
number is over at once. -/
def dueAfter (h : Host) (delay : Number) : Option Rat :=
  match delay with
  | .real (.infinite false) => none
  | delay => some (h.clock + delay.toRat?.getD 0)

def setTimer (h : Host) (delay : Number) (job : Job) : Host :=
  { h with timers := insertTimer ⟨h.dueAfter delay, job⟩ h.timers }

/-- Takes the timer away that closes the window of a call. -/
def dropWindow (h : Host) (c : Nat) : Host :=
  { h with timers := h.timers.filter fun timer => match timer.job with
      | .close d => d ≠ c
      | _ => true }

/-! ## Messages -/

/-- Puts a request into the mailbox of a task; a task that waits for one is queued. -/
def post (h : Host) (t : Nat) (r : Request) : Except Fault Host :=
  match h.task? t with
  | none => .error (Instance.missing .null)
  | some task =>
    match task.inst.post r with
    | .error fault => .error fault
    | .ok inst =>
      if task.run = .receiving then
        .ok ((h.setTask t { task with inst := inst, run := .queued false }).enqueue (.resume t))
      else .ok (h.setTask t { task with inst := inst })

/-- The task of the live instance that holds a name. -/
def lookup (h : Host) (name : Value) : Except Fault Nat :=
  if !name.isKey then .error (.notKey name)
  else match h.holder? name with
  | some (t, task) => if task.inst.alive then .ok t else .error (Instance.missing name)
  | none => .error (Instance.missing name)

/-- Sends a request for a transition to the holder of a name. -/
def send (h : Host) (s : Send) : Except Fault Host := do
  h.post (← h.lookup s.name) (.transition s.event s.payload)

/-- Sends several requests in turn, up to the first that nobody takes. -/
def sendAll (h : Host) : List Send → Host × Option Fault
  | [] => (h, none)
  | s :: rest =>
    match h.send s with
    | .ok h => h.sendAll rest
    | .error fault => (h, some fault)

/-- Cancels a task where it waits; says whether it was still going on. -/
def cancelTask (h : Host) (t : Nat) : Host × Bool :=
  match h.task? t with
  | none => (h, false)
  | some task =>
    match task.run with
    | .absent | .ended => (h, false)
    | .queued _ => (h.setTask t { task with run := .queued true }, true)
    | .active => (h, true)
    | .receiving | .paused _ =>
      ((h.setTask t { task with run := .queued true }).enqueue (.resume t), true)

/-- Has a call told of the end of a task. -/
def watch (h : Host) (t c : Nat) : Host :=
  if h.hasEnded t then h.enqueue (.taskEnded c)
  else h.updateTask t fun task => { task with watchers := task.watchers ++ [c] }

def unwatch (h : Host) (t c : Nat) : Host :=
  h.updateTask t fun task => { task with watchers := task.watchers.filter (· ≠ c) }

/-! ## Notifications -/

/-- Delivers a notification to one subscriber. Its faults end in the log. -/
def deliver (h : Host) (scope : Option Value) (n : Notification) (o : Observer) :
    Host × Option Fault :=
  let contain (h : Host) (fault : Fault) : Host × Option Fault :=
    if fault.isCancellation then (h, some fault)
    else (h.see (.logged scope .error
      ("Error handling " ++ n.topic ++ ": " ++ fault.message)), none)
  match o.accepts n with
  | .error fault => contain h fault
  | .ok false => (h, none)
  | .ok true =>
    let h := (o.lines n).foldl (fun h text => h.see (.line text)) h
    match o.result n with
    | .ok _ => (h, none)
    | .error fault => contain h fault

/-- Publishes a notification to the subscribers of its topic. -/
def publish (h : Host) (scope : Option Value) (n : Notification) : Host × Except Fault Unit :=
  let (h, stop) := (h.bus.inOrder n.topic).foldl
    (fun (h, stop) s => if stop.isSome then (h, stop) else h.deliver scope n s.handler)
    (h.see (.published .shared n), none)
  match stop with
  | none => (h, .ok ())
  | some fault => (h, .error fault)

/-! ## Instances -/

/-- Adds a task; gives its number. -/
def addTask (h : Host) (task : Task) : Host × Nat :=
  ({ h with tasks := h.tasks ++ [task] }, h.tasks.length)

/-- Starts an instance under supervision, and lets it hold its name. -/
def spawn (h : Host) (machine : Machine) (name payload : Value) (number : Option Nat) :
    Host × Nat :=
  let (h, t) := h.addTask {
    inst := .create machine name payload
    number := number
    supervised := true
    outlet := .shared
    run := .queued false }
  ({ h with holders := setName h.holders name t }.enqueue (.resume t), t)

/-- Hands out the next number of an instance. -/
def nextNumber (h : Host) : Host × Nat := ({ h with numbers := h.numbers + 1 }, h.numbers)

end Host
end Turnstile

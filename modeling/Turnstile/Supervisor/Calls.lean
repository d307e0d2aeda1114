-- What callers may ask of the host. Most calls return at once; those that wait are noted and
-- get their result later.
import Turnstile.Supervisor.Step

namespace Turnstile

/-- The machine that a caller wants an instance of. -/
inductive MachineChoice where
  | named (name : String)
  | given (machine : Machine)
  | other (v : Value)

/-- What a call gives at once: its result, or its number. -/
inductive Returned where
  | now (result : Except Fault CallAnswer)
  | later (call : Nat)

namespace Question

/-- The question of a kind. -/
def ofKind (kind : String) (argument : Value) : Except Fault Question :=
  match kind with
  | "state" => .ok .state
  | "allowed" => .ok (.allowed argument)
  | "responds" => .ok (.responds argument)
  | _ => .error (.plain .value "query kind must be one of state, allowed, responds")

end Question

namespace Host

/-- Runs until there is nothing to do. -/
def settled (h : Host) : Host := h.settle 1000000

/-- Lets time pass. -/
def advance (h : Host) (seconds : Rat) : Host :=
  (h.advanceTo 100000 (h.clock + seconds)).settled

/-- Notes a call that waits. -/
def addCall (h : Host) (call : Call) : Host × Nat :=
  ({ h with calls := h.calls ++ [call] }, h.calls.length)

/-! ## Starting -/

/-- The machine of a choice. -/
def choose (h : Host) : MachineChoice → Except Fault (Except Value Machine)
  | .named name =>
    match h.registry.get name with
    | .ok m => .ok (.ok m)
    | .error fault => .error (.reported fault.report)
  | .given m => .ok (.ok m)
  | .other v => .ok (.error v)

/-- Starts an instance under a name that no live instance holds. From then on the name has no
restarts behind it. -/
def start (h : Host) (choice : MachineChoice) (name payload : Value) :
    Host × Except Fault Nat :=
  match h.choose choice with
  | .error fault => (h, .error fault)
  | .ok machine =>
    if !name.isKey then (h, .error (.notKey name))
    else
      let taken := match h.holder? name with
        | some (_, task) => if task.inst.alive then some task.inst.machine.name else none
        | none => none
      match taken with
      | some running => (h, .error (.reported (LookupFault.nameTaken name running).report))
      | none =>
        let h := { h with restarts := setName h.restarts name [] }
        match machine with
        | .error v =>
          (h, .error (.plain .attribute s!"'{v.typeName}' object has no attribute 'table'"))
        | .ok m =>
          let (h, number) := h.nextNumber
          let (h, t) := h.spawn m name payload (some number)
          (h, .ok t)

/-- Makes an instance that nobody supervises and that is not started. -/
def create (h : Host) (choice : MachineChoice) (name payload : Value) (outlet : Outlet) :
    Host × Except Fault Nat :=
  match h.choose choice with
  | .error fault => (h, .error fault)
  | .ok (.error v) =>
    (h, .error (.plain .attribute s!"'{v.typeName}' object has no attribute 'table'"))
  | .ok (.ok m) =>
    let (h, number) := h.nextNumber
    let (h, t) := h.addTask {
      inst := .create m name payload
      number := some number
      supervised := false
      outlet := outlet }
    (h, .ok t)

/-- Starts the task of an instance, unless it was started. -/
def startTask (h : Host) (t : Nat) : Host :=
  match h.task? t with
  | some task =>
    if task.run = .absent then
      (h.setTask t { task with run := .queued false }).enqueue (.resume t)
    else h
  | none => h

/-! ## Asking -/

/-- Asks the instance of a task. -/
def ask (h : Host) (t : Nat) (question : Question) : Host × Returned :=
  let (h, c) := h.addCall ⟨none, .reply t none, .waiting false⟩
  match h.post t (.query c question false) with
  | .ok h => (h, .later c)
  | .error fault =>
    (h.setCall c ⟨none, .reply t none, .done (.error fault)⟩, .now (.error fault))

/-- Asks the holder of a name. -/
def query (h : Host) (name : Value) (kind : String) (argument : Value) : Host × Returned :=
  match h.lookup name with
  | .error fault => (h, .now (.error fault))
  | .ok t =>
    match Question.ofKind kind argument with
    | .error fault => (h, .now (.error fault))
    | .ok question => h.ask t question

/-- Waits for the end of a task. -/
def waitTask (h : Host) (t : Nat) : Host × Returned :=
  let (h, c) := h.addCall ⟨none, .exit t, .waiting false⟩
  (h.watch t c, .later c)

/-- Waits for the end of the task that holds a name. -/
def wait (h : Host) (name : Value) : Host × Returned :=
  if !name.isKey then (h, .now (.error (.notKey name)))
  else match h.holder? name with
  | none => (h, .now (.error (Instance.missing name)))
  | some (t, _) => h.waitTask t

/-- Whether a live instance holds a name. -/
def isAlive (h : Host) (name : Value) : Except Fault Bool :=
  if !name.isKey then .error (.notKey name)
  else match h.holder? name with
  | some (_, task) => .ok task.inst.alive
  | none => .ok false

/-- The task that holds a name. -/
def get (h : Host) (name : Value) : Except Fault (Option Nat) :=
  if !name.isKey then .error (.notKey name) else .ok (lookupName h.holders name)

/-- The holders whose instances are alive. -/
def live (h : Host) : List (Value × Nat) :=
  h.holders.filter fun (_, t) => match h.task? t with
    | some task => task.inst.alive
    | none => false

/-- The names of the live instances. -/
def names (h : Host) : List Value := h.live.map (·.1)

/-! ## Stopping -/

/-- Stops the holder of a name: the request queues behind all earlier ones, and when the
window is over the task is cancelled. -/
def stop (h : Host) (name : Value) (timeout : Option Number) : Host × Returned :=
  match h.lookup name with
  | .error fault => (h, .now (.error fault))
  | .ok t =>
    match h.post t .stop with
    | .error fault => (h, .now (.error fault))
    | .ok h =>
      let call : Call := ⟨none, .closing t (timeout.getD h.settings.shutdownTimeout),
        .waiting false⟩
      let (h, c) := h.addCall call
      (h.openWindow c call t (timeout.getD h.settings.shutdownTimeout), .later c)

/-- Adds the calls of a shutdown that wait for one task each. -/
def addGuards (h : Host) (parent : Nat) (timeout : Number) : List Nat → Host × List Nat
  | [] => (h, [])
  | t :: rest =>
    let (h, c) := h.addCall ⟨some parent, .closing t timeout, .queued false⟩
    let (h, cs) := (h.enqueue (.proceed c)).addGuards parent timeout rest
    (h, c :: cs)

/-- Stops all live instances. -/
def shutdown (h : Host) (timeout : Option Number) : Host × Returned :=
  let tasks := h.live.map (·.2)
  if tasks.isEmpty then (h, .now (.ok .nothing))
  else
    let h := tasks.foldl (fun h t => match h.post t .stop with
      | .ok h => h
      | .error _ => h) h
    let (h, c) := h.addCall ⟨none, .join [] tasks.length, .waiting false⟩
    let (h, children) := h.addGuards c (timeout.getD h.settings.shutdownTimeout) tasks
    (h.updateCall c fun call => { call with stage := .join children tasks.length }, .later c)

/-! ## Calling off -/

/-- Calls a waiting call off that made no calls itself; says whether it still waited. -/
def cancelPlain (h : Host) (c : Nat) (call : Call) : Host × Bool :=
  match call.run with
  | .done _ => (h, false)
  | .queued _ => (h.setCall c { call with run := .queued true }, true)
  | .waiting _ =>
    let h := match call.stage with
      | .reply t _ => h.updateTask t fun task => { task with inst := task.inst.abandon c }
      | _ => h
    ((h.setCall c { call with run := .queued true }).enqueue (.proceed c), true)

/-- Calls a waiting call off; says whether it still waited. A shutdown calls off the calls
that it made, and ends with them. -/
def cancelCall (h : Host) (c : Nat) : Host × Bool :=
  match h.calls[c]? with
  | none => (h, false)
  | some call =>
    match call.stage, call.run with
    | .join children _, .waiting _ =>
      let (h, any) := children.foldl (fun (h, any) d =>
        match h.calls[d]? with
        | some child =>
          let (h, b) := h.cancelPlain d child
          (h, any || b)
        | none => (h, any)) (h, false)
      if any then (h, true)
      else (h.updateCall c fun call => { call with run := .waiting true }, true)
    | _, _ => h.cancelPlain c call

end Host
end Turnstile

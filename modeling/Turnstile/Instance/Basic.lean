-- An instance of a machine: its run state, its mailbox, and how far the body of its task
-- has got. The body hands out everything else as effects.
import Turnstile.Hooks.Basic

namespace Turnstile

/-- What an instance may be asked. -/
inductive Question where
  | state
  | allowed (target : Value)
  | responds (event : Value)
  deriving Repr, Inhabited

def Question.kind : Question → String
  | .state => "state"
  | .allowed _ => "allowed"
  | .responds _ => "responds"

inductive Answer where
  | state (runState : RunState)
  | flag (b : Bool)
  deriving Repr, Inhabited

/-- A message in a mailbox. A query goes by the number of the call that waits for it; it is
abandoned when that call no longer waits. -/
inductive Request where
  | transition (event payload : Value)
  | query (call : Nat) (question : Question) (abandoned : Bool)
  | stop
  deriving Repr, Inhabited

/-- How the task of an instance ended. -/
inductive Ending where
  | returned
  | failed (fault : Fault)
  | cancelled
  deriving Repr, Inhabited

/-- Where the body of an instance's task stands: before its first step, at the mailbox, in a
hook, in the delivery of a notification, or at its end. -/
inductive Phase where
  | fresh
  | idle
  | deciding (event payload : Value)
  | reporting (event payload : Value) (rejection : Rejection)
  | publishing
  | terminating (ending : Ending)
  | announcing (ending : Ending)
  | finished (ending : Ending)
  deriving Repr, Inhabited

structure Instance where
  machine : Machine
  name : Value
  initialPayload : Value
  runState : RunState
  alive : Bool := true
  stopReason : Option StopReason := none
  crash : Option Fault := none
  mailbox : List Request := []
  phase : Phase := .fresh

/-- How much a record of the log matters. -/
inductive LogLevel where
  | debug
  | info
  | warning
  | error
  | exception
  deriving DecidableEq, Repr, Inhabited

def LogLevel.text : LogLevel → String
  | .debug => "debug"
  | .info => "info"
  | .warning => "warning"
  | .error => "error"
  | .exception => "exception"

/-- What the body of an instance's task wants done. A call of a hook and a notification are
answered by a stimulus; the other effects need no answer. -/
inductive Effect where
  | log (level : LogLevel) (text : String)
  | askTransition (call : TransitionCall)
  | askFailure (call : FailureCall)
  | askTerminate (runState : RunState)
  | publish (n : Notification)
  | answer (call : Nat) (result : Except Fault Answer)

/-- What moves the body on: its first step, the mailbox, the answer of a hook, the end of a
delivery, or a cancellation where it waits. -/
inductive Stimulus where
  | start
  | receive
  | decided (result : Except Fault Outcome)
  | handled (result : Except Fault Unit)
  | published (result : Except Fault Unit)
  | cancel

namespace Instance

/-- A new instance of a machine. -/
def create (machine : Machine) (name payload : Value) : Instance where
  machine := machine
  name := name
  initialPayload := payload
  runState := ⟨machine.table.initial, payload, []⟩

/-- The fault of whoever addresses an instance that is not there. -/
def missing (name : Value) : Fault := .reported (LookupFault.noInstance name).report

/-- Puts a request at the end of the mailbox; an instance that stopped takes none. -/
def post (i : Instance) (r : Request) : Except Fault Instance :=
  if i.alive then .ok { i with mailbox := i.mailbox ++ [r] } else .error (missing i.name)

/-- Marks the query of a call as abandoned. -/
def abandon (i : Instance) (call : Nat) : Instance :=
  { i with mailbox := i.mailbox.map fun
      | .query c question abandoned => .query c question (abandoned || c == call)
      | r => r }

/-- Marks an instance as stopped. The first reason stays. -/
def markStopped (i : Instance) (reason : StopReason) : Instance :=
  if i.alive then { i with alive := false, stopReason := some reason } else i

/-- An instance's own record in the log. -/
def record (i : Instance) (level : LogLevel) (text : String) : Effect :=
  .log level (i.name.plain ++ text)

end Instance
end Turnstile

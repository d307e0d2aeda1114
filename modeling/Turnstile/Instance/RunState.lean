-- The run state of an instance, why it stopped, and what it tells the bus about itself.
import Turnstile.Fault.Basic

namespace Turnstile

/-- Where an instance stands: its state, its payload, and the states that it left, the last
one first. -/
structure RunState where
  current : String
  payload : Value
  history : List String
  deriving Repr, Inhabited

/-- Moves a run state on; the state that is left goes to the front of the history. -/
def RunState.move (rs : RunState) (state : String) (payload : Value) : RunState :=
  ⟨state, payload, rs.current :: rs.history⟩

/-- The first cause that stopped an instance. -/
inductive StopReason where
  | terminal
  | stop
  | crash
  | killed
  deriving DecidableEq, Repr, Inhabited

def StopReason.text : StopReason → String
  | .terminal => "terminal"
  | .stop => "stop"
  | .crash => "crash"
  | .killed => "killed"

/-- What is published about an instance. -/
inductive Notification where
  | started (name : Value) (machine : String) (state : String)
  | transitioned (name event : Value) (source target : String)
  | rejected (name event : Value) (state : String) (error : Rejection)
  | terminated (name : Value) (reason : Option StopReason) (runState : RunState)
  | restarted (name : Value) (attempt : Nat) (error : Fault)
  deriving Repr, Inhabited

namespace Notification

def topic : Notification → String
  | .started .. => "fsm.started"
  | .transitioned .. => "fsm.transitioned"
  | .rejected .. => "fsm.rejected"
  | .terminated .. => "fsm.terminated"
  | .restarted .. => "fsm.restarted"

/-- The name of the instance that a notification is about. -/
def name : Notification → Value
  | .started name .. | .transitioned name .. | .rejected name .. | .terminated name ..
  | .restarted name .. => name

end Notification
end Turnstile

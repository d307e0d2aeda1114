-- Faults: all that a hook, an observer or an operation may raise. A few kinds matter to
-- the runtime: exhaustion takes an instance down, and a cancellation ends its task.
import Turnstile.Fault.Report

namespace Turnstile

inductive FaultKind where
  | runtime
  | value
  | key
  | index
  | type
  | attribute
  | overflow
  | exhausted
  | cancelled
  | importing
  | missingFile
  | isDirectory
  | notDirectory
  | system
  | undecodable
  | malformedYaml
  deriving DecidableEq, Repr, Inhabited

/-- The name that a kind of fault goes by in texts. -/
def FaultKind.label : FaultKind → String
  | .runtime => "RuntimeError"
  | .value => "ValueError"
  | .key => "KeyError"
  | .index => "IndexError"
  | .type => "TypeError"
  | .attribute => "AttributeError"
  | .overflow => "OverflowError"
  | .exhausted => "MemoryError"
  | .cancelled => "CancelledError"
  | .importing => "ImportError"
  | .missingFile => "FileNotFoundError"
  | .isDirectory => "IsADirectoryError"
  | .notDirectory => "NotADirectoryError"
  | .system => "OSError"
  | .undecodable => "UnicodeDecodeError"
  | .malformedYaml => "YAMLError"

/-- A fault with its arguments, or a report that is passed on as a fault. -/
inductive Fault where
  | raised (kind : FaultKind) (args : List Value)
  | reported (report : Report)
  deriving Repr, Inhabited

namespace Fault

/-- A fault with one text. -/
def plain (kind : FaultKind) (text : String) : Fault := .raised kind [.text text]

/-- The fault of a wait that was called off. -/
def cancellation : Fault := .raised .cancelled []

def isCancellation : Fault → Bool
  | .raised .cancelled _ => true
  | _ => false

/-- Whether a fault takes the instance down whose hook raised it. -/
def isExhaustion : Fault → Bool
  | .raised .exhausted _ => true
  | _ => false

/-- Whether a fault says that something could not be imported. -/
def isImporting : Fault → Bool
  | .raised .importing _ => true
  | _ => false

/-- Whether a fault says that a file cannot be opened. -/
def isSystem : Fault → Bool
  | .raised kind _ => kind ∈ [.missingFile, .isDirectory, .notDirectory, .system]
  | .reported _ => false

def label : Fault → String
  | .raised kind _ => kind.label
  | .reported r => r.kind.label

/-- The arguments of a fault in round brackets, as a tuple is written. -/
def tupleText (args : List Value) : String :=
  "(" ++ Value.literalItems args ++ ")"

/-- The text of a fault. A missing key is quoted; several arguments are written as a tuple. -/
def message : Fault → String
  | .raised _ [] => ""
  | .raised .key [v] => v.literal
  | .raised _ [v] => v.plain
  | .raised _ args => tupleText args
  | .reported r => r.message

/-- The literal form of a fault: its kind, applied to its arguments. -/
def literal : Fault → String
  | .raised kind args => kind.label ++ tupleText args
  | .reported r => r.kind.label ++ tupleText [.text r.message]

/-- The fault of a list or a record where a key is needed. -/
def notKey (v : Value) : Fault := plain .type s!"unhashable type: '{v.typeName}'"

end Fault

/-! ## Rejections -/

/-- A refused request for a transition, with what was asked of which state. -/
structure Rejection where
  report : Report
  event : Value
  state : Value
  cause : Option Fault
  deriving Repr, Inhabited

namespace Rejection

/-- The hook gave a failure as its outcome. -/
def refused (event state reason : Value) : Rejection where
  event := event
  state := state
  cause := none
  report :=
    { kind := .rejection
      what := "Transition on " ++ event.literal ++ " from " ++ state.literal ++
        " was refused by on_transition"
      why := some
        "The callback returned a failure outcome instead of Success(state, payload)."
      context := [("event", event), ("state", state), ("reason", reason)] }

/-- The hook raised a fault. -/
def raised (event state : Value) (cause : Fault) : Rejection where
  event := event
  state := state
  cause := some cause
  report :=
    { kind := .rejection
      what := "on_transition raised while handling " ++ event.literal ++ " in " ++
        state.literal
      why := some (cause.label ++ ": " ++ cause.message)
      fix := some "Return Failure(reason) from on_transition instead of raising."
      context := [("event", event), ("state", state), ("error", .text cause.literal)] }

/-- The hook named a target that no edge of the table leads to. -/
def undeclared (event state target : Value) : Rejection where
  event := event
  state := state
  cause := none
  report :=
    { kind := .rejection
      what := "Transition " ++ state.literal ++ " --> " ++ target.literal ++
        " is not declared in the diagram"
      why := some "on_transition returned a target state without a matching edge."
      fix := some "Add the edge to the diagram or return a declared target."
      context := [("event", event), ("state", state), ("target", target)] }

end Rejection
end Turnstile

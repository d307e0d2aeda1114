-- How instances are supervised: what happens after a crash, how many restarts fit into
-- which window, and how long a stop may take.
import Turnstile.Fault.Basic

namespace Turnstile

/-- Whether an instance that crashed is started again. -/
inductive RestartPolicy where
  | transient
  | temporary
  deriving DecidableEq, Repr, Inhabited

namespace RestartPolicy

def text : RestartPolicy → String
  | .transient => "transient"
  | .temporary => "temporary"

def ofValue? : Value → Option RestartPolicy
  | .text "transient" => some .transient
  | .text "temporary" => some .temporary
  | _ => none

end RestartPolicy

structure Settings where
  shutdownTimeout : Number := .real (.ofDecimal false 5 0)
  restart : RestartPolicy := .transient
  maxRestarts : Number := .whole 3
  maxSeconds : Number := .real (.ofDecimal false 5 0)
  deriving DecidableEq, Repr, Inhabited

namespace Settings

/-- A number, or the fault of comparing what is no number with one. -/
def comparable (comparison : String) (v : Value) : Except Fault Number :=
  match v with
  | .number n => .ok n
  | v => .error (.plain .type
      s!"'{comparison}' not supported between instances of '{v.typeName}' and 'int'")

/-- A number that is not at most zero. -/
def aboveZero (setting : String) (v : Value) : Except Fault Number := do
  let n ← comparable "<=" v
  if n.leRat 0 then throw (.plain .value (setting ++ " must be > 0"))
  return n

/-- A number that is not below zero. -/
def notNegative (setting : String) (v : Value) : Except Fault Number := do
  let n ← comparable "<" v
  if n.ltRat 0 then throw (.plain .value (setting ++ " must be >= 0"))
  return n

/-- The settings that some values give, checked in this order: the policy, the timeout, the
number of restarts, the window. -/
def ofValues (restart shutdownTimeout maxRestarts maxSeconds : Value) :
    Except Fault Settings := do
  let some policy := RestartPolicy.ofValue? restart
    | throw (.plain .value "restart must be one of transient, temporary")
  let timeout ← aboveZero "shutdown_timeout" shutdownTimeout
  let restarts ← notNegative "max_restarts" maxRestarts
  let seconds ← aboveZero "max_seconds" maxSeconds
  return ⟨timeout, policy, restarts, seconds⟩

/-- The settings that the fields of a record give, with the defaults for those missing. -/
def ofRecord (fields : List (String × Value)) : Except Fault Settings :=
  let get (key : String) (default : Value) := (fields.lookup key).getD default
  let defaults : Settings := {}
  ofValues (get "restart" (.text defaults.restart.text))
    (get "shutdown_timeout" (.number defaults.shutdownTimeout))
    (get "max_restarts" (.number defaults.maxRestarts))
    (get "max_seconds" (.number defaults.maxSeconds))

end Settings
end Turnstile

-- Hooks: the three points at which the author of a machine decides or watches. A hook is
-- a function from what it is told, now and before, to a reaction; hooks that are missing have
-- defaults.
import Turnstile.Instance.RunState
import Turnstile.Table.Basic

namespace Turnstile

/-- What the transition hook may answer. All that is neither a success nor a rejection counts
as a failure with that value as its reason. -/
inductive Outcome where
  | success (target payload : Value)
  | failure (reason : Value)
  | rejected (rejection : Rejection)
  | other (v : Value)
  deriving Repr, Inhabited

/-- How long a hook waits before it answers. -/
inductive Pause where
  | none
  | seconds (s : Number)
  | forever
  deriving DecidableEq, Repr, Inhabited

/-- A request for a transition that a hook sends to an instance by name. -/
structure Send where
  name : Value
  event : Value
  payload : Value
  deriving Repr, Inhabited

/-- What a hook does when it is called: it sends its requests, writes its lines, waits, and
ends with an answer or a fault. A request that nobody takes ends it at once. -/
structure Reaction (α : Type) where
  sends : List Send := []
  lines : List String := []
  pause : Pause := .none
  result : Except Fault α

/-- A call of the transition hook. -/
structure TransitionCall where
  state : String
  event : Value
  eventPayload : Value
  statePayload : Value
  deriving Repr, Inhabited

/-- A call of the failure hook. -/
structure FailureCall where
  event : Value
  eventPayload : Value
  runState : RunState
  deriving Repr, Inhabited

/-- A call of a hook. -/
inductive HookCall where
  | transition (call : TransitionCall)
  | failure (call : FailureCall)
  | terminate (runState : RunState)
  deriving Repr, Inhabited

/-- The calls of hooks so far, each with the name of its instance, the last one first. Hooks
may remember them, so that their answers may go by them. -/
abbrev HookPast := List (Value × HookCall)

/-- Where a hook comes from. -/
inductive Origin where
  | method (owner hook : String)
  | function (module name : String)
  | followTable
  | noAction
  | rules
  deriving DecidableEq, Repr, Inhabited

def Origin.text : Origin → String
  | .method owner hook => "method " ++ owner ++ "." ++ hook
  | .function module name => "function " ++ module ++ ":" ++ name
  | .followTable => "default follow_table"
  | .noAction => "default noop"
  | .rules => "rules"

/-- A hook and its origin. -/
structure Hook (Call : Type) (α : Type) where
  origin : Origin
  react : HookPast → Call → Reaction α

/-- The hooks that an author supplies, each of which may be missing. -/
structure Hooks where
  onTransition : Option (Hook TransitionCall Outcome) := none
  onFailure : Option (Hook FailureCall Unit) := none
  onTerminate : Option (Hook RunState Unit) := none
  deriving Inhabited

def Hooks.isEmpty (h : Hooks) : Bool :=
  h.onTransition.isNone && h.onFailure.isNone && h.onTerminate.isNone

/-- The hooks of a machine, all present. -/
structure BoundHooks where
  onTransition : Hook TransitionCall Outcome
  onFailure : Hook FailureCall Unit
  onTerminate : Hook RunState Unit

/-! ## Defaults -/

/-- Follows a table: an event with exactly one distinct target leads there and keeps the
payload, any other fails. -/
def Table.follow (t : Table) (state event statePayload : Value) : Except Fault Outcome := do
  let targets ← t.targetsOfValue state event
  match distinct targets with
  | [target] => return .success target.toValue statePayload
  | several => return .failure (.text (toString several.length ++ " declared targets for " ++
      event.literal ++ " in state " ++ state.literal))

/-- A hook that does nothing. -/
def Hook.noAction (Call : Type) : Hook Call Unit := ⟨.noAction, fun _ _ => { result := .ok () }⟩

/-- The hook that follows a table. -/
def Hook.followTable (t : Table) : Hook TransitionCall Outcome :=
  ⟨.followTable, fun _ call =>
    { result := t.follow (.text call.state) call.event call.statePayload }⟩

/-- Puts the defaults in the place of missing hooks. -/
def Hooks.bind (h : Hooks) (t : Table) : BoundHooks where
  onTransition := h.onTransition.getD (.followTable t)
  onFailure := h.onFailure.getD (.noAction _)
  onTerminate := h.onTerminate.getD (.noAction _)

/-! ## Machines -/

/-- A machine: a named table with its hooks. Every instance of it shares them. -/
structure Machine where
  name : String
  table : Table
  hooks : BoundHooks

/-- The machine of a table and the hooks that an author supplied. -/
def Machine.ofTable (name : String) (table : Table) (hooks : Hooks) : Machine :=
  ⟨name, table, hooks.bind table⟩

/-! ## Registries -/

/-- The machines that are known by name, in the order of their first registration. -/
abbrev Registry := List (String × Machine)

namespace Registry

def register (r : Registry) (m : Machine) : Registry := Value.setField r m.name m

def unregister (r : Registry) (name : String) : Registry := r.filter fun (n, _) => n ≠ name

def names (r : Registry) : List String := sortedSet (r.map (·.1))

def contains (r : Registry) (name : String) : Bool := (r.lookup name).isSome

def get (r : Registry) (name : String) : Except LookupFault Machine :=
  match r.lookup name with
  | some m => .ok m
  | none => .error (.unknownType (.text name) r.names)

end Registry
end Turnstile

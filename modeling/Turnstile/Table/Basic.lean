-- Transition tables: the edges of a diagram with its pseudo-state resolved, and the
-- queries on them.
import Turnstile.Fault.Basic

namespace Turnstile

/-- Where an edge leads: to a state, or out of the diagram. -/
inductive Target where
  | state (name : String)
  | terminal
  deriving DecidableEq, Repr, Inhabited

structure Transition where
  source : String
  event : String
  target : Target
  deriving DecidableEq, Repr, Inhabited

/-- A table: the state that every instance starts in, the edges in the order of their
declaration, and the events on the edges into the initial state. -/
structure Table where
  initial : String
  transitions : List Transition
  entryEvents : List String
  deriving DecidableEq, Repr, Inhabited

namespace Target

def isTerminal : Target → Bool
  | .terminal => true
  | .state _ => false

/-- The state that an edge leads to, if it leads to one. -/
def state? : Target → Option String
  | .state s => some s
  | .terminal => none

def toValue : Target → Value
  | .state s => .text s
  | .terminal => .terminal

/-- The target that a value names, if it can name one. -/
def ofValue? : Value → Option Target
  | .text s => some (.state s)
  | .terminal => some .terminal
  | _ => none

/-- The plain text of a target. -/
def text : Target → String
  | .state s => s
  | .terminal => "[*]"

end Target

/-! ## Sorted texts -/

/-- Puts a text into a strictly increasing list, unless it is there. -/
def insertSorted (s : String) : List String → List String
  | [] => [s]
  | t :: rest =>
    if s < t then s :: t :: rest
    else if s = t then t :: rest
    else t :: insertSorted s rest

/-- The texts of a list in strictly increasing order. -/
def sortedSet (ss : List String) : List String := ss.foldr insertSorted []

/-- The members of a list, each at its first place only. -/
def distinct {α : Type} [DecidableEq α] (xs : List α) : List α :=
  xs.foldl (fun seen x => if x ∈ seen then seen else seen ++ [x]) []

namespace Table

/-! ## Looking edges up -/

/-- Whether some edge leads from a state to a target. -/
def allowed (t : Table) (source : String) (target : Target) : Bool :=
  t.transitions.any fun e => e.source = source && e.target = target

/-- The edges grouped by state and event, the groups in the order of their first edge. -/
abbrev Index := List ((String × String) × List Target)

/-- Adds a target to the group of a state and an event. -/
def Index.add (index : Index) (key : String × String) (target : Target) : Index :=
  match index with
  | [] => [(key, [target])]
  | (k, targets) :: rest =>
    if k = key then (k, targets ++ [target]) :: rest
    else (k, targets) :: Index.add rest key target

def index (t : Table) : Index :=
  t.transitions.foldl (fun index e => index.add (e.source, e.event) e.target) []

/-- The targets of an event in a state, in the order of their declaration. -/
def targets (t : Table) (source event : String) : List Target :=
  (t.index.lookup (source, event)).getD []

/-- Whether an event labels some edge out of a state. -/
def respondsTo (t : Table) (source event : String) : Bool :=
  (t.index.lookup (source, event)).isSome

/-- The events on the edges out of a state, in the order of their first edge. -/
def eventsFrom (t : Table) (source : String) : List String :=
  distinct ((t.transitions.filter fun e => e.source = source).map (·.event))

/-! ## What a table holds -/

/-- The initial state and all states that edges touch. -/
def states (t : Table) : List String :=
  sortedSet (t.initial :: t.transitions.flatMap fun e => e.source :: e.target.state?.toList)

def events (t : Table) : List String :=
  sortedSet (t.transitions.map (·.event) ++ t.entryEvents)

/-- The states that an edge leads out of the diagram from. -/
def terminalStates (t : Table) : List String :=
  sortedSet ((t.transitions.filter fun e => e.target.isTerminal).map (·.source))

/-- The pairs of state and event with several distinct targets. -/
def ambiguous (t : Table) : Index :=
  t.index.filter fun (_, targets) => (distinct targets).length > 1

/-! ## Queries by values -/

/-- Whether an edge leads from a state to a target, both given as values. -/
def allowedValue (t : Table) (source target : Value) : Bool :=
  match source, Target.ofValue? target with
  | .text s, some x => t.allowed s x
  | _, _ => false

/-- The key that two values form, the first of them looked at first. -/
def keyOf (source event : Value) : Except Fault (Option (String × String)) :=
  if !source.isKey then throw (.notKey source)
  else if !event.isKey then throw (.notKey event)
  else match source, event with
    | .text s, .text e => return some (s, e)
    | _, _ => return none

def respondsToValue (t : Table) (source event : Value) : Except Fault Bool := do
  match ← keyOf source event with
  | some (s, e) => return t.respondsTo s e
  | none => return false

def targetsOfValue (t : Table) (source event : Value) : Except Fault (List Target) := do
  match ← keyOf source event with
  | some (s, e) => return t.targets s e
  | none => return []

def eventsFromValue (t : Table) : Value → List String
  | .text s => t.eventsFrom s
  | _ => []

end Table
end Turnstile

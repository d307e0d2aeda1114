-- Subscribers that follow scripts: on a delivery they may themselves subscribe,
-- unsubscribe, publish or raise.
import Turnstile.Bus.Delivery

namespace Turnstile

namespace Value

/-- The place of an index in a sequence of some length, counted from the end if negative. -/
def place? (length : Nat) (n : Int) : Option Nat :=
  let i := if n < 0 then n + length else n
  if 0 ≤ i ∧ i < length then some i.toNat else none

/-- The part of a value under a key: a field, an item or a character. -/
def index (v key : Value) : Except Fault Value :=
  let whole? : Option Int := match key with
    | .number n => n.whole?
    | _ => none
  match v with
  | .record fields =>
    match key with
    | .text k =>
      match fields.lookup k with
      | some w => .ok w
      | none => .error (.raised .key [key])
    | key => .error (if key.isKey then .raised .key [key] else .notKey key)
  | .list items =>
    match whole? with
    | some i =>
      match (place? items.length i).bind (items[·]?) with
      | some w => .ok w
      | none => .error (.plain .index "list index out of range")
    | none => .error (.plain .type
        s!"list indices must be integers or slices, not {key.typeName}")
  | .text s =>
    match whole? with
    | some i =>
      match (place? s.length i).bind (s.toList[·]?) with
      | some c => .ok (.text (String.singleton c))
      | none => .error (.plain .index "string index out of range")
    | none => .error (.plain .type
        s!"string indices must be integers, not '{key.typeName}'")
  | v => .error (.plain .type s!"'{v.typeName}' object is not subscriptable")

end Value

/-- Which deliveries a subscriber wants. -/
inductive Filter where
  | topic (t : Value)
  | data (v : Value)
  | field (key v : Value)
  | const (v : Value)
  | raise (fault : Fault)
  deriving Repr, Inhabited

def Filter.accepts (f : Filter) (topic : String) (data : Value) : Except Fault Bool :=
  match f with
  | .topic t => .ok ((Value.text topic).same t)
  | .data v => .ok (data.same v)
  | .field key v => (data.index key).map (·.same v)
  | .const v => .ok v.isTrue
  | .raise fault => .error fault

/-- A step of a script. Subscriptions go by names of their own, and a name stands for the
last subscription made under it. -/
inductive ScriptAction where
  | subscribe (name topic : String) (priority : Value) (filter : Option Filter)
      (script : List ScriptAction)
  | unsubscribe (name : String) (topic : Option String)
  | publish (topic : String) (data : Value)
  | raise (fault : Fault)
  deriving Repr, Inhabited

/-- A subscriber: its name, its filter, and what it does on a delivery. -/
structure ScriptHandler where
  name : String
  filter : Option Filter
  script : List ScriptAction
  deriving Repr, Inhabited

/-- What a bus of scripts does that can be seen. -/
inductive ScriptEvent where
  | delivered (name : String) (data : Value)
  | fault (text : String)
  deriving Repr, Inhabited

/-- A bus of scripts with the names that stand for handles, and what was seen so far. -/
structure ScriptBus where
  bus : Bus ScriptHandler := {}
  handles : List (String × Handle) := []
  seen : List ScriptEvent := []
  deriving Repr, Inhabited

/-- What an action gives back. -/
inductive ScriptAnswer where
  | nothing
  | topic (t : String)
  | flag (b : Bool)
  deriving DecidableEq, Repr, Inhabited

namespace ScriptBus

/-- Subscribes a handler, and lets its name stand for the new subscription. -/
def subscribe (d : ScriptBus) (topic : String) (priority : Value) (h : ScriptHandler) :
    Except Fault ScriptBus :=
  (d.bus.subscribe topic h priority).map fun (bus, handle) =>
    { d with bus := bus, handles := Value.setField d.handles h.name handle }

/-- Removes the subscription that a name stands for, looked for under a topic. -/
def unsubscribe (d : ScriptBus) (name : String) (topic : Option String) : ScriptBus × Bool :=
  match d.handles.lookup name with
  | none => (d, false)
  | some h =>
    let (bus, found) := d.bus.unsubscribe { h with topic := topic.getD h.topic }
    ({ d with bus := bus }, found)

/-- The names that stand for handles are what the subscribers remember. -/
abbrev Names := List (String × Handle)

/-- Does the actions of a script in turn. A fault ends it. -/
def programOf : List ScriptAction → Program ScriptHandler Names
  | [] => .finish .null
  | .subscribe name topic priority filter script :: rest =>
    .subscribe topic ⟨name, filter, script⟩ priority fun
      | .ok handle => .consult fun names =>
        .remember (Value.setField names name handle) (programOf rest)
      | .error fault => .raise fault
  | .unsubscribe name topic :: rest => .consult fun names =>
    match names.lookup name with
    | none => programOf rest
    | some h => .unsubscribe { h with topic := topic.getD h.topic } fun _ => programOf rest
  | .publish topic data :: rest => .publish topic data fun
    | none => programOf rest
    | some fault => .raise fault
  | .raise fault :: _ => .raise fault

/-- Subscribers that follow their scripts. -/
def conduct : Conduct ScriptHandler Names where
  filter h := h.filter.map fun f topic data =>
    match f.accepts topic data with
    | .ok b => .finish (.bool b)
    | .error fault => .raise fault
  handler h _ := programOf h.script

/-- What can be seen of what happens on a bus: who is called, and the faults that are logged. -/
def shown? : Occurrence ScriptHandler → Option ScriptEvent
  | .called _ s data => some (.delivered s.handler.name data)
  | .logged _ text => some (.fault text)
  | _ => none

/-- Publishes something. `depth` bounds how deep publishings may be nested. -/
def publish (depth : Nat) (topic : String) (data : Value) (d : ScriptBus) :
    ScriptBus × Option Fault :=
  match Turnstile.publish conduct depth topic data { bus := d.bus, memory := d.handles } with
  | none => (d, some (.plain .runtime "maximum recursion depth exceeded"))
  | some (scene, fault) =>
    (⟨scene.bus, scene.memory, d.seen ++ scene.trail.filterMap shown?⟩, fault)

/-- Performs one action from outside. -/
def perform (depth : Nat) (d : ScriptBus) (a : ScriptAction) :
    ScriptBus × Except Fault ScriptAnswer :=
  match a with
  | .subscribe name topic priority filter script =>
    match d.subscribe topic priority ⟨name, filter, script⟩ with
    | .ok d => (d, .ok (.topic topic))
    | .error fault => (d, .error fault)
  | .unsubscribe name topic =>
    let (d, found) := d.unsubscribe name topic
    (d, .ok (.flag found))
  | .publish topic data =>
    match publish depth topic data d with
    | (d, none) => (d, .ok .nothing)
    | (d, some fault) => (d, .error fault)
  | .raise fault => (d, .error fault)

end ScriptBus
end Turnstile

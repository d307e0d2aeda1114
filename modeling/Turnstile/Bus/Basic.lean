-- The bus: subscriptions by topic. A topic that nobody subscribes to is not listed, and a
-- subscription is removed by its handle once at most.
import Turnstile.Fault.Basic

namespace Turnstile

/-- A subscription, with what the subscriber wants done. -/
structure Subscription (α : Type) where
  id : Nat
  priority : Rat
  handler : α
  deriving Repr

/-- What a subscriber removes its subscription by. -/
structure Handle where
  topic : String
  id : Nat
  deriving DecidableEq, Repr, Inhabited

/-- The subscriptions of each topic in the order of subscribing, and the next free id. -/
structure Bus (α : Type) where
  topics : List (String × List (Subscription α)) := []
  next : Nat := 0
  deriving Repr, Inhabited

namespace Bus

variable {α : Type}

/-- The subscriptions of a topic, in the order of subscribing. -/
def onTopic (b : Bus α) (topic : String) : List (Subscription α) :=
  (b.topics.lookup topic).getD []

/-- The subscriptions of a topic by rising priority, equal ones in the order of subscribing. -/
def inOrder (b : Bus α) (topic : String) : List (Subscription α) :=
  (b.onTopic topic).mergeSort fun x y => x.priority ≤ y.priority

/-- Adds a subscription at the end of its topic. -/
def add (topics : List (String × List (Subscription α))) (topic : String)
    (s : Subscription α) : List (String × List (Subscription α)) :=
  match topics with
  | [] => [(topic, [s])]
  | (t, subs) :: rest =>
    if t = topic then (t, subs ++ [s]) :: rest else (t, subs) :: add rest topic s

/-- The number of a priority, which has to lie between 1 and 5. -/
def priority (v : Value) : Except Fault Rat :=
  match v with
  | .number n =>
    match n.toRat? with
    | some q =>
      if 1 ≤ q ∧ q ≤ 5 then .ok q
      else .error (.plain .value "priority must be an integer between 1 and 5")
    | none => .error (.plain .value "priority must be an integer between 1 and 5")
  | v => .error (.plain .type
      s!"'<=' not supported between instances of 'int' and '{v.typeName}'")

/-- Adds a subscription with a new id. -/
def enroll (b : Bus α) (topic : String) (q : Rat) (handler : α) : Bus α × Handle :=
  (⟨add b.topics topic ⟨b.next, q, handler⟩, b.next + 1⟩, ⟨topic, b.next⟩)

/-- Subscribes to a topic. A wrong priority leaves the bus as it is. -/
def subscribe (b : Bus α) (topic : String) (handler : α) (level : Value) :
    Except Fault (Bus α × Handle) :=
  (priority level).map fun q => b.enroll topic q handler

/-- What is left of the subscriptions of a topic without the one of a handle. A topic that has none left
is no longer listed. -/
def without (h : Handle) :
    String × List (Subscription α) → Option (String × List (Subscription α))
  | (t, subs) =>
    if t = h.topic then
      match subs.filter (·.id ≠ h.id) with
      | [] => none
      | rest => some (t, rest)
    else some (t, subs)

/-- Removes the subscription of a handle; says whether it was there. -/
def unsubscribe (b : Bus α) (h : Handle) : Bus α × Bool :=
  if (b.onTopic h.topic).any (·.id = h.id) then
    ({ b with topics := b.topics.filterMap (without h) }, true)
  else (b, false)

end Bus
end Turnstile

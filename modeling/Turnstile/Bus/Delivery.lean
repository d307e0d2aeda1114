-- Publishing on a bus: the subscriptions of a topic are considered one after the other, and what a
-- subscriber does in the meantime may change the bus, or publish again.
import Turnstile.Bus.Basic

namespace Turnstile

/-- What a subscriber does when it is asked or called. It may subscribe, unsubscribe and publish, and
look into the memory that the subscribers share, and it goes on by what it gets each time. -/
inductive Program (α σ : Type) where
  | finish (v : Value)
  | raise (fault : Fault)
  | consult (next : σ → Program α σ)
  | remember (memory : σ) (next : Program α σ)
  | subscribe (topic : String) (subscriber : α) (level : Value)
    (next : Except Fault Handle → Program α σ)
  | unsubscribe (handle : Handle) (next : Bool → Program α σ)
  | publish (topic : String) (data : Value) (next : Option Fault → Program α σ)

/-- How subscribers behave: the filter of each, if it has one, which is told the topic and the data, and
its handler, which is told the data. -/
structure Conduct (α σ : Type) where
  filter : α → Option (String → Value → Program α σ)
  handler : α → Value → Program α σ

/-- What happens on a bus. Each publishing has a number, and all that it does bears this number. -/
inductive Occurrence (α : Type) where
  | subscribed (topic : String) (s : Subscription α)
  | refused (topic : String) (subscriber : α) (fault : Fault)
  | unsubscribed (handle : Handle) (found : Bool)
  | began (n : Nat) (topic : String) (data : Value)
  | considered (n : Nat) (s : Subscription α)
  | filtered (n : Nat) (s : Subscription α) (result : Except Fault Value)
  | called (n : Nat) (s : Subscription α) (data : Value)
  | handled (n : Nat) (s : Subscription α) (result : Except Fault Value)
  | logged (n : Nat) (text : String)
  | ended (n : Nat) (fault : Option Fault)

/-- A bus, the memory of its subscribers, whether there is a log for their faults, and what has happened
so far. -/
structure Scene (α σ : Type) where
  bus : Bus α := {}
  memory : σ
  logs : Bool := true
  trail : List (Occurrence α) := []

/-- The entry of the log for the fault of a subscriber. -/
def faultEntry (topic : String) (fault : Fault) : String :=
  "Error handling " ++ topic ++ ": " ++ fault.message

namespace Scene

variable {α σ : Type}

def see (scene : Scene α σ) (o : Occurrence α) : Scene α σ :=
  { scene with trail := scene.trail ++ [o] }

def subscribe (scene : Scene α σ) (topic : String) (subscriber : α) (level : Value) :
    Scene α σ × Except Fault Handle :=
  match Bus.priority level with
  | .error fault => (scene.see (.refused topic subscriber fault), .error fault)
  | .ok q =>
    let (bus, handle) := scene.bus.enroll topic q subscriber
    (({ scene with bus := bus }).see (.subscribed topic ⟨handle.id, q, subscriber⟩), .ok handle)

def unsubscribe (scene : Scene α σ) (handle : Handle) : Scene α σ × Bool :=
  let (bus, found) := scene.bus.unsubscribe handle
  (({ scene with bus := bus }).see (.unsubscribed handle found), found)

end Scene

/-- Publishes something in a scene: the scene afterwards, and the fault that gets through, if one does.
There is no scene afterwards if publishings are nested too deep. -/
abbrev Publisher (α σ : Type) :=
  String → Value → Scene α σ → Option (Scene α σ × Option Fault)

section
variable {α σ : Type}

/-- Runs a program in a scene. What it publishes itself goes through the publisher that it is given. -/
def Program.run (nested : Publisher α σ) : Program α σ → Scene α σ →
    Option (Scene α σ × Except Fault Value)
  | .finish v, scene => some (scene, .ok v)
  | .raise fault, scene => some (scene, .error fault)
  | .consult next, scene => (next scene.memory).run nested scene
  | .remember memory next, scene => next.run nested { scene with memory := memory }
  | .subscribe topic subscriber level next, scene =>
    let (scene, result) := scene.subscribe topic subscriber level
    (next result).run nested scene
  | .unsubscribe handle next, scene =>
    let (scene, found) := scene.unsubscribe handle
    (next found).run nested scene
  | .publish topic data next, scene =>
    match nested topic data scene with
    | none => none
    | some (scene, fault) => (next fault).run nested scene

end

/-- A publishing that goes on: its number, and what is published. -/
structure Publishing where
  number : Nat
  topic : String
  data : Value

namespace Publishing

variable {α σ : Type} (p : Publishing) (conduct : Conduct α σ) (nested : Publisher α σ)

/-- A filter or a handler has raised: its fault is logged. Only a cancellation goes on to the
publisher. -/
def contain (scene : Scene α σ) (fault : Fault) : Scene α σ × Option Fault :=
  if fault.isCancellation then (scene, some fault)
  else if scene.logs then (scene.see (.logged p.number (faultEntry p.topic fault)), none)
  else (scene, none)

/-- Calls the handler of a subscription. -/
def call (s : Subscription α) (scene : Scene α σ) : Option (Scene α σ × Option Fault) :=
  match (conduct.handler s.handler p.data).run nested (scene.see (.called p.number s p.data)) with
  | none => none
  | some (scene, result) =>
    let scene := scene.see (.handled p.number s result)
    match result with
    | .ok _ => some (scene, none)
    | .error fault => some (p.contain scene fault)

/-- Considers a subscription: its handler is called, unless its filter does not want that. -/
def consider (s : Subscription α) (scene : Scene α σ) : Option (Scene α σ × Option Fault) :=
  let scene := scene.see (.considered p.number s)
  match conduct.filter s.handler with
  | none => p.call conduct nested s scene
  | some filter =>
    match (filter p.topic p.data).run nested scene with
    | none => none
    | some (scene, result) =>
      let scene := scene.see (.filtered p.number s result)
      match result with
      | .ok v => if v.isTrue then p.call conduct nested s scene else some (scene, none)
      | .error fault => some (p.contain scene fault)

/-- Considers some subscriptions one after the other, as long as no fault gets through. -/
def considerAll : List (Subscription α) → Scene α σ → Option (Scene α σ × Option Fault)
  | [], scene => some (scene, none)
  | s :: rest, scene =>
    match p.consider conduct nested s scene with
    | none => none
    | some (scene, some fault) => some (scene, some fault)
    | some (scene, none) => considerAll rest scene

end Publishing

/-- Publishes something to the subscriptions that the topic has when the publishing begins. `depth`
bounds how deep publishings may be nested. -/
def publish {α σ : Type} (conduct : Conduct α σ) : (depth : Nat) → Publisher α σ
  | 0 => fun _ _ _ => none
  | depth + 1 => fun topic data scene =>
    let p : Publishing := ⟨scene.trail.length, topic, data⟩
    match p.considerAll conduct (publish conduct depth) (scene.bus.inOrder topic)
      (scene.see (.began p.number topic data)) with
    | none => none
    | some (scene, fault) => some (scene.see (.ended p.number fault), fault)

/-- A publishing is over: it has begun, all have been considered, and it has ended. -/
theorem publish_eq_some {α σ : Type} {conduct : Conduct α σ} {depth : Nat} {topic : String}
    {data : Value} {scene scene' : Scene α σ} {fault : Option Fault} :
    publish conduct (depth + 1) topic data scene = some (scene', fault) ↔
      ∃ last, (⟨scene.trail.length, topic, data⟩ : Publishing).considerAll conduct
          (publish conduct depth) (scene.bus.inOrder topic)
          (scene.see (.began scene.trail.length topic data)) = some (last, fault) ∧
        scene' = last.see (.ended scene.trail.length fault) := by
  constructor
  · intro h
    unfold publish at h
    simp only at h
    cases hall : (⟨scene.trail.length, topic, data⟩ : Publishing).considerAll conduct
        (publish conduct depth) (scene.bus.inOrder topic)
        (scene.see (.began scene.trail.length topic data)) with
    | none => simp [hall] at h
    | some visited =>
      obtain ⟨last, fault'⟩ := visited
      simp only [hall] at h
      obtain ⟨rfl, rfl⟩ := Prod.mk.inj (Option.some.inj h)
      exact ⟨last, rfl, rfl⟩
  · rintro ⟨last, hall, rfl⟩
    unfold publish
    simp only [hall]

end Turnstile

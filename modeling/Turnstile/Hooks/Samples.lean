-- Sample hooks: machines that move by the names of their events, and ones that fail.
import Turnstile.Hooks.Basic

namespace Turnstile.Samples

/-- A transition hook without sends or pauses. -/
def method (owner : String) (answer : TransitionCall → Except Fault Outcome) :
    Hook TransitionCall Outcome :=
  ⟨.method owner "on_transition", fun _ call => { result := answer call }⟩

/-- A hook of an owner that does nothing. -/
def silent (Call : Type) (owner hook : String) : Hook Call Unit :=
  ⟨.method owner hook, fun _ _ => { result := .ok () }⟩

/-- The rest of a text after its first three characters. -/
def afterThree (s : String) : Value := .text (String.ofList (s.toList.drop 3))

/-- Moves to the state named after `to_`, with the event's payload if it has one, and leaves
the diagram on `ok`. -/
def followNames (call : TransitionCall) : Except Fault Outcome :=
  match call.event with
  | .text "ok" => .ok (.success .terminal call.statePayload)
  | .text s =>
    if "to_".toList.isPrefixOf s.toList then
      .ok (.success (afterThree s) (match call.eventPayload with
        | .null => call.statePayload
        | v => v))
    else .ok (.failure (.text ("no handler for " ++ call.event.literal)))
  | v => .ok (.failure (.text ("no handler for " ++ v.literal)))

/-- Moves to the state named after the first three characters, and raises on `boom`. -/
def followNamesOrRaise (call : TransitionCall) : Except Fault Outcome :=
  match call.event with
  | .text "boom" => .error (.plain .runtime "simulated fault")
  | .text "ok" => .ok (.success .terminal call.statePayload)
  | .text s => .ok (.success (afterThree s) call.statePayload)
  | .list items => .ok (.success (.list (items.drop 3)) call.statePayload)
  | .record _ => .error (.plain .type "unhashable type: 'slice'")
  | v => .error (.plain .type s!"'{v.typeName}' object is not subscriptable")

/-- Moves to the state that the event names; `exhaust` takes the instance down, `boom` raises,
and `end` leaves the diagram. -/
def moveToEvent (call : TransitionCall) : Except Fault Outcome :=
  match call.event with
  | .text "exhaust" => .error (.plain .exhausted "simulated exhaustion")
  | .text "boom" => .error (.plain .value ("boom: " ++ call.eventPayload.plain))
  | .text "end" => .ok (.success .terminal call.statePayload)
  | event => .ok (.success event (match call.eventPayload with
    | .null => call.statePayload
    | v => v))

/-- All three hooks, two of which do nothing. -/
def full (owner : String) (answer : TransitionCall → Except Fault Outcome) : Hooks where
  onTransition := some (method owner answer)
  onFailure := some (silent _ owner "on_failure")
  onTerminate := some (silent _ owner "on_terminate")

end Turnstile.Samples

-- Hooks given by rules: the first rule that fits a call says how to react.
import Turnstile.Hooks.Basic

namespace Turnstile

/-- Which payload a success carries. -/
inductive PayloadRule where
  | keepState
  | takeEvent
  | give (v : Value)
  deriving Repr, Inhabited

/-- How a rule ends. -/
inductive RuleEnding where
  | raise (fault : Fault)
  | moveTo (target : Value) (payload : PayloadRule)
  | fail (reason : Value)
  | giveBack (v : Value)
  deriving Repr, Inhabited

/-- The action of a rule: requests, a pause, and an ending. -/
structure RuleAction where
  sends : List Send := []
  pause : Pause := .none
  ending : RuleEnding := .giveBack .null
  deriving Repr, Inhabited

/-- A rule fits a call with the same event, state and event payload, as far as it names
them. -/
structure Rule where
  event : Option Value := none
  state : Option Value := none
  eventPayload : Option Value := none
  action : RuleAction
  deriving Repr, Inhabited

namespace Rule

def fits (rule : Rule) (call : TransitionCall) : Bool :=
  rule.event.all (·.same call.event) && rule.state.all (·.same (.text call.state)) &&
    rule.eventPayload.all (·.same call.eventPayload)

end Rule

namespace RuleAction

/-- The reaction of a transition hook. -/
def toTransition (a : RuleAction) (call : TransitionCall) : Reaction Outcome where
  sends := a.sends
  pause := a.pause
  result := match a.ending with
    | .raise fault => .error fault
    | .moveTo target payload => .ok (.success target (match payload with
      | .keepState => call.statePayload
      | .takeEvent => call.eventPayload
      | .give v => v))
    | .fail reason => .ok (.failure reason)
    | .giveBack v => .ok (.other v)

/-- The reaction of a hook whose answer is not used. -/
def toUnit (a : RuleAction) : Reaction Unit where
  sends := a.sends
  pause := a.pause
  result := match a.ending with
    | .raise fault => .error fault
    | _ => .ok ()

end RuleAction

/-- The transition hook of some rules. A call that no rule fits gets null back. -/
def Hook.ofRules (rules : List Rule) : Hook TransitionCall Outcome :=
  ⟨.rules, fun _ call =>
    match rules.find? (·.fits call) with
    | some rule => rule.action.toTransition call
    | none => { result := .ok (.other .null) }⟩

/-- A hook that always does the same. -/
def Hook.ofAction {Call : Type} (a : RuleAction) : Hook Call Unit :=
  ⟨.rules, fun _ _ => a.toUnit⟩

end Turnstile

-- One request after the other: an interpreter that takes a request only when it is done with
-- the one before. It has no mailbox and no phases, and its hooks answer at once.
import Turnstile.Instance.Basic

namespace Turnstile

/-- What can be seen of an instance: the calls of its hooks, the run states it commits, what it
publishes, and the answers to queries. -/
inductive Sight where
  | called (call : HookCall)
  | committed (runState : RunState)
  | published (n : Notification)
  | answered (call : Nat) (result : Except Fault Answer)

/-- The call of a hook that a sight is, if it is one. -/
def Sight.call? : Sight → Option HookCall
  | .called call => some call
  | _ => none

/-- The run state that a sight commits, if it does. -/
def Sight.runState? : Sight → Option RunState
  | .committed runState => some runState
  | _ => none

/-- The calls of hooks among the sights. -/
def hookCalls (sights : List Sight) : List HookCall := sights.filterMap Sight.call?

/-- The sights without the answers to the calls that gave up. -/
def visible (gaveUp : List Nat) (sights : List Sight) : List Sight :=
  sights.filter fun
    | .answered call _ => call ∉ gaveUp
    | _ => true

namespace Serial

/-- What a request comes to: what is seen of it, the run state and the calls of hooks after it,
and why the instance stops, if it does. -/
structure Turn where
  sights : List Sight
  runState : RunState
  past : HookPast
  stop : Option StopReason

/-- A turn with more to see before it. -/
def Turn.after (turn : Turn) (sights : List Sight) : Turn :=
  { turn with sights := sights ++ turn.sights }

/-! ## One request -/

/-- What comes of the answer of the transition hook. -/
inductive Ruling where
  | moves (state : String) (payload : Value)
  | leaves
  | exhausts
  | refuses (rejection : Rejection)

/-- A success counts where an edge leads to its target, exhaustion is not contained, and all
else is a refusal. -/
def ruling (t : Table) (state : String) (event : Value) : Except Fault Outcome → Ruling
  | .error fault =>
    if fault.isExhaustion then .exhausts else .refuses (.raised event (.text state) fault)
  | .ok (.rejected rejection) => .refuses rejection
  | .ok (.failure reason) => .refuses (.refused event (.text state) reason)
  | .ok (.other v) => .refuses (.refused event (.text state) v)
  | .ok (.success target payload) =>
    if t.allowedValue (.text state) target then
      match target with
      | .text s => .moves s payload
      | _ => .leaves
    else .refuses (.undeclared event (.text state) target)

/-- What follows the answer of the failure hook. -/
def refuse (name : Value) (rs : RunState) (past : HookPast) (event : Value)
    (rejection : Rejection) (result : Except Fault Unit) : Turn :=
  let told : Turn := ⟨[.published (.rejected name event rs.current rejection)], rs, past, none⟩
  match result with
  | .ok _ => told
  | .error fault => if fault.isExhaustion then ⟨[], rs, past, some .crash⟩ else told

/-- What follows a ruling. -/
def carryOut (machine : Machine) (name : Value) (rs : RunState) (past : HookPast)
    (event payload : Value) : Ruling → Turn
  | .moves state newPayload =>
    ⟨[.committed (rs.move state newPayload),
      .published (.transitioned name event rs.current state)],
      rs.move state newPayload, past, none⟩
  | .leaves => ⟨[], rs, past, some .terminal⟩
  | .exhausts => ⟨[], rs, past, some .crash⟩
  | .refuses rejection =>
    let call : FailureCall := ⟨event, payload, rs⟩
    (refuse name rs ((name, .failure call) :: past) event rejection
      (machine.hooks.onFailure.react past call).result).after [.called (.failure call)]

/-- The answer to a question. -/
def reply (t : Table) (rs : RunState) : Question → Except Fault Answer
  | .state => .ok (.state rs)
  | .allowed target => .ok (.flag (t.allowedValue (.text rs.current) target))
  | .responds event => (t.respondsToValue (.text rs.current) event).map .flag

/-- Handles one request from beginning to end. -/
def serve (machine : Machine) (name : Value) (rs : RunState) (past : HookPast) : Request → Turn
  | .stop => ⟨[], rs, past, some .stop⟩
  | .query call question _ => ⟨[.answered call (reply machine.table rs question)], rs, past, none⟩
  | .transition event payload =>
    let call : TransitionCall := ⟨rs.current, event, payload, rs.payload⟩
    (carryOut machine name rs ((name, .transition call) :: past) event payload
      (ruling machine.table rs.current event
        (machine.hooks.onTransition.react past call).result)).after [.called (.transition call)]

/-! ## All requests -/

/-- What is seen of a request that comes after the one that stopped the instance. -/
def drop (name : Value) : Request → List Sight
  | .query call _ _ => [.answered call (.error (Instance.missing name))]
  | .transition .. | .stop => []

/-- The way out: the other requests are dropped, the terminate hook is called, and the end is
published. -/
def Turn.close (turn : Turn) (name : Value) (reason : StopReason) (rest : List Request) : Turn where
  sights := turn.sights ++ rest.flatMap (drop name) ++
    [.called (.terminate turn.runState),
      .published (.terminated name (some reason) turn.runState)]
  runState := turn.runState
  past := (name, .terminate turn.runState) :: turn.past
  stop := some reason

/-- Handles requests one at a time, up to the first that stops the instance. -/
def serveAll (machine : Machine) (name : Value) (rs : RunState) (past : HookPast) :
    List Request → Turn
  | [] => ⟨[], rs, past, none⟩
  | r :: rest =>
    let turn := serve machine name rs past r
    match turn.stop with
    | some reason => turn.close name reason rest
    | none => (serveAll machine name turn.runState turn.past rest).after turn.sights

/-- The whole of a run: the start is published, and the requests are handled. -/
def interpret (machine : Machine) (name payload : Value) (requests : List Request) : Turn :=
  (serveAll machine name ⟨machine.table.initial, payload, []⟩ [] requests).after
    [.published (.started name machine.name machine.table.initial)]

/-- What follows a turn when there are more requests. -/
def Turn.goOn (turn : Turn) (machine : Machine) (name : Value) (rest : List Request) : Turn :=
  match turn.stop with
  | some reason => turn.close name reason rest
  | none => (serveAll machine name turn.runState turn.past rest).after turn.sights

section
variable (machine : Machine) (name : Value) (rs : RunState) (past : HookPast)

theorem serveAll_cons (r : Request) (rest : List Request) :
    serveAll machine name rs past (r :: rest) =
      (serve machine name rs past r).goOn machine name rest := rfl

theorem after_goOn (turn : Turn) (sights : List Sight) (rest : List Request) :
    (turn.after sights).goOn machine name rest = (turn.goOn machine name rest).after sights := by
  unfold Turn.goOn
  cases hstop : turn.stop with
  | none => simp [Turn.after, hstop]
  | some reason => simp [Turn.after, Turn.close, hstop]

end

end Serial
end Turnstile

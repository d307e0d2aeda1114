-- The service: instances started, addressed and stopped by requests.
import Turnstile.Http.Route
import Turnstile.Http.Target
import Turnstile.Supervisor.Dialogue

namespace Turnstile.Http

structure Request where
  method : String
  target : String
  body : Option Value
  deriving Repr, Inhabited

structure Response where
  status : Nat
  body : Option Value
  deriving Repr, Inhabited

namespace Response

def ok (status : Nat) (fields : List (String × Value)) : Response :=
  ⟨status, some (.record fields)⟩

def note (status : Nat) (text : String) : Response := ok status [("status", .text text)]

/-- A refusal with its reason. -/
def refusal (status : Nat) (detail : String) : Response := ok status [("detail", .text detail)]

/-- A response without a body: the request or the service itself is broken. -/
def bare (status : Nat) : Response := ⟨status, none⟩

/-- The response to a fault: reports of some kinds are refusals, all else is an error of the
service. -/
def ofFault (refusals : List (ReportKind × Nat)) (fault : Fault) : Response :=
  match fault with
  | .reported report =>
    match refusals.lookup report.kind with
    | some status => refusal status report.what
    | none => bare 500
  | _ => bare 500

/-- The response to a fault of addressing an instance. -/
def ofMissing (fault : Fault) : Response := ofFault [(.missing, 404)] fault

end Response

namespace Service

/-- The fields of a body that has to be a record. -/
def fieldsOf? (body : Option Value) : Option (List (String × Value)) :=
  match body with
  | some (.record fields) => some fields
  | _ => none

def get (fields : List (String × Value)) (key : String) : Value :=
  (fields.lookup key).getD .null

/-- Starts an instance. -/
def start (h : Host) (fields : List (String × Value)) : Host × Response :=
  match get fields "name" with
  | .text name =>
    if name.isEmpty then (h, .refusal 422 "'name' must be a non-empty string")
    else
      let choice := match (fields.lookup "fsm_type").getD (.text "") with
        | .text machine => .named machine
        | v => .other v
      match h.start choice (.text name) (get fields "payload") with
      | (h, .error fault) => (h, .ofFault [(.config, 404), (.start, 409)] fault)
      | (h, .ok t) =>
        let state := ((h.task? t).map (·.inst.runState.current)).getD ""
        (h, .ok 201 [("name", .text name), ("state", .text state)])
  | _ => (h, .refusal 422 "'name' must be a non-empty string")

/-- Sends a request for a transition. -/
def send (h : Host) (name : String) (fields : List (String × Value)) : Host × Response :=
  match h.send ⟨.text name, get fields "event", get fields "payload"⟩ with
  | .ok h => (h, .note 202 "sent")
  | .error fault => (h, .ofMissing fault)

/-- The response to the answer of an instance. -/
def answered (r : Host × Except Fault CallAnswer)
    (fields : Answer → List (String × Value)) : Host × Response :=
  match r with
  | (h, .ok (.answer a)) => (h, .ok 200 (fields a))
  | (h, .ok _) => (h, .bare 500)
  | (h, .error fault) => (h, .ofMissing fault)

def stateFields : Answer → List (String × Value)
  | .state rs => [("current", .text rs.current), ("payload", rs.payload),
      ("history", .texts rs.history)]
  | .flag _ => []

def flagFields (key : String) : Answer → List (String × Value)
  | .flag b => [(key, .bool b)]
  | .state _ => []

/-- The target that a state of a path names. -/
def targetOf (state : String) : Value :=
  if state = "[*]" then .terminal else .text state

/-- Asks an instance. -/
def ask (h : Host) (name : String) (kind : String) (argument : Value) :
    Host × Except Fault CallAnswer :=
  Host.await (h.query (.text name) kind argument)

/-- Handles a request whose route was found. -/
def handle (h : Host) (body : Option Value) : Route → Host × Response
  | .health => (h, .note 200 "ok")
  | .start =>
    match fieldsOf? body with
    | some fields => start h fields
    | none => (h, .bare 422)
  | .send name =>
    match fieldsOf? body with
    | some fields => send h name fields
    | none => (h, .bare 422)
  | .state name => answered (ask h name "state" .null) stateFields
  | .allowed name state =>
    answered (ask h name "allowed" (targetOf state)) (flagFields "allowed")
  | .responds name event =>
    answered (ask h name "responds" (.text event)) (flagFields "responds")
  | .stop name =>
    match Host.await (h.stop (.text name) none) with
    | (h, .ok _) => (h, .note 200 "stopped")
    | (h, .error fault) => (h, .ofMissing fault)

/-- Answers a request, and lets everything run that it set going. -/
def respond (h : Host) (r : Request) : Host × Response :=
  let (h, response) := match findRoute r.method (decodeTarget r.target) with
    | .found route => handle h r.body route
    | .wrongMethod => (h, .refusal 405 "Method Not Allowed")
    | .elsewhere => (h, .bare 307)
    | .nowhere => (h, .refusal 404 "Not Found")
  (h.settled, response)

/-- Answers some requests in turn. -/
def respondAll (h : Host) : List Request → List Response
  | [] => []
  | r :: rest =>
    let (h, response) := respond h r
    response :: respondAll h rest

end Service
end Turnstile.Http

-- The service as a map: under each live name stands a machine with a run state. There are no tasks
-- and no mailboxes here: a request is answered, and all that it leads to is done before the next one
-- comes.
import Mathlib.Logic.Function.Basic
import Turnstile.Http.Service
import Turnstile.Proofs.Instance.Serial

namespace Turnstile.Http

open Service (get fieldsOf?)

/-- The live names, and the calls of hooks so far, which later calls may go by. -/
structure Directory where
  live : String → Option (Machine × RunState)
  past : HookPast

namespace Directory

/-- No name is live. -/
def empty : Directory := ⟨fun _ => none, []⟩

/-- The directory in which something else stands under a name, or nothing. -/
def enter (d : Directory) (name : String) (entry : Option (Machine × RunState)) : Directory :=
  { d with live := Function.update d.live name entry }

/-- The response to a request for a name that is not live. -/
def missing (name : String) : Response :=
  .refusal 404 (LookupFault.noInstance (.text name)).report.what

/-- The response to a start under a name that is live. -/
def taken (name : String) (running : Machine) : Response :=
  .refusal 409 (LookupFault.nameTaken (.text name) running.name).report.what

/-- The response to a start without a name. -/
def nameless : Response := .refusal 422 "'name' must be a non-empty string"

/-- Starts an instance of a registered type under a name that is not live. -/
def startNamed (registry : Registry) (d : Directory) (name type : String) (payload : Value) :
    Directory × Response :=
  match registry.get type with
  | .error fault => (d, .refusal 404 fault.report.what)
  | .ok machine =>
    match d.live name with
    | some (running, _) => (d, taken name running)
    | none =>
      let rs : RunState := ⟨machine.table.initial, payload, []⟩
      (d.enter name (some (machine, rs)),
        .ok 201 [("name", .text name), ("state", .text rs.current)])

/-- The name is looked at first, then the type, then whether the name is live. A type that is no
text breaks the service, unless the name is live. -/
def start (registry : Registry) (d : Directory) (fields : List (String × Value)) :
    Directory × Response :=
  match get fields "name" with
  | .text name =>
    if name.isEmpty then (d, nameless)
    else
      match (fields.lookup "fsm_type").getD (.text "") with
      | .text type => startNamed registry d name type (get fields "payload")
      | _ =>
        match d.live name with
        | some (running, _) => (d, taken name running)
        | none => (d, .bare 500)
  | _ => (d, nameless)

/-- What stands under a name after a turn: what the turn has led to, or nothing if the instance has
stopped. -/
def settle (d : Directory) (name : String) (machine : Machine) (turn : Serial.Turn) : Directory :=
  match turn.stop with
  | none => { d.enter name (some (machine, turn.runState)) with past := turn.past }
  | some _ =>
    { d.enter name none with past := (.text name, .terminate turn.runState) :: turn.past }

/-- Hands a request to what stands under a name, which takes its turn at once. -/
def serve (d : Directory) (name : String) (request : Turnstile.Request) (response : Response) :
    Directory × Response :=
  match d.live name with
  | none => (d, missing name)
  | some (machine, rs) =>
    (d.settle name machine (Serial.serve machine (.text name) rs d.past request), response)

/-- Tells what is known of what stands under a name. -/
def tell (d : Directory) (name : String) (fields : Machine → RunState → List (String × Value)) :
    Directory × Response :=
  match d.live name with
  | none => (d, missing name)
  | some (machine, rs) => (d, .ok 200 (fields machine rs))

/-- The target that a state of a path names. -/
def targetOf (state : String) : Target := if state = "[*]" then .terminal else .state state

/-- Handles a request whose route was found. -/
def handle (registry : Registry) (d : Directory) (body : Option Value) : Route →
    Directory × Response
  | .health => (d, .note 200 "ok")
  | .start =>
    match fieldsOf? body with
    | some fields => start registry d fields
    | none => (d, .bare 422)
  | .send name =>
    match fieldsOf? body with
    | some fields =>
      d.serve name (.transition (get fields "event") (get fields "payload")) (.note 202 "sent")
    | none => (d, .bare 422)
  | .state name => d.tell name fun _ rs =>
    [("current", .text rs.current), ("payload", rs.payload), ("history", .texts rs.history)]
  | .allowed name state => d.tell name fun machine rs =>
    [("allowed", .bool (machine.table.allowed rs.current (targetOf state)))]
  | .responds name event => d.tell name fun machine rs =>
    [("responds", .bool (machine.table.respondsTo rs.current event))]
  | .stop name => d.serve name .stop (.note 200 "stopped")

/-- Answers a request. -/
def respond (registry : Registry) (d : Directory) (r : Request) : Directory × Response :=
  match findRoute r.method (decodeTarget r.target) with
  | .found route => handle registry d r.body route
  | .wrongMethod => (d, .refusal 405 "Method Not Allowed")
  | .elsewhere => (d, .bare 307)
  | .nowhere => (d, .refusal 404 "Not Found")

/-- Answers some requests in turn. -/
def respondAll (registry : Registry) (d : Directory) : List Request → List Response
  | [] => []
  | r :: rest =>
    let (d, response) := respond registry d r
    response :: respondAll registry d rest

end Directory
end Turnstile.Http

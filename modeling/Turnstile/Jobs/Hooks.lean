-- The machine of a job that is worked on, may fail, and is tried again a few times. Its
-- payload is a record of the job.
import Turnstile.Diagram.Compile
import Turnstile.Hooks.Catalogue
import Turnstile.Supervisor.Settings

namespace Turnstile.Jobs

/-- How often a job may be tried. -/
def maxAttempts : Nat := 3

def diagram : String := "\n".intercalate [
  "@startuml",
  "' Job lifecycle",
  "[*] --> idle : create",
  "idle --> processing : start_job",
  "processing --> complete : complete",
  "processing --> failed : fail",
  "processing --> idle : cancel",
  "failed --> processing : retry",
  "complete --> idle : reset",
  "complete --> [*] : archive",
  "failed --> [*] : abandon",
  "@enduml",
  ""]

/-- The state that an event leads to. -/
def targetOf (state event : String) : Option Value :=
  match state, event with
  | "idle", "start_job" => some (.text "processing")
  | "processing", "complete" => some (.text "complete")
  | "processing", "fail" => some (.text "failed")
  | "processing", "cancel" => some (.text "idle")
  | "failed", "retry" => some (.text "processing")
  | "complete", "reset" => some (.text "idle")
  | "complete", "archive" => some .terminal
  | "failed", "abandon" => some .terminal
  | _, _ => none

/-! ## The record of a job -/

/-- The text under which a value is a key. -/
def keyOf (v : Value) : Except Fault String :=
  match v with
  | .null => .ok "null"
  | .bool b => .ok (if b then "true" else "false")
  | v => if v.isKey then .ok v.plain else .error (.notKey v)

/-- The members of a value that has some. -/
def members? : Value → Option (List Value)
  | .text s => some (s.toList.map fun c => .text (String.ofList [c]))
  | .list items => some items
  | .record fields => some (fields.map fun (key, _) => .text key)
  | _ => none

/-- The fields that pairs of a key and a value give; `n` counts the pairs before. -/
def fieldsOf (fields : List (String × Value)) (n : Nat) :
    List Value → Except Fault (List (String × Value))
  | [] => .ok fields
  | item :: rest =>
    match members? item with
    | none => .error (.plain .type
        s!"cannot convert dictionary update sequence element #{n} to a sequence")
    | some [key, v] => do fieldsOf (Value.setField fields (← keyOf key) v) (n + 1) rest
    | some several => .error (.plain .value
        (s!"dictionary update sequence element #{n} has length {several.length}; " ++
          "2 is required"))

/-- The record of a job that a payload gives. Anything empty is an empty record. -/
def record (payload : Value) : Except Fault (List (String × Value)) :=
  if !payload.isTrue then .ok []
  else match payload with
  | .record fields => .ok fields
  | v => match members? v with
    | some items => fieldsOf [] 0 items
    | none => .error (.plain .type s!"'{v.typeName}' object is not iterable")

/-- How often a job was tried; a job without a count was not tried yet. -/
def attempts (job : List (String × Value)) : Except Fault Number :=
  match (job.lookup "attempts").getD (.int 0) with
  | .number n => .ok n
  | v => .error (.plain .type
      s!"'>=' not supported between instances of '{v.typeName}' and 'int'")

/-! ## Hooks -/

/-- The record of a job after an event, or the reason for a refusal. -/
def update (event : String) (payload : Value) (job : List (String × Value)) :
    Except Fault (Except String (List (String × Value))) :=
  match event with
  | "start_job" =>
    let job := Value.setField job "attempts" (.int 1)
    .ok (.ok (if payload.isTrue then Value.setField job "job_id" payload else job))
  | "retry" => do
    let n ← attempts job
    if n.geRat maxAttempts then return .error "too many attempts"
    return .ok (Value.setField job "attempts" (.number n.succ))
  | "fail" => .ok (.ok (Value.setField job "last_error" payload))
  | _ => .ok (.ok job)

/-- Decides a transition. -/
def answer (call : TransitionCall) : Except Fault Outcome :=
  let refused := .ok (.failure (.text (call.event.plain ++ " is not valid while " ++ call.state)))
  match call.event with
  | .text event =>
    match targetOf call.state event with
    | none => refused
    | some target => do
      match ← update event call.eventPayload (← record call.statePayload) with
      | .ok job => return .success target (.record job)
      | .error reason => return .failure (.text reason)
  | v => if v.isKey then refused else .error (.notKey v)

/-- The line about a refused event. -/
def rejectedLine (call : FailureCall) : String :=
  "  rejected " ++ call.event.literal ++ " in " ++ call.runState.current

/-- The line about a job that came to its end. -/
def finishedLine (rs : RunState) : String :=
  "  finished in " ++ rs.current ++ " with " ++ rs.payload.plain

/-- The hooks of a job, which belong to an owner of some name. -/
def hooks (owner : String) : Hooks where
  onTransition := some
    ⟨.method owner "on_transition", fun _ call => { result := answer call }⟩
  onFailure := some
    ⟨.method owner "on_failure", fun _ call =>
      { lines := [rejectedLine call], result := .ok () }⟩
  onTerminate := some
    ⟨.method owner "on_terminate", fun _ rs =>
      { lines := [finishedLine rs], result := .ok () }⟩

/-- The module that makes the hooks of a job known by a dotted path. -/
def hookModule (name : String) : HookModule where
  symbols := [
    ("MAX_ATTEMPTS", .value (.int maxAttempts)),
    ("JobHooks", .blueprint name "JobHooks"
      (.ok { typeName := "JobHooks", literal := "<JobHooks>", hooks := hooks "JobHooks" }))]

/-- The machine of a job. -/
def machine : Except DiagramFault Machine :=
  (Dialect.plantuml.compile diagram).map fun table =>
    .ofTable "job_processor" table (hooks "JobHooks")

def settings : Settings where
  shutdownTimeout := .real (.ofDecimal false 2 0)
  restart := .transient
  maxRestarts := .whole 3
  maxSeconds := .real (.ofDecimal false 5 0)

end Turnstile.Jobs

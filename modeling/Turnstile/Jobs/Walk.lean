-- One job taken through a list of events, and a demonstration that writes what it sees.
import Turnstile.Jobs.Hooks
import Turnstile.Supervisor.Dialogue

namespace Turnstile.Jobs

/-- What an event led to: the run state, and the lines written meanwhile. -/
structure WalkStep where
  result : Except Fault RunState
  written : List String

/-- What a list of events led to, and why the job stopped if it did. -/
structure Walk where
  steps : List WalkStep
  stopReason : Option StopReason

/-- A host that knows the machine of a job. -/
def host (m : Machine) : Host := { settings, registry := Registry.register [] m }

/-- Takes the steps of a walk. -/
def walkSteps (h : Host) (name : Value) : List (Value × Value) → Host × List WalkStep
  | [] => (h, [])
  | (event, payload) :: rest =>
    let (after, result) := h.sendAndAsk ⟨name, event, payload⟩
    let (last, steps) := walkSteps after name rest
    (last, ⟨result, after.lines.drop h.lines.length⟩ :: steps)

/-- Takes a job with a payload through some events, each with its own payload. -/
def walk (payload : Value) (events : List (Value × Value)) : Except Fault Walk :=
  match machine with
  | .error fault => .error (.reported fault.report)
  | .ok m =>
    let name := Value.text "job"
    match (host m).start (.given m) name payload with
    | (_, .error fault) => .error fault
    | (h, .ok t) =>
      let (h, steps) := walkSteps h name events
      .ok ⟨steps, h.stopReason t⟩

/-! ## The demonstration -/

/-- Writes a line about each transition and each refusal. -/
def reporter : Observer where
  accepts := fun _ => .ok true
  lines := fun
    | .transitioned name _ source target =>
      ["  [" ++ name.plain ++ "] " ++ source ++ " -> " ++ target]
    | .rejected name _ _ error => ["  [" ++ name.plain ++ "] " ++ error.report.what]
    | _ => []
  result := fun _ => .ok ()

/-- A bus that the reporter has subscribed to, behind everyone else. -/
def reportingBus : Except Fault (Bus Observer) := do
  let (bus, _) ← Bus.subscribe {} "fsm.transitioned" reporter (.int 5)
  let (bus, _) ← bus.subscribe "fsm.rejected" reporter (.int 5)
  return bus

/-- The events of the demonstration. The last one is not valid while idle. -/
def demoEvents : List (String × Value) := [
  ("start_job", .text "report-42"),
  ("complete", .null),
  ("reset", .null),
  ("start_job", .text "report-43"),
  ("fail", .text "disk full"),
  ("retry", .null),
  ("cancel", .null),
  ("archive", .null)]

/-- Sends the events of the demonstration, each under a line of its own. -/
def demoSteps (h : Host) (name : Value) (last : RunState) :
    List (String × Value) → Except Fault (Host × RunState)
  | [] => .ok (h, last)
  | (event, payload) :: rest =>
    let h := (h.write "").write ("Sending: " ++ event)
    match h.sendAndAsk ⟨name, .text event, payload⟩ with
    | (_, .error fault) => .error fault
    | (h, .ok rs) => demoSteps h name rs rest

/-- The lines of the demonstration. -/
def demo : Except Fault (List String) := do
  let m ← machine.mapError fun fault => .reported fault.report
  let name := Value.text "job-1"
  let h := { host m with bus := ← reportingBus }
  let h := ((h.write "").write "--- Running job workflow demo ---").write ""
  let (h, started) := h.start (.named m.name) name (.record [])
  let t ← started
  let (h, first) := h.stateOf name
  let h := h.write ("Current state: " ++ (← first).current)
  let (h, rs) ← demoSteps h name (← first) demoEvents
  let h := (h.write "").write ("Current state: " ++ rs.current)
  let h := h.write ("History: " ++ " <- ".intercalate rs.history)
  let h ← h.send ⟨name, .text "start_job", .text "report-44"⟩
  let h ← h.send ⟨name, .text "complete", .null⟩
  let h ← h.send ⟨name, .text "archive", .null⟩
  let (h, ended) := Host.await (h.wait name)
  let _ ← ended
  let reason := ((h.stopReason t).map (·.text)).getD "None"
  let h := (h.write "").write ("Stopped: " ++ reason)
  return h.lines

end Turnstile.Jobs

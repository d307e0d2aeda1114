-- Calls made one after another by one caller, who goes on as soon as each has its result,
-- and not only when nothing is left to run.
import Turnstile.Supervisor.Calls

namespace Turnstile.Host

/-- The result of a call once there is one. A call that never gets one counts as called off. -/
def await (r : Host × Returned) : Host × Except Fault CallAnswer :=
  match r with
  | (h, .now result) => (h, result)
  | (h, .later c) =>
    let h := h.settleCall 1000000 c
    (h, (h.result? c).getD (.error .cancellation))

/-- The run state of the holder of a name, once all earlier requests are through. -/
def stateOf (h : Host) (name : Value) : Host × Except Fault RunState :=
  match await (h.query name "state" .null) with
  | (h, .ok (.answer (.state rs))) => (h, .ok rs)
  | (h, .ok _) => (h, .error .cancellation)
  | (h, .error fault) => (h, .error fault)

/-- Sends a request and asks for the run state that it leads to. -/
def sendAndAsk (h : Host) (s : Send) : Host × Except Fault RunState :=
  match h.send s with
  | .error fault => (h, .error fault)
  | .ok h => h.stateOf s.name

/-- The lines written so far. -/
def lines (h : Host) : List String :=
  h.events.filterMap fun
    | .line text => some text
    | _ => none

/-- Writes a line. -/
def write (h : Host) (text : String) : Host := h.see (.line text)

/-- Why the instance of a task stopped. -/
def stopReason (h : Host) (t : Nat) : Option StopReason :=
  (h.task? t).bind (·.inst.stopReason)

/-- Cancels all tasks that still go on, and lets everything run. -/
def cancelAll (h : Host) : Host :=
  ((List.range h.tasks.length).foldl (fun h t => (h.cancelTask t).1) h).settled

end Turnstile.Host

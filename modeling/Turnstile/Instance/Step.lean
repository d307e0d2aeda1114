-- The body of an instance's task, one stimulus at a time. It takes requests from the
-- mailbox in order; a transition commits as a whole or leaves the run state alone; and on
-- every way out the mailbox is emptied and the terminate hook is called.
import Turnstile.Instance.Basic

namespace Turnstile.Instance

/-! ## The way out -/

/-- What happens to a request that is left in the mailbox. -/
def dropRequest (i : Instance) : Request → List Effect
  | .query call _ abandoned =>
    if abandoned then [] else [.answer call (.error (missing i.name))]
  | .transition event _ =>
    [i.record .debug (" dropped " ++ event.literal ++ ": instance stopped")]
  | .stop => []

/-- Leaves the loop: drops what is in the mailbox and calls the terminate hook. -/
def leave (i : Instance) (ending : Ending) : Instance × List Effect :=
  ({ i with mailbox := [], phase := .terminating ending },
    i.mailbox.flatMap i.dropRequest ++ [.askTerminate i.runState])

/-- Leaves the loop because of a cancellation. -/
def kill (i : Instance) : Instance × List Effect :=
  (i.markStopped .killed).leave .cancelled

/-- Leaves the loop because of a fault that cannot be contained. -/
def crashWith (i : Instance) (fault : Fault) : Instance × List Effect :=
  let (i', effects) := ({ i with crash := some fault }.markStopped .crash).leave (.failed fault)
  (i', i.record .exception (" crashed: " ++ fault.message) :: effects)

/-- What a fault does that is not contained: a cancellation kills, any other crashes. -/
def escape (i : Instance) (fault : Fault) : Instance × List Effect :=
  if fault.isCancellation then i.kill else i.crashWith fault

/-- Whether a fault of a hook leaves the loop. -/
def escapes (fault : Fault) : Bool := fault.isCancellation || fault.isExhaustion

/-! ## Requests -/

/-- The answer to a question in the current state. -/
def answerTo (i : Instance) : Question → Except Fault Answer
  | .state => .ok (.state i.runState)
  | .allowed target =>
    .ok (.flag (i.machine.table.allowedValue (.text i.runState.current) target))
  | .responds event =>
    (i.machine.table.respondsToValue (.text i.runState.current) event).map .flag

/-- Handles a request from the mailbox. -/
def handle (i : Instance) : Request → Instance × List Effect
  | .stop => (i.markStopped .stop).leave .returned
  | .query call question abandoned =>
    if abandoned then (i, [])
    else
      let result := i.answerTo question
      let warning := match result with
        | .ok _ => []
        | .error fault =>
          [i.record .warning (" " ++ question.kind ++ " query failed: " ++ fault.literal)]
      (i, warning ++ [.answer call result])
  | .transition event payload =>
    ({ i with phase := .deciding event payload },
      [.askTransition ⟨i.runState.current, event, payload, i.runState.payload⟩])

/-! ## Outcomes -/

/-- Refuses a request: the failure hook is called, and the run state stays. -/
def reject (i : Instance) (event payload : Value) (rejection : Rejection) :
    Instance × List Effect :=
  ({ i with phase := .reporting event payload rejection },
    [i.record .warning (" transition failed: " ++ rejection.report.what),
      .askFailure ⟨event, payload, i.runState⟩])

/-- Commits a transition. -/
def commit (i : Instance) (event : Value) (state : String) (payload : Value) :
    Instance × List Effect :=
  ({ i with runState := i.runState.move state payload, phase := .publishing },
    [i.record .info (" transitioned to " ++ state),
      .publish (.transitioned i.name event i.runState.current state)])

/-- Takes the edge out of the diagram. -/
def finishRun (i : Instance) (event : Value) : Instance × List Effect :=
  let (i', effects) := (i.markStopped .terminal).leave .returned
  (i', i.record .info (" reached the terminal state on " ++ event.literal) :: effects)

/-- What the outcome of the transition hook leads to. -/
def settleOutcome (i : Instance) (event payload : Value) (outcome : Outcome) :
    Instance × List Effect :=
  let state := Value.text i.runState.current
  match outcome with
  | .rejected rejection => i.reject event payload rejection
  | .failure reason => i.reject event payload (.refused event state reason)
  | .other v => i.reject event payload (.refused event state v)
  | .success target newPayload =>
    match Target.ofValue? target with
    | none => i.reject event payload (.undeclared event state target)
    | some x =>
      if i.machine.table.allowed i.runState.current x then
        match x with
        | .terminal => i.finishRun event
        | .state s => i.commit event s newPayload
      else i.reject event payload (.undeclared event state target)

/-- The end of the transition hook. -/
def decide (i : Instance) (event payload : Value) (result : Except Fault Outcome) :
    Instance × List Effect :=
  match result with
  | .ok outcome => i.settleOutcome event payload outcome
  | .error fault =>
    if escapes fault then i.escape fault
    else
      let (i', effects) :=
        i.reject event payload (.raised event (.text i.runState.current) fault)
      (i', i.record .warning (" on_transition raised: " ++ fault.literal) :: effects)

/-- The end of the failure hook. -/
def report (i : Instance) (event : Value) (rejection : Rejection) (result : Except Fault Unit) :
    Instance × List Effect :=
  let publish : Instance × List Effect :=
    ({ i with phase := .publishing },
      [.publish (.rejected i.name event i.runState.current rejection)])
  match result with
  | .ok _ => publish
  | .error fault =>
    if escapes fault then i.escape fault
    else (publish.1, i.record .warning (" on_failure raised: " ++ fault.literal) :: publish.2)

/-- The end of the terminate hook. Only a cancellation is let through. -/
def terminate (i : Instance) (ending : Ending) (result : Except Fault Unit) :
    Instance × List Effect :=
  let publish : Instance × List Effect :=
    ({ i with phase := .announcing ending },
      [.publish (.terminated i.name i.stopReason i.runState)])
  match result with
  | .ok _ => publish
  | .error fault =>
    if fault.isCancellation then ({ i with phase := .finished .cancelled }, [])
    else (publish.1, i.record .warning (" on_terminate raised: " ++ fault.literal) :: publish.2)

/-! ## The step -/

/-- The first step. -/
def begin (i : Instance) : Instance × List Effect :=
  ({ i with phase := .publishing },
    [i.record .info (" started in " ++ i.runState.current),
      .publish (.started i.name i.machine.name i.runState.current)])

/-- The stimulus that a cancellation amounts to where the body waits: the awaited answer is
a cancellation. -/
def cancellation (i : Instance) : Stimulus :=
  match i.phase with
  | .deciding .. => .decided (.error .cancellation)
  | .reporting .. | .terminating _ => .handled (.error .cancellation)
  | .publishing | .announcing _ => .published (.error .cancellation)
  | .fresh | .idle | .finished _ => .cancel

/-- Moves the body of an instance's task on. A stimulus that does not fit where the body
stands changes nothing. -/
def step (i : Instance) (s : Stimulus) : Instance × List Effect :=
  match i.phase, s with
  | .fresh, .start => i.begin
  | .fresh, .cancel => ({ i with phase := .finished .cancelled }, [])
  | .idle, .receive =>
    match i.mailbox with
    | [] => (i, [])
    | r :: rest => { i with mailbox := rest }.handle r
  | .idle, .cancel => i.kill
  | .deciding event payload, .decided result => i.decide event payload result
  | .reporting event _ rejection, .handled result => i.report event rejection result
  | .publishing, .published result =>
    match result with
    | .ok _ => ({ i with phase := .idle }, [])
    | .error fault => i.escape fault
  | .terminating ending, .handled result => i.terminate ending result
  | .announcing ending, .published result =>
    match result with
    | .ok _ => ({ i with phase := .finished ending }, [])
    | .error fault =>
      ({ i with phase := .finished (if fault.isCancellation then .cancelled else .failed fault) },
        [])
  | _, _ => (i, [])

end Turnstile.Instance

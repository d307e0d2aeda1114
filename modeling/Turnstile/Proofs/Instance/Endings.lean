-- Why and when an instance stops. The first cause that its body meets decides, once and for all; the
-- terminate hook is called then, with the last run state, and no hook is called after it.
import Turnstile.Proofs.Instance.Entered

namespace Turnstile

/-! ## Causes and calls -/

/-- What stops an instance: the edge out of the diagram, a request, a fault, or a cancellation. -/
inductive Cause where
  | terminal
  | stop
  | crash (fault : Fault)
  | killed
  deriving Repr, Inhabited

namespace Cause

/-- The reason that is noted for a cause. -/
def reason : Cause → StopReason
  | .terminal => .terminal
  | .stop => .stop
  | .crash _ => .crash
  | .killed => .killed

/-- The fault that is noted for a cause. -/
def fault? : Cause → Option Fault
  | .crash fault => some fault
  | .terminal | .stop | .killed => none

/-- A fault that nothing contains is a crash, unless it is a cancellation. -/
def ofFault (fault : Fault) : Cause := if fault.isCancellation then .killed else .crash fault

/-- A fault is noted exactly for a crash. -/
theorem fault?_isSome (c : Cause) : c.fault?.isSome ↔ c.reason = .crash := by
  cases c <;> simp [fault?, reason]

end Cause

/-- The call of a hook that an effect asks for. -/
def Effect.call? : Effect → Option HookCall
  | .askTransition call => some (.transition call)
  | .askFailure call => some (.failure call)
  | .askTerminate runState => some (.terminate runState)
  | .log .. | .publish _ | .answer .. => none

/-- The calls of hooks among some effects, in their order. -/
def calls (effects : List Effect) : List HookCall := effects.filterMap Effect.call?

theorem calls_append (effects more : List Effect) :
    calls (effects ++ more) = calls effects ++ calls more := List.filterMap_append

/-- The run state that the terminate hook is told. -/
def HookCall.terminated? : HookCall → Option RunState
  | .terminate runState => some runState
  | .transition _ | .failure _ => none

namespace Instance

/-- What a stimulus is a cause of, for a body that is in the loop: a request to stop that is next, a
success on an edge out of the diagram, a cancellation where the body waits, a fault of a hook that
is a cancellation or exhaustion, any fault of a delivery. -/
def cause? (i : Instance) (s : Stimulus) : Option Cause :=
  match i.phase, s with
  | .idle, .receive =>
    match i.mailbox with
    | .stop :: _ => some .stop
    | _ => none
  | .idle, .cancel => some .killed
  | .deciding .., .decided (.ok (.success .terminal _)) =>
    if i.machine.table.allowed i.runState.current .terminal then some .terminal else none
  | .deciding .., .decided (.error fault) =>
    if fault.isCancellation || fault.isExhaustion then some (.ofFault fault) else none
  | .reporting .., .handled (.error fault) =>
    if fault.isCancellation || fault.isExhaustion then some (.ofFault fault) else none
  | .publishing, .published (.error fault) => some (.ofFault fault)
  | _, _ => none

/-- What a move is a cause of. -/
def causeOf (i : Instance) : Move → Option Cause
  | .stimulus s => i.cause? s
  | .post _ | .abandon _ => none

/-- The first cause that comes up in the course of some moves. -/
def firstCause (i : Instance) : List Move → Option Cause
  | [] => none
  | m :: moves => (i.causeOf m).or ((i.move m).firstCause moves)

/-- The calls of hooks that a move asks for. -/
def callsOf (i : Instance) : Move → List HookCall
  | .stimulus s => calls (i.step s).2
  | .post _ | .abandon _ => []

/-- The calls of hooks in the course of some moves, in their order. -/
def callsDuring (i : Instance) : List Move → List HookCall
  | [] => []
  | m :: moves => i.callsOf m ++ (i.move m).callsDuring moves

/-! ## One step in the loop -/

variable {i : Instance}

/-- The body stays in the loop: nothing is noted, and the terminate hook is not called. -/
structure GoesOn (i : Instance) (next : Instance × List Effect) : Prop where
  begun : next.1.phase ≠ .fresh
  inside : next.1.phase.isOut = false
  alive : next.1.alive = i.alive
  stopReason : next.1.stopReason = i.stopReason
  crash : next.1.crash = i.crash
  calls : (calls next.2).filterMap HookCall.terminated? = []

/-- The body leaves the loop for a cause: the cause is noted, the run state stays, and the terminate
hook is called with it, and no other hook. -/
structure Leaves (i : Instance) (c : Cause) (next : Instance × List Effect) : Prop where
  out : next.1.phase.isOut = true
  alive : next.1.alive = false
  stopReason : next.1.stopReason = some c.reason
  crash : next.1.crash = c.fault?
  runState : next.1.runState = i.runState
  calls : calls next.2 = [.terminate i.runState]

/-- The body stays in the loop as long as there is no cause to leave it. -/
def Meets (i : Instance) (cause : Option Cause) (next : Instance × List Effect) : Prop :=
  match cause with
  | none => i.GoesOn next
  | some c => i.Leaves c next

theorem calls_dropRequest (i : Instance) (r : Request) : calls (i.dropRequest r) = [] := by
  cases r with
  | query call question abandoned => cases abandoned <;> rfl
  | transition event payload => rfl
  | stop => rfl

theorem calls_drop (i : Instance) (requests : List Request) :
    calls (requests.flatMap i.dropRequest) = [] := by
  induction requests with
  | nil => rfl
  | cons r requests ih => rw [List.flatMap_cons, calls_append, calls_dropRequest, ih]; rfl

theorem calls_leave (i : Instance) (ending : Ending) :
    calls (i.leave ending).2 = [.terminate i.runState] := by
  show calls (i.mailbox.flatMap i.dropRequest ++ [.askTerminate i.runState]) = _
  rw [calls_append, calls_drop]
  rfl

section
variable (halive : i.alive = true)
include halive

theorem markStopped_of_alive (reason : StopReason) :
    i.markStopped reason = { i with alive := false, stopReason := some reason } := by
  unfold markStopped
  rw [if_pos halive]

theorem leaves_markStopped {c : Cause} (hcrash : i.crash = c.fault?) (ending : Ending) :
    i.Leaves c ((i.markStopped c.reason).leave ending) := by
  rw [markStopped_of_alive halive]
  exact ⟨rfl, rfl, rfl, hcrash, rfl, calls_leave _ ending⟩

theorem leaves_escape (hcrash : i.crash = none) (fault : Fault) :
    i.Leaves (.ofFault fault) (i.escape fault) := by
  unfold escape Cause.ofFault
  split
  · exact leaves_markStopped halive (c := .killed) hcrash .cancelled
  · have hleave := leaves_markStopped (i := { i with crash := some fault }) halive
      (c := .crash fault) rfl (.failed fault)
    exact ⟨hleave.out, hleave.alive, hleave.stopReason, hleave.crash, hleave.runState,
      hleave.calls⟩

end

theorem goesOn_reject (i : Instance) (event payload : Value) (rejection : Rejection) :
    i.GoesOn (i.reject event payload rejection) := ⟨nofun, rfl, rfl, rfl, rfl, rfl⟩

/-- A fault of a hook is a cause exactly if it leaves the loop. -/
theorem meets_fault (halive : i.alive = true) (hcrash : i.crash = none) (fault : Fault)
    {next : Instance × List Effect} (hnext : i.GoesOn next) :
    i.Meets (if fault.isCancellation || fault.isExhaustion then some (.ofFault fault) else none)
      (if escapes fault then i.escape fault else next) := by
  unfold escapes
  by_cases hescapes : (fault.isCancellation || fault.isExhaustion) = true
  · rw [if_pos hescapes, if_pos hescapes]
    exact leaves_escape halive hcrash fault
  · rw [if_neg hescapes, if_neg hescapes]
    exact hnext

theorem meets_handle (halive : i.alive = true) (hcrash : i.crash = none) (hphase : i.phase = .idle)
    (r : Request) : i.Meets (match r with | .stop => some .stop | _ => none) (i.handle r) := by
  cases r with
  | stop => exact leaves_markStopped halive (c := .stop) hcrash .returned
  | transition event payload => exact ⟨nofun, rfl, rfl, rfl, rfl, rfl⟩
  | query call question abandoned =>
    have hstay : ∀ effects, calls effects = [] → i.GoesOn (i, effects) := by
      intro effects hcalls
      exact ⟨by rw [hphase]; nofun, by rw [hphase]; rfl, rfl, rfl, rfl, by rw [hcalls]; rfl⟩
    show i.GoesOn (i.handle (.query call question abandoned))
    unfold handle
    simp only
    split
    · exact hstay [] rfl
    · apply hstay
      cases i.answerTo question <;> rfl

theorem meets_decide (halive : i.alive = true) (hcrash : i.crash = none) {event payload : Value}
    (hphase : i.phase = .deciding event payload) (result : Except Fault Outcome) :
    i.Meets (i.cause? (.decided result)) (i.decide event payload result) := by
  unfold decide cause?
  rw [hphase]
  cases result with
  | error fault => exact meets_fault halive hcrash fault ⟨by simp [reject], rfl, rfl, rfl, rfl, rfl⟩
  | ok outcome =>
    cases outcome with
    | failure reason => exact i.goesOn_reject _ _ _
    | rejected rejection => exact i.goesOn_reject _ _ _
    | other v => exact i.goesOn_reject _ _ _
    | success target newPayload =>
      cases target with
      | terminal =>
        simp only [settleOutcome, Target.ofValue?]
        by_cases hallowed : i.machine.table.allowed i.runState.current .terminal = true
        · rw [if_pos hallowed, if_pos hallowed]
          have hleave := leaves_markStopped halive (c := .terminal) hcrash .returned
          exact ⟨hleave.out, hleave.alive, hleave.stopReason, hleave.crash, hleave.runState,
            hleave.calls⟩
        · rw [if_neg hallowed, if_neg hallowed]
          exact i.goesOn_reject _ _ _
      | text s =>
        simp only [settleOutcome, Target.ofValue?]
        split
        · exact ⟨by simp [commit], rfl, rfl, rfl, rfl, rfl⟩
        · exact i.goesOn_reject _ _ _
      | _ => exact i.goesOn_reject _ _ _

theorem meets_report (halive : i.alive = true) (hcrash : i.crash = none) {event payload : Value}
    {rejection : Rejection} (hphase : i.phase = .reporting event payload rejection)
    (result : Except Fault Unit) :
    i.Meets (i.cause? (.handled result)) (i.report event rejection result) := by
  unfold report cause?
  rw [hphase]
  cases result with
  | ok _ => exact ⟨nofun, rfl, rfl, rfl, rfl, rfl⟩
  | error fault => exact meets_fault halive hcrash fault ⟨nofun, rfl, rfl, rfl, rfl, rfl⟩

/-- A body in the loop leaves it exactly where there is a cause. -/
theorem meets_step (halive : i.alive = true) (hcrash : i.crash = none)
    (hbegun : i.phase ≠ .fresh) (hinside : i.phase.isOut = false) (s : Stimulus) :
    i.Meets (i.cause? s) (i.step s) := by
  -- a stimulus that does not fit where the body stands
  have hstay : i.cause? s = none → i.step s = (i, []) → i.Meets (i.cause? s) (i.step s) := by
    intro hnone hsame
    rw [hnone, hsame]
    exact ⟨hbegun, hinside, rfl, rfl, rfl, rfl⟩
  cases hphase : i.phase with
  | fresh => exact absurd hphase hbegun
  | idle =>
    cases s with
    | receive =>
      cases hmailbox : i.mailbox with
      | nil => exact hstay (by simp [cause?, hphase, hmailbox]) (by simp [step, hphase, hmailbox])
      | cons r rest =>
        have hhandle := meets_handle (i := { i with mailbox := rest }) halive hcrash hphase r
        have hstep : i.step .receive = { i with mailbox := rest }.handle r := by
          simp [step, hphase, hmailbox]
        rw [hstep]
        cases r with
        | stop =>
          rw [show i.cause? .receive = some .stop by simp [cause?, hphase, hmailbox]]
          exact ⟨hhandle.out, hhandle.alive, hhandle.stopReason, hhandle.crash, hhandle.runState,
            hhandle.calls⟩
        | _ =>
          rw [show i.cause? .receive = none by simp [cause?, hphase, hmailbox]]
          exact ⟨hhandle.begun, hhandle.inside, hhandle.alive, hhandle.stopReason, hhandle.crash,
            hhandle.calls⟩
    | cancel =>
      rw [show i.cause? .cancel = some .killed by simp [cause?, hphase],
        show i.step .cancel = i.kill by simp [step, hphase]]
      exact leaves_markStopped halive (c := .killed) hcrash .cancelled
    | _ => exact hstay (by simp [cause?, hphase]) (by simp [step, hphase])
  | deciding event payload =>
    cases s with
    | decided result =>
      rw [show i.step (.decided result) = i.decide event payload result by simp [step, hphase]]
      exact meets_decide halive hcrash hphase result
    | _ => exact hstay (by simp [cause?, hphase]) (by simp [step, hphase])
  | reporting event payload rejection =>
    cases s with
    | handled result =>
      rw [show i.step (.handled result) = i.report event rejection result by simp [step, hphase]]
      exact meets_report halive hcrash hphase result
    | _ => exact hstay (by simp [cause?, hphase]) (by simp [step, hphase])
  | publishing =>
    cases s with
    | published result =>
      cases result with
      | ok _ =>
        rw [show i.cause? (.published (.ok ())) = none by simp [cause?, hphase],
          show i.step (.published (.ok ())) = ({ i with phase := .idle }, []) by simp [step, hphase]]
        exact ⟨nofun, rfl, rfl, rfl, rfl, rfl⟩
      | error fault =>
        rw [show i.cause? (.published (.error fault)) = some (.ofFault fault) by
            simp [cause?, hphase],
          show i.step (.published (.error fault)) = i.escape fault by simp [step, hphase]]
        exact leaves_escape halive hcrash fault
    | _ => exact hstay (by simp [cause?, hphase]) (by simp [step, hphase])
  | terminating ending => rw [hphase] at hinside; cases hinside
  | announcing ending => rw [hphase] at hinside; cases hinside
  | finished ending => rw [hphase] at hinside; cases hinside

/-! ## One step outside the loop -/

/-- Nothing that is noted changes, and no hook is called. -/
structure Rests (i : Instance) (next : Instance × List Effect) : Prop where
  out : next.1.phase.isOut = true
  alive : next.1.alive = i.alive
  stopReason : next.1.stopReason = i.stopReason
  crash : next.1.crash = i.crash
  runState : next.1.runState = i.runState
  calls : calls next.2 = []

/-- A body that has left the loop only ends. -/
theorem rests_step (hout : i.phase.isOut = true) (s : Stimulus) : i.Rests (i.step s) := by
  have hsame : i.step s = (i, []) → i.Rests (i.step s) := by
    intro hsame
    rw [hsame]
    exact ⟨hout, rfl, rfl, rfl, rfl, rfl⟩
  cases hphase : i.phase with
  | terminating ending =>
    cases s with
    | handled result =>
      rw [show i.step (.handled result) = i.terminate ending result by simp [step, hphase]]
      unfold terminate
      split
      · exact ⟨rfl, rfl, rfl, rfl, rfl, rfl⟩
      · split <;> exact ⟨rfl, rfl, rfl, rfl, rfl, rfl⟩
    | _ => exact hsame (by simp [step, hphase])
  | announcing ending =>
    cases s with
    | published result =>
      unfold step
      rw [hphase]
      cases result <;> exact ⟨rfl, rfl, rfl, rfl, rfl, rfl⟩
    | _ => exact hsame (by simp [step, hphase])
  | finished ending => exact hsame (by simp [step, hphase])
  | _ => rw [hphase] at hout; cases hout

/-! ## Moves -/

/-- What an instance bears that has met a cause, or none so far: its body is out of the loop if it
has, and the cause is all that is noted. -/
structure Bears (i : Instance) (cause : Option Cause) : Prop where
  begun : i.phase ≠ .fresh
  out : i.phase.isOut = cause.isSome
  alive : i.alive = cause.isNone
  stopReason : i.stopReason = cause.map Cause.reason
  crash : i.crash = cause.bind Cause.fault?

theorem bears_same {j : Instance} {cause : Option Cause} (h : i.Bears cause)
    (hphase : j.phase = i.phase) (halive : j.alive = i.alive)
    (hreason : j.stopReason = i.stopReason) (hcrash : j.crash = i.crash) : j.Bears cause :=
  ⟨hphase ▸ h.begun, (congrArg Phase.isOut hphase).trans h.out, halive.trans h.alive,
    hreason.trans h.stopReason, hcrash.trans h.crash⟩

theorem Bears.post {cause : Option Cause} (h : i.Bears cause) (r : Request) :
    (i.move (.post r)).Bears cause := by
  simp only [move, Instance.post]
  by_cases halive : i.alive = true
  · rw [if_pos halive]
    exact bears_same h rfl rfl rfl rfl
  · rw [if_neg halive]
    exact h

/-- A body in the loop meets what the move is a cause of; the terminate hook is called if that is
something. -/
theorem Bears.meets (h : i.Bears none) (m : Move) :
    (i.move m).Bears (i.causeOf m) ∧
      (i.callsOf m).filterMap HookCall.terminated? = (i.causeOf m).toList.map fun _ => i.runState := by
  cases m with
  | post r => exact ⟨h.post r, rfl⟩
  | abandon call => exact ⟨bears_same h rfl rfl rfl rfl, rfl⟩
  | stimulus s =>
    have hmeets := meets_step h.alive h.crash h.begun h.out s
    simp only [move, causeOf, callsOf]
    cases hcause : i.cause? s with
    | none =>
      rw [hcause] at hmeets
      exact ⟨⟨hmeets.begun, hmeets.inside, hmeets.alive.trans h.alive,
        hmeets.stopReason.trans h.stopReason, hmeets.crash.trans h.crash⟩, hmeets.calls⟩
    | some c =>
      rw [hcause] at hmeets
      have hbegun : (i.step s).1.phase ≠ .fresh := by
        intro hfresh
        have hout := hmeets.out
        rw [hfresh] at hout
        cases hout
      exact ⟨⟨hbegun, hmeets.out, hmeets.alive, hmeets.stopReason, hmeets.crash⟩, by
        rw [hmeets.calls]; rfl⟩

/-- Once there was a cause, a move changes nothing that is noted, and calls no hook. -/
theorem Bears.rests {c : Cause} (h : i.Bears (some c)) (m : Move) :
    (i.move m).Bears (some c) ∧ (i.move m).runState = i.runState ∧ i.callsOf m = [] := by
  cases m with
  | post r => exact ⟨h.post r, (i.post_becomes r).runState, rfl⟩
  | abandon call => exact ⟨bears_same h rfl rfl rfl rfl, rfl, rfl⟩
  | stimulus s =>
    have hrests := rests_step h.out s
    have hbegun : (i.step s).1.phase ≠ .fresh := by
      intro hfresh
      have hout := hrests.out
      rw [hfresh] at hout
      cases hout
    exact ⟨⟨hbegun, hrests.out, hrests.alive.trans h.alive, hrests.stopReason.trans h.stopReason,
      hrests.crash.trans h.crash⟩, hrests.runState, hrests.calls⟩

/-! ## Runs -/

theorem Bears.rests_after {c : Cause} (h : i.Bears (some c)) (moves : List Move) :
    (i.after moves).Bears (some c) ∧ (i.after moves).runState = i.runState ∧
      i.callsDuring moves = [] := by
  induction moves generalizing i with
  | nil => exact ⟨h, rfl, rfl⟩
  | cons m moves ih =>
    obtain ⟨hmove, hrunState, hcalls⟩ := h.rests m
    obtain ⟨hafter, hrunState', hcalls'⟩ := ih hmove
    refine ⟨hafter, hrunState'.trans hrunState, ?_⟩
    rw [callsDuring, hcalls, hcalls']
    rfl

/-- In every run of a body that is in the loop, the first cause is what is noted in the end, and the
terminate hook is called once if there is one. -/
theorem Bears.meets_after (h : i.Bears none) (moves : List Move) :
    (i.after moves).Bears (i.firstCause moves) ∧
      (i.callsDuring moves).filterMap HookCall.terminated? =
        (i.firstCause moves).toList.map fun _ => (i.after moves).runState := by
  induction moves generalizing i with
  | nil => exact ⟨h, rfl⟩
  | cons m moves ih =>
    obtain ⟨hmove, hcalls⟩ := h.meets m
    have hafter : i.after (m :: moves) = (i.move m).after moves := rfl
    rw [hafter, firstCause, callsDuring, List.filterMap_append, hcalls]
    cases hcause : i.causeOf m with
    | none =>
      rw [hcause] at hmove
      exact ih hmove
    | some c =>
      rw [hcause] at hmove
      obtain ⟨hafter, hrunState, hrest⟩ := hmove.rests_after moves
      have hkept : (i.move m).runState = i.runState := by
        cases m with
        | post r => cases hcause
        | abandon call => cases hcause
        | stimulus s =>
          have hmeets := meets_step h.alive h.crash h.begun h.out s
          rw [show i.cause? s = some c from hcause] at hmeets
          exact hmeets.runState
      rw [hrest, hrunState, hkept]
      exact ⟨hafter, rfl⟩

/-- A body that has not begun after a step had not begun before, and the step did nothing. -/
theorem Placed.step_of_fresh (h : i.Placed) {s : Stimulus} (hfresh : (i.step s).1.phase = .fresh) :
    (i.step s).1 = i := by
  rcases h with hphase | ⟨ending, hphase⟩ | hentered
  · cases s with
    | start => simp [Instance.step, hphase, begin] at hfresh
    | cancel => simp [Instance.step, hphase] at hfresh
    | _ => simp [Instance.step, hphase]
  · rw [step_finished hphase]
  · exact absurd hfresh (hentered.step s).begun

/-! ## From the request to its outcome -/

/-- What the transition hook is told of a request. -/
def transitionCall (i : Instance) (event payload : Value) : TransitionCall :=
  ⟨i.runState.current, event, payload, i.runState.payload⟩

/-- Where a body stands that leaves the loop because of a fault. -/
theorem escape_phase (i : Instance) (fault : Fault) :
    ∃ ending, (i.escape fault).1.phase = .terminating ending := by
  unfold escape
  split <;> exact ⟨_, rfl⟩

/-- The outcome of a request ends the wait for the transition hook. -/
theorem decide_phase (i : Instance) (event payload : Value) (result : Except Fault Outcome) :
    ∀ e p, (i.decide event payload result).1.phase ≠ .deciding e p := by
  intro e p
  unfold decide
  split
  · unfold settleOutcome
    simp only
    split
    · nofun
    · nofun
    · nofun
    · split
      · nofun
      · split
        · split <;> nofun
        · nofun
  · split
    · rename_i fault _
      obtain ⟨ending, hphase⟩ := i.escape_phase fault
      rw [hphase]
      nofun
    · nofun

/-- A step after which the body waits for the transition hook took a request from the mailbox, or
did nothing. -/
theorem step_deciding {event payload : Value} {s : Stimulus}
    (hphase : (i.step s).1.phase = .deciding event payload) :
    i.step s = (i, []) ∨ s = .receive ∧ i.phase = .idle ∧
      ∃ rest, i.mailbox = .transition event payload :: rest ∧
        i.step s = ({ i with mailbox := rest, phase := .deciding event payload },
          [.askTransition (i.transitionCall event payload)]) := by
  have hescape : ∀ fault, (i.escape fault).1.phase ≠ .deciding event payload := by
    intro fault h
    obtain ⟨ending, hterminating⟩ := i.escape_phase fault
    rw [hterminating] at h
    cases h
  unfold step at hphase ⊢
  split at hphase
  · cases hphase
  · cases hphase
  · rename_i hidle
    split at hphase
    · exact .inl rfl
    · rename_i r rest hmailbox
      right
      cases r with
      | stop => cases hphase
      | transition e p =>
        cases hphase
        exact ⟨rfl, hidle, rest, hmailbox, rfl⟩
      | query call question abandoned =>
        unfold handle at hphase
        simp only at hphase
        split at hphase
        · cases hidle.symm.trans hphase
        · cases hidle.symm.trans hphase
  · cases hphase
  · exact absurd hphase (i.decide_phase _ _ _ _ _)
  · unfold report at hphase
    simp only at hphase
    split at hphase
    · cases hphase
    · split at hphase
      · exact absurd hphase (hescape _)
      · cases hphase
  · split at hphase
    · cases hphase
    · exact absurd hphase (hescape _)
  · unfold terminate at hphase
    simp only at hphase
    split at hphase
    · cases hphase
    · split at hphase <;> cases hphase
  · split at hphase <;> cases hphase
  · exact .inl rfl

theorem callsDuring_append (i : Instance) (moves more : List Move) :
    i.callsDuring (moves ++ more) = i.callsDuring moves ++ (i.after moves).callsDuring more := by
  induction moves generalizing i with
  | nil => rfl
  | cons m moves ih =>
    show i.callsOf m ++ (i.move m).callsDuring (moves ++ more) = _
    rw [ih, ← List.append_assoc]
    rfl

/-- A request for a transition is under way: since it was taken from the mailbox the run state has
been the same, and no hook was called but the transition hook, once. -/
def Asked (i : Instance) (moves : List Move) (event payload : Value) : Prop :=
  ∃ early late rest, moves = early ++ .stimulus .receive :: late ∧
    (i.after early).phase = .idle ∧
    (i.after early).mailbox = .transition event payload :: rest ∧
    (i.after moves).runState = (i.after early).runState ∧
    (i.after early).callsDuring (.stimulus .receive :: late) =
      [.transition ((i.after early).transitionCall event payload)]

theorem Asked.more {moves : List Move} {event payload : Value} (h : i.Asked moves event payload)
    {m : Move} (hrunState : ((i.after moves).move m).runState = (i.after moves).runState)
    (hcalls : (i.after moves).callsOf m = []) : i.Asked (moves ++ [m]) event payload := by
  obtain ⟨early, late, rest, rfl, hidle, hmailbox, hsame, hasked⟩ := h
  refine ⟨early, late ++ [m], rest, by simp, hidle, hmailbox, ?_, ?_⟩
  · rw [after_append]
    exact hrunState.trans hsame
  · have hjoin : (i.after early).after (.stimulus .receive :: late) =
        i.after (early ++ .stimulus .receive :: late) := (i.after_append _ _).symm
    rw [← List.cons_append, callsDuring_append, hasked, hjoin, callsDuring, hcalls]
    rfl

/-- Wherever the body waits for the transition hook, a request is under way. -/
theorem asked_of_deciding (hphase : ∀ event payload, i.phase ≠ .deciding event payload)
    (moves : List Move) {event payload : Value}
    (hdeciding : (i.after moves).phase = .deciding event payload) :
    i.Asked moves event payload := by
  induction moves using List.reverseRecOn with
  | nil => exact absurd hdeciding (hphase event payload)
  | append_singleton moves m ih =>
    rw [after_append] at hdeciding
    replace hdeciding : ((i.after moves).move m).phase = .deciding event payload := hdeciding
    cases m with
    | post r =>
      have hsame : ((i.after moves).move (.post r)).phase = (i.after moves).phase := by
        simp only [move, post]
        split <;> rename_i hpost <;> split at hpost <;> cases hpost <;> rfl
      exact (ih (hsame ▸ hdeciding)).more ((i.after moves).post_becomes r).runState rfl
    | abandon call => exact (ih hdeciding).more rfl rfl
    | stimulus s =>
      rcases step_deciding hdeciding with hnothing | ⟨rfl, hidle, rest, hmailbox, hstep⟩
      · have hsame : (i.after moves).move (.stimulus s) = i.after moves :=
          congrArg Prod.fst hnothing
        rw [hsame] at hdeciding
        exact (ih hdeciding).more (by rw [hsame]) (by
          show calls ((i.after moves).step s).2 = []
          rw [hnothing]
          rfl)
      · refine ⟨moves, [], rest, rfl, hidle, hmailbox, ?_, ?_⟩
        · rw [after_append]
          exact congrArg (fun next => next.1.runState) hstep
        · show calls ((i.after moves).step .receive).2 ++ [] = _
          rw [hstep]
          rfl

/-- A body that has not begun belongs to an instance that runs, and nothing is noted of an instance
that runs. -/
structure Sound (i : Instance) : Prop where
  placed : i.Placed
  fresh : i.phase = .fresh → i.alive = true
  unmarked : i.alive = true → i.stopReason = none ∧ i.crash = none

theorem sound_create (machine : Machine) (name payload : Value) :
    (create machine name payload).Sound :=
  ⟨placed_create machine name payload, fun _ => rfl, fun _ => ⟨rfl, rfl⟩⟩

/-- A body that runs has not begun, or is in the loop, or was cancelled before it began. -/
theorem Sound.bears (h : i.Sound) (halive : i.alive = true) :
    i.phase = .fresh ∨ (∃ ending, i.phase = .finished ending) ∨ i.Bears none := by
  obtain ⟨hreason, hcrash⟩ := h.unmarked halive
  rcases h.placed with hfresh | hfinished | hentered
  · exact .inl hfresh
  · exact .inr (.inl hfinished)
  · refine .inr (.inr ⟨hentered.begun, ?_, halive, hreason, hcrash⟩)
    cases hout : i.phase.isOut with
    | false => rfl
    | true => cases halive.symm.trans (hentered.stopped hout)

/-- A body that runs stops only if there is a cause. -/
theorem Sound.cause (h : i.Sound) (halive : i.alive = true) {s : Stimulus}
    (hstopped : (i.step s).1.alive = false) : ∃ c, i.cause? s = some c := by
  rcases h.bears halive with hfresh | ⟨ending, hfinished⟩ | hbears
  · exfalso
    cases s with
    | _ => simp [step, hfresh, begin, halive] at hstopped
  · rw [step_finished hfinished] at hstopped
    cases halive.symm.trans hstopped
  · have hmeets := meets_step hbears.alive hbears.crash hbears.begun hbears.out s
    cases hcause : i.cause? s with
    | some c => exact ⟨c, rfl⟩
    | none =>
      rw [hcause] at hmeets
      cases hstopped.symm.trans (hmeets.alive.trans halive)

theorem Sound.step (h : i.Sound) (s : Stimulus) : (i.step s).1.Sound := by
  refine ⟨h.placed.step s, fun hfresh => ?_, fun halive => ?_⟩
  · have hsame := h.placed.step_of_fresh hfresh
    rw [hsame] at hfresh ⊢
    exact h.fresh hfresh
  · have hbefore : i.alive = true := by
      cases hstopped : i.alive with
      | true => rfl
      | false => cases halive.symm.trans (stopped_step hstopped s).alive
    rcases h.bears hbefore with hfresh | ⟨ending, hfinished⟩ | hbears
    · cases s with
      | _ => simpa [Instance.step, hfresh, begin] using h.unmarked hbefore
    · rw [step_finished hfinished]
      exact h.unmarked hbefore
    · obtain ⟨hafter, -⟩ := hbears.meets (.stimulus s)
      have hnone : i.causeOf (.stimulus s) = none :=
        Option.isNone_iff_eq_none.1 (hafter.alive.symm.trans halive)
      rw [hnone] at hafter
      exact ⟨hafter.stopReason, hafter.crash⟩

theorem Sound.move (h : i.Sound) (m : Move) : (i.move m).Sound := by
  cases m with
  | post r =>
    have hplaced := h.placed.move (.post r)
    simp only [Instance.move, post] at hplaced ⊢
    by_cases halive : i.alive = true
    · rw [if_pos halive] at hplaced ⊢
      exact ⟨hplaced, h.fresh, h.unmarked⟩
    · rw [if_neg halive]
      exact h
  | abandon call => exact ⟨h.placed.move (.abandon call), h.fresh, h.unmarked⟩
  | stimulus s => exact h.step s

theorem Sound.after (h : i.Sound) (moves : List Move) : (i.after moves).Sound := by
  induction moves generalizing i with
  | nil => exact h
  | cons m moves ih => exact ih (h.move m)

/-- The first step of a task enters the loop, with nothing noted. -/
theorem Sound.bears_start (h : i.Sound) (hfresh : i.phase = .fresh) :
    (i.move (.stimulus .start)).Bears none := by
  have halive := h.fresh hfresh
  obtain ⟨hreason, hcrash⟩ := h.unmarked halive
  simp only [Instance.move, Instance.step, hfresh, begin]
  exact ⟨by simp, rfl, halive, hreason, hcrash⟩

/-! ## The law -/

/-- The laws of the way out, for a body that has just entered the loop and makes some moves. -/
structure EndsOnce (i : Instance) (moves : List Move) : Prop where
  /-- It starts out running. -/
  running : i.alive = true
  /-- It has stopped exactly if there was a cause to. -/
  alive : (i.after moves).alive = (i.firstCause moves).isNone
  /-- No reason is noted while it runs; then it is that of the first cause. -/
  stopReason : (i.after moves).stopReason = (i.firstCause moves).map Cause.reason
  /-- The fault of a crash is noted, and no other. -/
  crash : (i.after moves).crash = (i.firstCause moves).bind Cause.fault?
  /-- A fault is noted exactly if the reason is a crash. -/
  crashed : (i.after moves).crash.isSome ↔ (i.after moves).stopReason = some .crash
  /-- The terminate hook has been called once if the instance has stopped, with the run state that
  it has now, and not at all if it has not. -/
  terminated : (i.callsDuring moves).filterMap HookCall.terminated? =
    if (i.after moves).alive then [] else [(i.after moves).runState]
  /-- While the body waits for the transition hook, the run state is the one from before the request. -/
  asked : ∀ event payload, (i.after moves).phase = .deciding event payload →
    i.Asked moves event payload
  /-- A cause that comes up leaves the run state alone, and no hook is called for it but the
  terminate hook, with that run state. -/
  leaves : ∀ s c, (i.after moves).alive = true → (i.after moves).cause? s = some c →
    ((i.after moves).step s).1.alive = false ∧
    ((i.after moves).step s).1.runState = (i.after moves).runState ∧
    calls ((i.after moves).step s).2 = [.terminate (i.after moves).runState]
  /-- Once it has stopped, nothing that is noted changes any more, nor does the run state, and no
  hook is called. -/
  settled : (i.after moves).alive = false → ∀ more,
    ((i.after moves).after more).alive = false ∧
    ((i.after moves).after more).stopReason = (i.after moves).stopReason ∧
    ((i.after moves).after more).crash = (i.after moves).crash ∧
    ((i.after moves).after more).runState = (i.after moves).runState ∧
    (i.after moves).callsDuring more = []
  /-- It has stopped when its task is done. -/
  finished : ∀ ending, (i.after moves).phase = .finished ending → (i.after moves).alive = false

theorem endsOnce (h : i.Bears none) (hphase : ∀ event payload, i.phase ≠ .deciding event payload)
    (moves : List Move) : i.EndsOnce moves := by
  obtain ⟨hbears, hcalls⟩ := h.meets_after moves
  have hcause : ∀ {j : Instance} {cause : Option Cause}, j.Bears cause → j.alive = false →
      ∃ c, cause = some c := by
    intro j cause hj hstopped
    rw [hj.alive, Option.isNone_eq_false_iff] at hstopped
    exact Option.isSome_iff_exists.1 hstopped
  refine ⟨h.alive, hbears.alive, hbears.stopReason, hbears.crash, ?_, ?_,
    fun _ _ => asked_of_deciding hphase moves, ?_, ?_, ?_⟩
  · rw [hbears.crash, hbears.stopReason]
    cases i.firstCause moves with
    | none => simp
    | some c => simpa using c.fault?_isSome
  · rw [hcalls, hbears.alive]
    cases i.firstCause moves <;> rfl
  · intro s c halive hs
    generalize hcause? : i.firstCause moves = cause at hbears
    have hnone : cause = none := by
      rw [hbears.alive, Option.isNone_iff_eq_none] at halive
      exact halive
    subst hnone
    have hmeets := meets_step hbears.alive hbears.crash hbears.begun hbears.out s
    rw [hs] at hmeets
    exact ⟨hmeets.alive, hmeets.runState, hmeets.calls⟩
  · intro hstopped more
    obtain ⟨c, hc⟩ := hcause hbears hstopped
    rw [hc] at hbears
    obtain ⟨hafter, hrunState, hnone⟩ := hbears.rests_after more
    exact ⟨hafter.alive, hafter.stopReason.trans hbears.stopReason.symm,
      hafter.crash.trans hbears.crash.symm, hrunState, hnone⟩
  · intro ending hphase
    have hout := hbears.out
    rw [hphase] at hout
    rw [hbears.alive, Option.isNone_eq_false_iff]
    exact hout.symm

/-- Whatever its hooks answer, whoever calls and whenever its task is cancelled: an instance whose
task has taken its first step stops once, for the first cause that comes up, with its run state left
alone; the terminate hook is called exactly then, and no hook afterwards. -/
theorem an_instance_stops_once_for_its_first_cause (machine : Machine) (name payload : Value)
    (before moves : List Move)
    (hfresh : ((create machine name payload).after before).phase = .fresh) :
    (((create machine name payload).after before).move (.stimulus .start)).EndsOnce moves :=
  endsOnce (((sound_create machine name payload).after before).bears_start hfresh)
    (by simp [move, step, hfresh, begin]) moves

/-- An instance that takes the edge out of its diagram, and is cancelled while its terminate hook
waits: the edge was the first cause. -/
theorem an_instance_takes_the_edge_out :
    let machine := Machine.ofTable "m" ⟨"a", [⟨"a", "end", .terminal⟩], ["enter"]⟩ {}
    let i := ((create machine (.text "x") .null).after
      [.post (.transition (.text "end") .null)]).move (.stimulus .start)
    let moves : List Move := [.stimulus (.published (.ok ())), .stimulus .receive,
      .stimulus (.decided (.ok (.success .terminal .null))),
      .stimulus (.handled (.error .cancellation))]
    i.EndsOnce moves ∧ (i.after moves).alive = false ∧
      (i.after moves).stopReason = some .terminal ∧
      (i.callsDuring moves).filterMap HookCall.terminated? = [⟨"a", .null, []⟩] := by
  intro machine i moves
  have hlaw := an_instance_stops_once_for_its_first_cause machine (.text "x") .null
    [.post (.transition (.text "end") .null)] moves rfl
  exact ⟨hlaw, rfl, rfl, rfl⟩

end Instance
end Turnstile

-- The numbers of calls mean nothing to an instance: with the calls in its mailbox numbered in
-- another way it does the same, and answers the same calls under their other numbers.
import Turnstile.Proofs.Instance.Queries

namespace Turnstile

/-- A request whose call goes by another number. What is abandoned is never answered, and has no
number that matters. -/
def Request.renumber (number : Nat → Nat) : Request → Request
  | .query call question abandoned =>
    .query (if abandoned then 0 else number call) question abandoned
  | r => r

def Effect.renumber (number : Nat → Nat) : Effect → Effect
  | .answer call result => .answer (number call) result
  | e => e

namespace Instance

variable {number : Nat → Nat}

/-- An instance with the calls in its mailbox numbered in another way. -/
def renumber (number : Nat → Nat) (i : Instance) : Instance :=
  { i with mailbox := i.mailbox.map (Request.renumber number) }

/-- What an instance comes to and wants done, with its calls numbered in another way. -/
def renumbered (number : Nat → Nat) (p : Instance × List Effect) : Instance × List Effect :=
  (p.1.renumber number, p.2.map (Effect.renumber number))

@[simp] theorem renumber_phase (i : Instance) : (i.renumber number).phase = i.phase := rfl

/-- Only the numbers of the calls that wait matter. -/
theorem renumber_congr {i : Instance} {other : Nat → Nat}
    (hsame : ∀ c ∈ i.waiting, number c = other c) : i.renumber number = i.renumber other := by
  have hmailbox : i.mailbox.map (Request.renumber number) =
      i.mailbox.map (Request.renumber other) := by
    refine List.map_congr_left fun r hr => ?_
    cases r with
    | transition event payload => rfl
    | stop => rfl
    | query call question abandoned =>
      cases abandoned with
      | true => rfl
      | false =>
        have hcall : call ∈ i.waiting := List.mem_filterMap.2 ⟨_, hr, rfl⟩
        simp [Request.renumber, hsame call hcall]
  unfold renumber
  rw [hmailbox]

theorem renumber_post (i : Instance) (r : Request) :
    (i.renumber number).post (r.renumber number) = (i.post r).map (renumber number) := by
  unfold post
  cases halive : i.alive with
  | true => simp [renumber, halive, Except.map]
  | false => simp [renumber, halive, Except.map]

theorem markStopped_renumber (i : Instance) (reason : StopReason) :
    (i.renumber number).markStopped reason = (i.markStopped reason).renumber number := by
  unfold markStopped
  cases halive : i.alive <;> simp [renumber, halive]

/-! ## The way out -/

theorem dropRequest_renumber (i : Instance) (r : Request) :
    (i.renumber number).dropRequest (r.renumber number) =
      (i.dropRequest r).map (Effect.renumber number) := by
  cases r with
  | query call question abandoned => cases abandoned <;> rfl
  | transition event payload => rfl
  | stop => rfl

theorem leave_renumber (i : Instance) (ending : Ending) :
    (i.renumber number).leave ending = renumbered number (i.leave ending) := by
  have hdrop : (i.mailbox.map (Request.renumber number)).flatMap (i.renumber number).dropRequest =
      (i.mailbox.flatMap i.dropRequest).map (Effect.renumber number) := by
    rw [List.flatMap_map, List.map_flatMap]
    exact congrArg (i.mailbox.flatMap ·) (funext fun r => i.dropRequest_renumber r)
  unfold leave renumbered
  rw [List.map_append, ← hdrop]
  rfl

theorem kill_renumber (i : Instance) : (i.renumber number).kill = renumbered number i.kill := by
  unfold kill
  rw [markStopped_renumber, leave_renumber]

theorem crashWith_renumber (i : Instance) (fault : Fault) :
    (i.renumber number).crashWith fault = renumbered number (i.crashWith fault) := by
  have hmarked : ({ i.renumber number with crash := some fault } : Instance).markStopped .crash =
      (({ i with crash := some fault } : Instance).markStopped .crash).renumber number :=
    markStopped_renumber { i with crash := some fault } .crash
  unfold crashWith
  simp only [hmarked, leave_renumber]
  rfl

theorem escape_renumber (i : Instance) (fault : Fault) :
    (i.renumber number).escape fault = renumbered number (i.escape fault) := by
  unfold escape
  split
  · exact i.kill_renumber
  · exact i.crashWith_renumber fault

/-! ## Requests and outcomes -/

theorem handle_renumber (i : Instance) (r : Request) :
    (i.renumber number).handle (r.renumber number) = renumbered number (i.handle r) := by
  cases r with
  | stop =>
    show ((i.renumber number).markStopped .stop).leave .returned = _
    rw [markStopped_renumber, leave_renumber]
    rfl
  | transition event payload => rfl
  | query call question abandoned =>
    cases abandoned with
    | true => rfl
    | false =>
      have hsame : (i.renumber number).answerTo question = i.answerTo question := by
        cases question <;> rfl
      show (i.renumber number, _ ++ _) = _
      simp only [handle, renumbered, Bool.false_eq_true, if_false, List.map_append, hsame]
      cases i.answerTo question <;> rfl

theorem finishRun_renumber (i : Instance) (event : Value) :
    (i.renumber number).finishRun event = renumbered number (i.finishRun event) := by
  unfold finishRun
  rw [markStopped_renumber, leave_renumber]
  rfl

theorem settleOutcome_renumber (i : Instance) (event payload : Value) (outcome : Outcome) :
    (i.renumber number).settleOutcome event payload outcome =
      renumbered number (i.settleOutcome event payload outcome) := by
  cases outcome with
  | rejected rejection => rfl
  | failure reason => rfl
  | other v => rfl
  | success target newPayload =>
    unfold settleOutcome
    simp only
    cases Target.ofValue? target with
    | none => rfl
    | some x =>
      simp only [show (i.renumber number).machine = i.machine from rfl,
        show (i.renumber number).runState = i.runState from rfl]
      split
      · cases x with
        | terminal => exact i.finishRun_renumber event
        | state s => rfl
      · rfl

theorem decide_renumber (i : Instance) (event payload : Value) (result : Except Fault Outcome) :
    (i.renumber number).decide event payload result =
      renumbered number (i.decide event payload result) := by
  cases result with
  | ok outcome => exact i.settleOutcome_renumber event payload outcome
  | error fault =>
    unfold decide
    simp only
    split
    · exact i.escape_renumber fault
    · rfl

theorem report_renumber (i : Instance) (event : Value) (rejection : Rejection)
    (result : Except Fault Unit) : (i.renumber number).report event rejection result =
      renumbered number (i.report event rejection result) := by
  cases result with
  | ok _ => rfl
  | error fault =>
    unfold report
    simp only
    split
    · exact i.escape_renumber fault
    · rfl

theorem terminate_renumber (i : Instance) (ending : Ending) (result : Except Fault Unit) :
    (i.renumber number).terminate ending result =
      renumbered number (i.terminate ending result) := by
  cases result with
  | ok _ => rfl
  | error fault =>
    unfold terminate
    simp only
    split <;> rfl

/-! ## The step -/

/-- An instance takes no notice of how its calls are numbered. -/
theorem step_renumber (i : Instance) (s : Stimulus) :
    (i.renumber number).step s = renumbered number (i.step s) := by
  cases hphase : i.phase with
  | fresh => cases s <;> simp [step, hphase] <;> rfl
  | idle =>
    cases s with
    | receive =>
      cases hmailbox : i.mailbox with
      | nil => simp [step, hphase, renumber, hmailbox, renumbered]
      | cons r rest =>
        have hhandle : Instance.handle (renumber number { i with mailbox := rest, phase := .idle })
            (r.renumber number) = _ := handle_renumber { i with mailbox := rest, phase := .idle } r
        simp only [step, renumber_phase, hphase, hmailbox]
        simp only [renumber, hmailbox, List.map_cons]
        exact hhandle
    | cancel =>
      simp only [step, renumber_phase, hphase]
      exact i.kill_renumber
    | _ => simp [step, hphase, renumbered]
  | deciding event payload =>
    cases s with
    | decided result =>
      simp only [step, renumber_phase, hphase]
      exact i.decide_renumber event payload result
    | _ => simp [step, hphase, renumbered]
  | reporting event payload rejection =>
    cases s with
    | handled result =>
      simp only [step, renumber_phase, hphase]
      exact i.report_renumber event rejection result
    | _ => simp [step, hphase, renumbered]
  | publishing =>
    cases s with
    | published result =>
      cases result with
      | ok _ => simp [step, hphase, renumbered, renumber]
      | error fault =>
        simp only [step, renumber_phase, hphase]
        exact i.escape_renumber fault
    | _ => simp [step, hphase, renumbered]
  | terminating ending =>
    cases s with
    | handled result =>
      simp only [step, renumber_phase, hphase]
      exact i.terminate_renumber ending result
    | _ => simp [step, hphase, renumbered]
  | announcing ending =>
    cases s with
    | published result =>
      cases result with
      | ok _ => simp [step, hphase, renumbered, renumber]
      | error fault => simp [step, hphase, renumbered, renumber]
    | _ => simp [step, hphase, renumbered]
  | finished ending => simp [step, hphase, renumbered]

theorem cancellation_renumber (i : Instance) :
    (i.renumber number).cancellation = i.cancellation := rfl

end Instance
end Turnstile

-- What a body waits for: when its step is over, it has either asked for just one thing, as the last of
-- all that it wants done, and waits for that answer, or it has asked for nothing and does not wait. A
-- body that is cancelled where it waits is on its way out for good.
import Turnstile.Proofs.Instance.Queries

namespace Turnstile

/-- The answers that a body waits for. -/
inductive Phase.Awaits : Phase → Stimulus → Prop where
  | decided (event payload : Value) (result : Except Fault Outcome) :
    Awaits (.deciding event payload) (.decided result)
  | reported (event payload : Value) (rejection : Rejection) (result : Except Fault Unit) :
    Awaits (.reporting event payload rejection) (.handled result)
  | told (result : Except Fault Unit) : Awaits .publishing (.published result)
  | terminated (ending : Ending) (result : Except Fault Unit) :
    Awaits (.terminating ending) (.handled result)
  | announced (ending : Ending) (result : Except Fault Unit) :
    Awaits (.announcing ending) (.published result)

/-- The body is at its beginning, at its mailbox or at its end. -/
inductive Phase.IsFree : Phase → Prop where
  | fresh : IsFree .fresh
  | idle : IsFree .idle
  | finished (ending : Ending) : IsFree (.finished ending)

/-- The body is on its way out after a cancellation, or past its last hook. -/
inductive Phase.IsDoomed : Phase → Prop where
  | terminating : IsDoomed (.terminating .cancelled)
  | announcing (ending : Ending) : IsDoomed (.announcing ending)
  | finished (ending : Ending) : IsDoomed (.finished ending)

/-- An effect that is no question to a hook and no publication. -/
inductive Effect.IsQuiet : Effect → Prop where
  | log (level : LogLevel) (text : String) : IsQuiet (.log level text)
  | answer (call : Nat) (result : Except Fault Answer) : IsQuiet (.answer call result)

namespace Instance

variable {i : Instance}

/-- The last thing that a body wants done when it comes to wait. -/
inductive Asks (i : Instance) : Effect → Prop where
  | transition {event payload : Value} (call : TransitionCall)
    (hphase : i.phase = .deciding event payload) : Asks i (.askTransition call)
  | failure {event payload : Value} {rejection : Rejection} (call : FailureCall)
    (hphase : i.phase = .reporting event payload rejection) : Asks i (.askFailure call)
  | terminate {ending : Ending} (hphase : i.phase = .terminating ending) :
    Asks i (.askTerminate i.runState)
  | publish (n : Notification)
    (hphase : i.phase = .publishing ∨ ∃ ending, i.phase = .announcing ending) : Asks i (.publish n)

/-- What a step leaves behind: a body that does not wait, or one that has asked and waits. -/
inductive Poses (next : Instance × List Effect) : Prop where
  | free (hfree : next.1.phase.IsFree) (hquiet : ∀ e ∈ next.2, e.IsQuiet) : Poses next
  | asking {quiet : List Effect} {e : Effect} (heffects : next.2 = quiet ++ [e])
    (hquiet : ∀ e ∈ quiet, e.IsQuiet) (hasks : next.1.Asks e) : Poses next

theorem Poses.cons {effects : List Effect} (h : Poses (i, effects)) {e : Effect}
    (he : e.IsQuiet) : Poses (i, e :: effects) := by
  cases h with
  | free hfree hquiet => exact .free hfree (List.forall_mem_cons.2 ⟨he, hquiet⟩)
  | @asking quiet last heffects hquiet hasks =>
    have heffects' : e :: effects = (e :: quiet) ++ [last] := congrArg (e :: ·) heffects
    exact .asking heffects' (List.forall_mem_cons.2 ⟨he, hquiet⟩) hasks

theorem Poses.asks {e : Effect} (hasks : i.Asks e) : Poses (i, [e]) :=
  .asking (List.nil_append [e]).symm (List.forall_mem_nil _) hasks

theorem quiet_record (i : Instance) (level : LogLevel) (text : String) :
    (i.record level text).IsQuiet := .log level _

/-! ## Each part of the body -/

theorem quiet_dropRequest (i : Instance) (r : Request) : ∀ e ∈ i.dropRequest r, e.IsQuiet := by
  intro e he
  cases r with
  | transition event payload =>
    obtain rfl := List.mem_singleton.1 he
    exact i.quiet_record _ _
  | query call question abandoned =>
    cases abandoned with
    | true => cases he
    | false =>
      obtain rfl := List.mem_singleton.1 he
      exact .answer _ _
  | stop => cases he

theorem poses_leave (i : Instance) (ending : Ending) : Poses (i.leave ending) := by
  refine .asking rfl (fun e he => ?_) (.terminate rfl)
  obtain ⟨r, -, he⟩ := List.mem_flatMap.1 he
  exact i.quiet_dropRequest r e he

theorem poses_escape (i : Instance) (fault : Fault) : Poses (i.escape fault) := by
  unfold escape
  split
  · exact poses_leave _ _
  · exact (poses_leave _ _).cons (quiet_record _ _ _)

theorem poses_handle (i : Instance) (hidle : i.phase = .idle) (r : Request) :
    Poses (i.handle r) := by
  cases r with
  | transition event payload => exact .asks (.transition _ rfl)
  | query call question abandoned =>
    have hfree : i.phase.IsFree := hidle ▸ .idle
    unfold handle
    simp only
    split
    · exact .free hfree (List.forall_mem_nil _)
    · refine .free hfree fun e he => ?_
      rcases List.mem_append.1 he with he | he
      · split at he
        · cases he
        · exact List.mem_singleton.1 he ▸ i.quiet_record _ _
      · exact List.mem_singleton.1 he ▸ .answer _ _
  | stop => exact poses_leave _ _

theorem poses_reject (i : Instance) (event payload : Value) (rejection : Rejection) :
    Poses (i.reject event payload rejection) :=
  (Poses.asks (.failure _ rfl)).cons (i.quiet_record _ _)

theorem poses_settleOutcome (i : Instance) (event payload : Value) (outcome : Outcome) :
    Poses (i.settleOutcome event payload outcome) := by
  unfold settleOutcome
  simp only
  split
  · exact poses_reject ..
  · exact poses_reject ..
  · exact poses_reject ..
  · split
    · exact poses_reject ..
    · split
      · split
        · exact (poses_leave _ _).cons (i.quiet_record _ _)
        · exact (Poses.asks (.publish _ (.inl rfl))).cons (i.quiet_record _ _)
      · exact poses_reject ..

theorem poses_decide (i : Instance) (event payload : Value) (result : Except Fault Outcome) :
    Poses (i.decide event payload result) := by
  cases result with
  | ok outcome => exact i.poses_settleOutcome event payload outcome
  | error fault =>
    unfold decide
    simp only
    split
    · exact i.poses_escape fault
    · exact (i.poses_reject ..).cons (i.quiet_record _ _)

theorem poses_report (i : Instance) (event : Value) (rejection : Rejection)
    (result : Except Fault Unit) : Poses (i.report event rejection result) := by
  have hpublish : Poses ({ i with phase := .publishing },
      [.publish (.rejected i.name event i.runState.current rejection)]) :=
    .asks (.publish _ (.inl rfl))
  cases result with
  | ok _ => exact hpublish
  | error fault =>
    unfold report
    simp only
    split
    · exact i.poses_escape fault
    · exact hpublish.cons (i.quiet_record _ _)

theorem poses_terminate (i : Instance) (ending : Ending) (result : Except Fault Unit) :
    Poses (i.terminate ending result) := by
  have hpublish : Poses ({ i with phase := .announcing ending },
      [.publish (.terminated i.name i.stopReason i.runState)]) :=
    .asks (.publish _ (.inr ⟨ending, rfl⟩))
  cases result with
  | ok _ => exact hpublish
  | error fault =>
    unfold terminate
    simp only
    split
    · exact .free (.finished _) (List.forall_mem_nil _)
    · exact hpublish.cons (i.quiet_record _ _)

/-! ## The step -/

/-- What a body is given that is where it is: its first step, the mailbox, what it waits for, or a
cancellation. -/
inductive Fits (i : Instance) : Stimulus → Prop where
  | start (hphase : i.phase = .fresh) : Fits i .start
  | receive (hphase : i.phase = .idle) : Fits i .receive
  | answer {s : Stimulus} (hawaits : i.phase.Awaits s) : Fits i s
  | cancellation : Fits i i.cancellation

/-- A body that is given what it waits for asks for one thing more, or does not wait any longer. -/
theorem poses_awaited {s : Stimulus} (hawaits : i.phase.Awaits s) : Poses (i.step s) := by
  unfold step
  cases hphase : i.phase <;> rw [hphase] at hawaits <;> cases hawaits
  case deciding event payload result => exact i.poses_decide event payload result
  case reporting event payload rejection result => exact i.poses_report event rejection result
  case terminating ending result => exact i.poses_terminate ending result
  case publishing result =>
    cases result with
    | ok _ => exact .free .idle (List.forall_mem_nil _)
    | error fault => exact i.poses_escape fault
  case announcing ending result =>
    cases result <;> exact .free (.finished _) (List.forall_mem_nil _)

/-- Where a body waits, a cancellation is an answer. -/
theorem free_or_awaits (i : Instance) :
    i.phase.IsFree ∧ i.cancellation = .cancel ∨ i.phase.Awaits i.cancellation := by
  unfold cancellation
  cases i.phase with
  | fresh => exact .inl ⟨.fresh, rfl⟩
  | idle => exact .inl ⟨.idle, rfl⟩
  | finished ending => exact .inl ⟨.finished ending, rfl⟩
  | deciding event payload => exact .inr (.decided ..)
  | reporting event payload rejection => exact .inr (.reported ..)
  | publishing => exact .inr (.told _)
  | terminating ending => exact .inr (.terminated ..)
  | announcing ending => exact .inr (.announced ..)

theorem poses_cancel (hfree : i.phase.IsFree) : Poses (i.step .cancel) := by
  unfold step
  cases hphase : i.phase <;> rw [hphase] at hfree <;> cases hfree
  case fresh => exact .free (.finished _) (List.forall_mem_nil _)
  case idle => exact poses_leave _ _
  case finished ending =>
    refine .free ?_ (List.forall_mem_nil _)
    show i.phase.IsFree
    exact hphase ▸ .finished ending

theorem poses_step {s : Stimulus} (hfits : i.Fits s) : Poses (i.step s) := by
  cases hfits with
  | start hphase =>
    unfold step
    rw [hphase]
    exact (Poses.asks (.publish _ (.inl rfl))).cons (i.quiet_record _ _)
  | receive hphase =>
    unfold step
    simp only [hphase]
    split
    · exact .free (by rw [hphase]; exact .idle) (List.forall_mem_nil _)
    · exact poses_handle _ rfl _
  | answer hawaits => exact poses_awaited hawaits
  | cancellation =>
    rcases i.free_or_awaits with ⟨hfree, hcancel⟩ | hawaits
    · exact hcancel ▸ poses_cancel hfree
    · exact poses_awaited hawaits

/-! ## The way out -/

theorem doomed_kill (i : Instance) : i.kill.1.phase.IsDoomed := .terminating

/-- Who is on the way out stays there, whatever the body is given. -/
theorem doomed_step (hdoomed : i.phase.IsDoomed) (s : Stimulus) : (i.step s).1.phase.IsDoomed := by
  have hsame : ∀ {phase}, i.phase = phase → phase.IsDoomed → i.phase.IsDoomed := fun h h' => h ▸ h'
  unfold step
  cases hphase : i.phase <;> rw [hphase] at hdoomed <;> cases hdoomed
  case terminating =>
    cases s with
    | handled result =>
      simp only [terminate]
      cases result with
      | ok _ => exact .announcing _
      | error fault =>
        simp only
        split
        · exact .finished _
        · exact .announcing _
    | _ => exact hsame hphase .terminating
  case announcing ending =>
    cases s with
    | published result => cases result <;> exact .finished _
    | _ => exact hsame hphase (.announcing _)
  case finished ending => cases s <;> exact hsame hphase (.finished _)

/-- A cancellation leads out from wherever the body stands. -/
theorem doomed_cancellation (i : Instance) : (i.step i.cancellation).1.phase.IsDoomed := by
  unfold step cancellation
  cases hphase : i.phase with
  | fresh => exact .finished _
  | idle => exact i.doomed_kill
  | deciding event payload => exact i.doomed_kill
  | reporting event payload rejection => exact i.doomed_kill
  | publishing => exact i.doomed_kill
  | terminating ending => exact .finished _
  | announcing ending => exact .finished _
  | finished ending =>
    show i.phase.IsDoomed
    exact hphase ▸ .finished _

end Instance
end Turnstile

-- The attempts of a job, in every run of a host. What the record of a job counts is what the
-- accepted events tell, and an event that labels an edge out of the current state is accepted,
-- unless it is a retry after as many attempts as may be.
import Mathlib.Data.List.DropRight
import Turnstile.Proofs.Jobs.Answers

namespace Turnstile

namespace Instance

variable {i : Instance} {s : Stimulus}

/-- The event that the transition hook is asked for, if it is a text. -/
def pending? (i : Instance) : Option String :=
  match i.phase with
  | .deciding (.text e) _ => some e
  | _ => none

/-- The event whose transition a step makes an instance accept, if the event is a text. -/
def heeded? (i : Instance) (s : Stimulus) : Option String :=
  (i.accepted? (.stimulus s)).bind fun _ => i.pending?

theorem pending?_eq_some {e : String} :
    i.pending? = some e ↔ ∃ payload, i.phase = .deciding (.text e) payload := by
  unfold pending?
  split
  · rename_i e' payload hphase
    rw [hphase]
    simp
  · rename_i hother
    refine ⟨nofun, fun ⟨payload, hphase⟩ => absurd hphase (hother e payload)⟩

theorem heeded?_of_none (h : i.accepted? (.stimulus s) = none) : i.heeded? s = none := by
  unfold heeded?
  rw [h]
  rfl

theorem heeded?_of_some {e : String} {payload : Value} {x : String × Value}
    (hphase : i.phase = .deciding (.text e) payload) (h : i.accepted? (.stimulus s) = some x) :
    i.heeded? s = some e := by
  unfold heeded?
  rw [h]
  exact pending?_eq_some.2 ⟨payload, hphase⟩

theorem accepted?_eq_some {state : String} {payload : Value}
    (h : i.accepted? (.stimulus s) = some (state, payload)) :
    ∃ event eventPayload, i.phase = .deciding event eventPayload ∧
      s = .decided (.ok (.success (.text state) payload)) := by
  unfold accepted? at h
  split at h
  · rename_i hs
    split at h
    · rename_i hphase
      split at h
      · obtain ⟨rfl, rfl⟩ := Prod.mk.inj (Option.some.inj h)
        exact ⟨_, _, hphase, Move.stimulus.inj hs⟩
      · cases h
    · cases h
  · cases h

end Instance

namespace Host

/-- The event whose transition a task accepts in a deed, if there is one. -/
def heeds (h : Host) (t : Nat) (d : Deed) : List String :=
  ((h.task? t).bind fun task => (h.given t d).bind task.inst.heeded?).toList

/-- The events whose transitions a task accepts in a run, in their order. -/
def heeded (h : Host) (t : Nat) (deeds : List Deed) : List String :=
  h.during (fun h d => h.heeds t d) deeds

theorem heeds_eq {h : Host} {t : Nat} {task : Task} (ht : h.task? t = some task) (d : Deed) :
    h.heeds t d = ((h.given t d).bind task.inst.heeded?).toList := by
  unfold heeds
  rw [ht]
  rfl

theorem heeded_snoc (h : Host) (t : Nat) (deeds : List Deed) (d : Deed) :
    h.heeded t (deeds ++ [d]) = h.heeded t deeds ++ (h.after deeds).heeds t d :=
  h.during_snoc _ deeds d

end Host

namespace Jobs

variable {i : Instance} {s : Stimulus} {e : String} {event payload : Value} {heeded : List String}
  {job job' : List (String × Value)} {n : Nat} {rs : RunState}

/-! ## The count -/

/-- The states of a job that was started. -/
def startedStates : List String := ["processing", "failed", "complete"]

/-- The events that were accepted since the last start. -/
def sinceStart (heeded : List String) : List String := heeded.rtakeWhile (· ≠ "start_job")

/-- The record of a job counts the attempts that the accepted events tell of: the one with which
the job was last started, and one for each retry since. There are never more than may be. -/
structure Counts (job : List (String × Value)) (heeded : List String) (n : Nat) : Prop where
  tried : Tried job n
  started : "start_job" ∈ heeded
  count : n = 1 + (sinceStart heeded).count "retry"
  few : n ≤ maxAttempts

/-- A payload holds the record of a job, and in a state of a job that was started this record counts
its attempts. -/
structure Keeps (rs : RunState) (heeded : List String) : Prop where
  holds : ∃ job, Holds rs.payload job
  counts : rs.current ∈ startedStates → ∃ job n, rs.payload = .record job ∧ Counts job heeded n

/-- Only a start leads to these states from elsewhere. -/
theorem started_before {x y : String} (hedge : ⟨x, e, .state y⟩ ∈ table.transitions)
    (hstart : e ≠ "start_job") (hy : y ∈ startedStates) : x ∈ startedStates := by
  have hall : ∀ edge ∈ table.transitions, edge.event ≠ "start_job" →
      (∀ y ∈ startedStates, edge.target = .state y → edge.source ∈ startedStates) := by
    decide
  exact hall _ hedge hstart y hy rfl

theorem Holds.of_record (h : Holds (.record job) job') : job' = job := by
  cases h with
  | record => rfl

theorem sinceStart_start (heeded : List String) : sinceStart (heeded ++ ["start_job"]) = [] :=
  List.rtakeWhile_concat_neg _ _ _ (by decide)

theorem sinceStart_other (hstart : e ≠ "start_job") (heeded : List String) :
    sinceStart (heeded ++ [e]) = sinceStart heeded ++ [e] :=
  List.rtakeWhile_concat_pos _ _ _ (by simpa using hstart)

/-- An accepted event takes the count on. -/
theorem Counts.advance (h : e ≠ "start_job" → ∃ n, Counts job heeded n)
    (hadvances : Advances job e job') : ∃ n, Counts job' (heeded ++ [e]) n := by
  cases hadvances with
  | started htried =>
    refine ⟨1, htried, by simp, ?_, by decide⟩
    rw [sinceStart_start]
    rfl
  | @retried n _ hbefore hfew htried =>
    obtain ⟨m, hm⟩ := h (by decide)
    obtain rfl : n = m := by simpa using hbefore.symm.trans hm.tried
    refine ⟨n + 1, htried, List.mem_append_left _ hm.started, ?_, hfew⟩
    rw [sinceStart_other (by decide), List.count_append, List.count_singleton_self, ← Nat.add_assoc,
      ← hm.count]
  | kept hstart hretry hsame =>
    obtain ⟨n, hn⟩ := h hstart
    refine ⟨n, hsame.trans hn.tried, List.mem_append_left _ hn.started, ?_, hn.few⟩
    have hother : List.count "retry" [e] = 0 := List.count_eq_zero.2 (by simpa using hretry.symm)
    rw [sinceStart_other hstart, List.count_append, hother, Nat.add_zero, ← hn.count]

/-! ## One step -/

theorem Keeps.counted (h : Keeps rs heeded) (hcurrent : rs.current ∈ startedStates)
    (hholds : Holds rs.payload job) : ∃ n, Counts job heeded n := by
  obtain ⟨other, n, hpayload, hcounts⟩ := h.counts hcurrent
  rw [hpayload] at hholds
  exact ⟨n, hholds.of_record ▸ hcounts⟩

/-- What the hook answers where the payload is kept. -/
theorem Keeps.answers (h : Keeps i.runState heeded) (hholds : Holds i.runState.payload job)
    (event eventPayload : Value) :
    Answers i.runState.current event job (answer (i.transitionCall event eventPayload)) := by
  refine Jobs.answers eventPayload hholds fun hfailed => ?_
  obtain ⟨n, hn⟩ := h.counted (by rw [hfailed]; decide) hholds
  exact ⟨n, hn.tried⟩

section
variable (h : Keeps i.runState heeded)
  (hgiven : ∀ event payload, i.phase = .deciding event payload →
    s = .decided (answer (i.transitionCall event payload)))
include h hgiven

/-- What is accepted is an event along an edge, which takes the record on. -/
theorem Keeps.accepts {state : String} {next : Value}
    (haccepted : i.accepted? (.stimulus s) = some (state, next)) : ∃ e job job',
      i.heeded? s = some e ∧ ⟨i.runState.current, e, .state state⟩ ∈ table.transitions ∧
        Holds i.runState.payload job ∧ next = .record job' ∧ Advances job e job' := by
  obtain ⟨event, eventPayload, hphase, hs⟩ := Instance.accepted?_eq_some haccepted
  obtain ⟨job, hholds⟩ := h.holds
  have hanswers := h.answers hholds event eventPayload
  rw [Stimulus.decided.inj ((hgiven event eventPayload hphase).symm.trans hs)] at hanswers
  obtain ⟨e, x, job', rfl, hstate, rfl, hedge, hadvances⟩ := hanswers.of_success
  refine ⟨e, job, job', Instance.heeded?_of_some hphase haccepted, ?_, hholds, rfl, hadvances⟩
  cases x with
  | terminal => cases hstate
  | state y => exact Value.text.inj hstate ▸ hedge

/-- A body that is given the answer of the hook goes on to keep its payload. -/
theorem Keeps.step : Keeps (i.step s).1.runState (heeded ++ (i.heeded? s).toList) := by
  rw [(i.step_becomes s).runState]
  cases haccepted : i.accepted? (.stimulus s) with
  | none =>
    rw [Instance.heeded?_of_none haccepted, Option.toList_none, List.append_nil]
    exact h
  | some x =>
    obtain ⟨state, next⟩ := x
    obtain ⟨e, job, job', hheeded, hedge, hholds, rfl, hadvances⟩ := h.accepts hgiven haccepted
    rw [hheeded]
    refine ⟨⟨job', .record job'⟩, fun hstarted => ?_⟩
    obtain ⟨n, hn⟩ := Counts.advance (fun hstart =>
      h.counted (started_before hedge hstart hstarted) hholds) hadvances
    exact ⟨job', n, rfl, hn⟩

/-- Where no event is accepted the run state stays. -/
theorem Keeps.unheeded (hnone : i.heeded? s = none) : (i.step s).1.runState = i.runState := by
  rw [(i.step_becomes s).runState]
  cases haccepted : i.accepted? (.stimulus s) with
  | none => rfl
  | some x =>
    obtain ⟨e, -, -, hheeded, -⟩ := h.accepts hgiven haccepted
    cases hnone.symm.trans hheeded

end

/-! ## One request -/

/-- The instance has taken an edge: it moved to a state, with a record as its payload, or it stopped
at the end of the diagram. -/
def TakesEdge (i : Instance) : Target → Instance → Prop
  | .state y, j => j.phase = .publishing ∧ ∃ job, j.runState = i.runState.move y (.record job)
  | .terminal, j => j.stopReason = some .terminal ∧ j.runState = i.runState

/-- An event that is refused although it labels an edge: a retry when there were as many attempts
as may be. -/
def Exhausted (rs : RunState) (e : String) : Prop :=
  e = "retry" ∧ ∃ job, rs.payload = .record job ∧ Tried job maxAttempts

/-- What becomes of a request: an event that labels an edge out of the current state takes the
instance along that edge, unless it is a retry too many; all else is rejected, and the run state
is as before. -/
structure Decides (i : Instance) (event payload : Value) (j : Instance) : Prop where
  accepts : ∀ e x, event = .text e → ⟨i.runState.current, e, x⟩ ∈ table.transitions →
    ¬ Exhausted i.runState e → TakesEdge i x j
  rejects : (∀ e x, event = .text e → ⟨i.runState.current, e, x⟩ ∈ table.transitions →
      Exhausted i.runState e) →
    (∃ rejection, j.phase = .reporting event payload rejection) ∧ j.runState = i.runState

/-- What the hook takes on is no retry too many. -/
theorem Advances.spared (h : Advances job e job') (hholds : Holds rs.payload job) :
    ¬ Exhausted rs e := by
  rintro ⟨hretry, other, hpayload, hmany⟩
  rw [hpayload] at hholds
  obtain rfl := hholds.of_record
  cases h with
  | started => exact absurd hretry (by decide)
  | retried hbefore hfew =>
    have hsame := hbefore.symm.trans hmany
    exact absurd (by simpa using hsame) hfew.ne
  | kept _ hother => exact hother hretry

/-- Retries become too many when there were as many attempts as may be, and no later. -/
theorem Keeps.exhausted (h : Keeps rs heeded) (hholds : Holds rs.payload job) {x : Target}
    (hedge : ⟨rs.current, "retry", x⟩ ∈ table.transitions) (htried : Tried job n)
    (hmany : maxAttempts ≤ n) : Exhausted rs "retry" := by
  obtain ⟨other, m, hpayload, hcounts⟩ := h.counts (by rw [failed_of_retry hedge]; decide)
  rw [hpayload] at hholds
  obtain rfl := hholds.of_record
  obtain rfl : n = m := by simpa using htried.symm.trans hcounts.tried
  obtain rfl : n = maxAttempts := Nat.le_antisymm hcounts.few hmany
  exact ⟨rfl, _, hpayload, htried⟩

theorem takesEdge_success (halive : i.alive = true) {x : Target}
    (hallowed : i.machine.table.allowed i.runState.current x = true) :
    TakesEdge i x (i.decide event payload (.ok (.success x.toValue (.record job)))).1 := by
  unfold Instance.decide Instance.settleOutcome
  cases x with
  | state y =>
    simp only [Target.toValue, Target.ofValue?, hallowed, if_true]
    exact ⟨rfl, job, rfl⟩
  | terminal =>
    simp only [Target.toValue, Target.ofValue?, hallowed, if_true]
    refine ⟨?_, (i.stop_becomes .terminal .returned).runState⟩
    simp [Instance.finishRun, Instance.leave, Instance.markStopped, halive]

/-- What the answer of the hook decides. -/
theorem Keeps.decides (h : Keeps i.runState heeded) (hphase : i.phase = .deciding event payload)
    (halive : i.alive = true) (htable : i.machine.table = table) :
    Decides i event payload (i.step (.decided (answer (i.transitionCall event payload)))).1 := by
  obtain ⟨job, hholds⟩ := h.holds
  have hanswers := h.answers hholds event payload
  generalize answer (i.transitionCall event payload) = result at hanswers ⊢
  have hstep : (i.step (.decided result)).1 = (i.decide event payload result).1 := by
    unfold Instance.step
    rw [hphase]
  rw [hstep]
  cases hanswers with
  | @along e x job' hevent hedge hadvances =>
    refine ⟨fun e' x' hevent' hedge' _ => ?_, fun hnone => ?_⟩
    · obtain rfl := Value.text.inj (hevent.symm.trans hevent')
      obtain rfl := target_unique hedge hedge'
      exact takesEdge_success halive (htable ▸ Table.allowed_iff.2 ⟨_, hedge, rfl, rfl⟩)
    · exact absurd (hnone e x hevent hedge) (hadvances.spared hholds)
  | exhausted hevent htried hmany =>
    refine ⟨fun e' x' hevent' hedge' hspared => ?_, fun _ => ⟨⟨_, rfl⟩, rfl⟩⟩
    obtain rfl := Value.text.inj (hevent.symm.trans hevent')
    exact absurd (h.exhausted hholds hedge' htried hmany) hspared
  | unknown hnone =>
    exact ⟨fun e' x' hevent' hedge' _ => absurd hedge' (hnone e' x' hevent'),
      fun _ => ⟨⟨_, rfl⟩, rfl⟩⟩
  | notKey hkey =>
    refine ⟨fun e' x' hevent' => ?_, fun _ => ⟨⟨_, rfl⟩, rfl⟩⟩
    rw [hevent'] at hkey
    cases hkey

/-! ## Runs -/

section
variable {settings : Settings} {registry : Registry} {bus : Bus Observer} {deeds : List Deed}
  {t : Nat} {task : Task}

theorem given_answer (ht : ((Host.opened settings registry bus).after deeds).task? t = some task)
    (hmachine : task.inst.machine = processor) {d : Deed}
    (hgiven : ((Host.opened settings registry bus).after deeds).given t d = some s)
    (event payload : Value) (hphase : task.inst.phase = .deciding event payload) :
    s = .decided (answer (task.inst.transitionCall event payload)) := by
  obtain ⟨past, hs⟩ := Host.decided_of_given settings registry bus deeds ht
    (hmachine ▸ prompt) hgiven hphase
  rw [hs, Instance.hookAnswer, hmachine]
  rfl

/-- At every moment of every run. -/
theorem keeps_after (ht : ((Host.opened settings registry bus).after deeds).task? t = some task)
    (hmachine : task.inst.machine = processor)
    (hinitial : ∃ job, Holds task.inst.initialPayload job) :
    Keeps task.inst.runState ((Host.opened settings registry bus).heeded t deeds) := by
  refine Host.holds_after settings registry bus (P := fun deeds task =>
    task.inst.machine = processor → (∃ job, Holds task.inst.initialPayload job) →
      Keeps task.inst.runState ((Host.opened settings registry bus).heeded t deeds))
    ?_ ?_ ?_ deeds ht hmachine hinitial
  · rintro deeds d new - ⟨⟨machine, name, payload, hinst⟩, -⟩ hmachine hinitial
    rw [hinst] at hmachine hinitial ⊢
    obtain rfl : machine = processor := hmachine
    have hidle : "idle" ∉ startedStates := by decide
    exact ⟨hinitial, fun hstarted => absurd hstarted hidle⟩
  · intro deeds task d ht hkeeps hmachine hinitial
    rw [Host.heeded_snoc, Host.heeds_eq ht]
    unfold Host.moved at hmachine hinitial ⊢
    cases hgiven : ((Host.opened settings registry bus).after deeds).given t d with
    | none =>
      rw [hgiven] at hmachine hinitial
      rw [Option.bind_none, Option.toList_none, List.append_nil]
      exact hkeeps hmachine hinitial
    | some s =>
      rw [hgiven] at hmachine hinitial
      have hbecomes := task.inst.step_becomes s
      have hsame : task.inst.machine = processor := hbecomes.machine.symm.trans hmachine
      have hkept := hkeeps hsame (hbecomes.initialPayload ▸ hinitial)
      exact hkept.step (given_answer ht hsame hgiven)
  · intro deeds task task' hstays hkeeps hmachine hinitial
    obtain ⟨moves, houtside, hinst⟩ := hstays.inst
    rw [hinst] at hmachine hinitial ⊢
    rw [Instance.after_machine] at hmachine
    rw [Instance.after_initialPayload] at hinitial
    rw [(Instance.after_outside houtside task.inst).1]
    exact hkeeps hmachine hinitial

/-- A deed in which a task accepts no event leaves its run state alone. -/
theorem runState_of_unheeded
    (ht : ((Host.opened settings registry bus).after deeds).task? t = some task)
    (hmachine : task.inst.machine = processor)
    (hinitial : ∃ job, Holds task.inst.initialPayload job) {d : Deed}
    (hnone : ((Host.opened settings registry bus).after deeds).heeds t d = []) :
    ∃ task', (((Host.opened settings registry bus).after deeds).act d).task? t = some task' ∧
      task'.inst.runState = task.inst.runState := by
  obtain ⟨task', ht', hstays⟩ := Host.act_task ht d
  obtain ⟨moves, houtside, hinst⟩ := hstays.inst
  refine ⟨task', ht', ?_⟩
  rw [hinst, (Instance.after_outside houtside _).1]
  rw [Host.heeds_eq ht] at hnone
  unfold Host.moved
  cases hgiven : ((Host.opened settings registry bus).after deeds).given t d with
  | none => rfl
  | some s =>
    rw [hgiven] at hnone
    have hunheeded : task.inst.heeded? s = none := Option.toList_eq_nil_iff.1 hnone
    exact (keeps_after ht hmachine hinitial).unheeded (given_answer ht hmachine hgiven) hunheeded

end

/-- In every run, for a job whose first payload is null or a record: in a state of a job that was
started, its record counts the attempts since the last start, of which there are one to as many as
may be; a deed in which it accepts nothing leaves its run state alone; none of its rejections says
that a target is not declared; and an event on an edge out of the current state is accepted, unless
it is a retry after as many attempts as may be. -/
theorem a_job_counts_its_attempts : machine = .ok processor ∧
    (∀ past call target payload,
      (processor.hooks.onTransition.react past call).result = .ok (.success target payload) →
        processor.table.allowedValue (.text call.state) target = true) ∧
    ∀ (settings : Settings) (registry : Registry) (bus : Bus Observer) (deeds : List Deed) (t : Nat)
      (task : Task), ((Host.opened settings registry bus).after deeds).task? t = some task →
      task.inst.machine = processor → (∃ job, Holds task.inst.initialPayload job) →
      let h := (Host.opened settings registry bus).after deeds
      Keeps task.inst.runState ((Host.opened settings registry bus).heeded t deeds) ∧
      (∀ d, h.heeds t d = [] → ∃ task', (h.act d).task? t = some task' ∧
        task'.inst.runState = task.inst.runState) ∧
      task.inst.RejectsFor (fun _ _ rejection => ∀ event state target,
        rejection ≠ .undeclared event state target)
        ((Host.opened settings registry bus).told t deeds) ∧
      ∀ event payload, task.inst.phase = .deciding event payload → ∃ result,
        h.given t .step = some (.decided result) ∧
        Decides task.inst event payload (task.inst.step (.decided result)).1 := by
  refine ⟨machine_eq, fun _ call target payload => (declared_of_answer call).1 target payload, ?_⟩
  intro settings registry bus deeds t task ht hmachine hinitial h
  have hkeeps := keeps_after ht hmachine hinitial
  refine ⟨hkeeps, fun d => runState_of_unheeded ht hmachine hinitial,
    Host.rejectsFor_after settings registry bus deeds prompt refusal_declared ht hmachine, ?_⟩
  intro event payload hphase
  obtain ⟨past, hgiven⟩ :=
    Host.decided_at_once settings registry bus deeds ht (hmachine ▸ prompt) hphase
  refine ⟨_, hgiven, ?_⟩
  have halive := Host.alive_of_deciding settings registry bus deeds ht hphase
  rw [Stimulus.decided.inj (given_answer ht hmachine hgiven event payload hphase)]
  exact hkeeps.decides hphase halive (hmachine ▸ rfl)

/-- A job is started along an edge, and fails three times. Then it is not tried again, and its record
stays as it is. -/
theorem a_fourth_attempt_is_refused :
    let h := Host.opened settings [] {}
    let sends := ["start_job", "fail", "retry", "fail", "retry", "fail", "retry"].map fun e =>
      Deed.send ⟨.text "job", .text e, .null⟩
    let deeds := .start (.given processor) (.text "job") .null ::
      (List.replicate 4 .step ++ sends ++ List.replicate 19 .step)
    processor.table.allowedValue (.text "idle") (.text "processing") = true ∧
    h.heeded 0 deeds = ["start_job", "fail", "retry", "fail", "retry", "fail"] ∧
    ∃ task job result, (h.after deeds).task? 0 = some task ∧
      task.inst.runState.payload = .record job ∧ Counts job (h.heeded 0 deeds) 3 ∧
      (h.after deeds).given 0 .step = some (.decided result) ∧
      (∃ payload rejection, (task.inst.step (.decided result)).1.phase =
        .reporting (.text "retry") payload rejection) ∧
      (task.inst.step (.decided result)).1.runState = task.inst.runState ∧
      ∃ task', ((h.after deeds).act .step).task? 0 = some task' ∧
        task'.inst.runState = task.inst.runState := by
  intro h sends deeds
  have hcame : ∀ machine more, ∃ task,
      (h.after (.start (.given machine) (.text "job") .null :: more)).task? 0 = some task ∧
        task.inst.machine = machine ∧ task.inst.initialPayload = .null := by
    intro machine more
    obtain ⟨task, moves, ht, hinst⟩ := Host.moves_of_after
      (h := h.act (.start (.given machine) (.text "job") .null)) (t := 0) rfl more
    refine ⟨task, ht, ?_, ?_⟩
    · rw [hinst, Instance.after_machine]
      rfl
    · rw [hinst, Instance.after_initialPayload]
      rfl
  obtain ⟨task, ht, hmachine, hinitial⟩ := hcame processor
    (List.replicate 4 .step ++ sends ++ List.replicate 19 .step)
  have hwaits : ((h.after deeds).task? 0).bind (·.inst.pending?) = some "retry" := by
    decide +kernel
  have hfailed : ((h.after deeds).task? 0).map (·.inst.runState.current) = some "failed" := by
    decide +kernel
  have hheeded : h.heeded 0 deeds = ["start_job", "fail", "retry", "fail", "retry", "fail"] := by
    decide +kernel
  rw [ht] at hwaits hfailed
  have hcurrent : task.inst.runState.current = "failed" := Option.some.inj hfailed
  obtain ⟨payload, hphase⟩ := Instance.pending?_eq_some.1 hwaits
  obtain ⟨-, hallowed, hruns⟩ := a_job_counts_its_attempts
  have hstart := hallowed [] ⟨"idle", .text "start_job", .null, .null⟩ (.text "processing")
    (.record [("attempts", .int 1)]) rfl
  obtain ⟨⟨-, hcounts⟩, hkeeps, -, hdecides⟩ := hruns settings [] {} deeds 0 task ht hmachine
    ⟨[], hinitial ▸ .nothing⟩
  obtain ⟨job, n, hpayload, hcounted⟩ := hcounts (hcurrent ▸ by decide)
  obtain rfl : n = 3 := by
    have hcount := hcounted.count
    rw [hheeded] at hcount
    exact hcount
  obtain ⟨result, hgiven, -, hrejects⟩ := hdecides _ _ hphase
  have hexhausted : Exhausted task.inst.runState "retry" := ⟨rfl, job, hpayload, hcounted.tried⟩
  obtain ⟨⟨rejection, hreporting⟩, hkept⟩ :=
    hrejects fun e x hevent _ => Value.text.inj hevent ▸ hexhausted
  exact ⟨hstart, hheeded, task, job, result, ht, hpayload, hcounted, hgiven,
    ⟨payload, rejection, hreporting⟩, hkept, hkeeps .step (by decide +kernel)⟩

end Jobs
end Turnstile

-- Where requests go: a request that arrives in the mailbox of a task stays there until the body of
-- this task takes it, one after the other in their order, or drops all that are left on the way
-- out. What has ended and stopped gets nothing more, and takes nothing more.
import Turnstile.Proofs.Instance.OneAtATime
import Turnstile.Proofs.Supervisor.Announced

namespace Turnstile

namespace Instance

variable {i j : Instance}

/-! ## The mailbox of an instance -/

/-- The request that a step of the body takes out of the mailbox, if it takes one. -/
def taken (i : Instance) (s : Stimulus) : List Request :=
  match i.phase, s with
  | .idle, .receive => i.mailbox.take 1
  | _, _ => []

/-- What a step does about the mailbox: the first request is taken, or none, and the others stay; or
all that are left are dropped, for the instance has stopped. -/
inductive Takes (i : Instance) (taken : List Request) (j : Instance) : Prop where
  | on (hmailbox : i.mailbox = taken ++ j.mailbox)
  | out (hempty : j.mailbox = []) (hstopped : j.alive = false) (htaken : taken <+: i.mailbox)

theorem takes_leave (i : Instance) (reason : StopReason) (ending : Ending) {k : Instance} :
    i.Takes [] ((k.markStopped reason).leave ending).1 :=
  .out rfl (markStopped_alive k reason) List.nil_prefix

theorem takes_escape (i : Instance) (fault : Fault) : i.Takes [] (i.escape fault).1 := by
  unfold escape
  split
  · exact i.takes_leave .killed .cancelled
  · exact i.takes_leave .crash (.failed fault)

theorem takes_settleOutcome (i : Instance) (event payload : Value) (outcome : Outcome) :
    i.Takes [] (i.settleOutcome event payload outcome).1 := by
  unfold settleOutcome
  simp only
  split
  · exact .on rfl
  · exact .on rfl
  · exact .on rfl
  · split
    · exact .on rfl
    · split
      · split
        · exact i.takes_leave .terminal .returned
        · exact .on rfl
      · exact .on rfl

theorem takes_decide (i : Instance) (event payload : Value) (result : Except Fault Outcome) :
    i.Takes [] (i.decide event payload result).1 := by
  unfold decide
  split
  · exact i.takes_settleOutcome event payload _
  · split
    · exact i.takes_escape _
    · exact .on rfl

theorem takes_report (i : Instance) (event : Value) (rejection : Rejection)
    (result : Except Fault Unit) : i.Takes [] (i.report event rejection result).1 := by
  unfold report
  simp only
  split
  · exact .on rfl
  · split
    · exact i.takes_escape _
    · exact .on rfl

theorem takes_terminate (i : Instance) (ending : Ending) (result : Except Fault Unit) :
    i.Takes [] (i.terminate ending result).1 := by
  unfold terminate
  simp only
  split
  · exact .on rfl
  · split <;> exact .on rfl

theorem takes_handle {r : Request} {rest : List Request} (hmailbox : i.mailbox = r :: rest) :
    i.Takes [r] ({ i with mailbox := rest }.handle r).1 := by
  cases r with
  | stop => exact .out rfl (markStopped_alive _ _) ⟨rest, hmailbox.symm⟩
  | transition event payload => exact .on hmailbox
  | query call question abandoned =>
    unfold handle
    simp only
    split <;> exact .on hmailbox

theorem taken_of_other {s : Stimulus} (hother : i.phase = .idle → s ≠ .receive) :
    i.taken s = [] := by
  unfold taken
  split
  · exact absurd rfl (hother ‹_›)
  · rfl

/-- Only a body that looks into its mailbox takes something out of it. -/
theorem takes_step (i : Instance) (s : Stimulus) : i.Takes (i.taken s) (i.step s).1 := by
  by_cases hreceive : i.phase = .idle ∧ s = .receive
  · obtain ⟨hphase, rfl⟩ := hreceive
    cases hmailbox : i.mailbox with
    | nil => exact .on (by simp [taken, step, hphase, hmailbox])
    | cons r rest =>
      have htaken : i.taken .receive = [r] := by simp [taken, hphase, hmailbox]
      have hstep : i.step .receive = { i with mailbox := rest }.handle r := by
        simp [step, hphase, hmailbox]
      rw [htaken, hstep]
      exact takes_handle hmailbox
  · rw [taken_of_other fun hphase hs => hreceive ⟨hphase, hs⟩]
    unfold step
    split
    · exact .on rfl
    · exact .on rfl
    · exact absurd ⟨‹_›, rfl⟩ hreceive
    · exact i.takes_leave .killed .cancelled
    · exact i.takes_decide _ _ _
    · exact i.takes_report _ _ _
    · split
      · exact .on rfl
      · exact i.takes_escape _
    · exact i.takes_terminate _ _
    · split <;> exact .on rfl
    · exact .on rfl

/-- What comes from outside is added at the end, and only to what has not stopped. -/
theorem outside_mailbox {moves : List Move} (hmoves : ∀ m ∈ moves, m.Outside) :
    ∃ marked more, (i.after moves).mailbox = marked ++ more ∧
      marked.map Request.unmarked = i.mailbox.map Request.unmarked ∧
      (i.alive = false → more = []) := by
  have hkeeps := outside_keeps (i := i) (P := fun j => j.alive = i.alive ∧ ∃ marked more,
    j.mailbox = marked ++ more ∧
    marked.map Request.unmarked = i.mailbox.map Request.unmarked ∧ (i.alive = false → more = []))
    ?_ ?_ hmoves ⟨rfl, i.mailbox, [], (List.append_nil _).symm, rfl, fun _ => rfl⟩
  · exact hkeeps.2
  · rintro j r ⟨halive, marked, more, hmailbox, hmarked, hnone⟩
    simp only [move, Instance.post]
    by_cases hgoing : j.alive = true
    · rw [if_pos hgoing]
      refine ⟨halive, marked, more ++ [r], ?_, hmarked, fun hstopped => ?_⟩
      · show j.mailbox ++ [r] = _
        rw [hmailbox, List.append_assoc]
      · cases hgoing.symm.trans (halive.trans hstopped)
    · rw [if_neg hgoing]
      exact ⟨halive, marked, more, hmailbox, hmarked, hnone⟩
  · rintro j call ⟨halive, marked, more, hmailbox, hmarked, hnone⟩
    have hmark : ∀ {k : Instance}, (k.abandon call).mailbox.map Request.unmarked =
      k.mailbox.map Request.unmarked := fun {k} => Live.abandon_unmarked k call
    refine ⟨halive, ({ j with mailbox := marked }.abandon call).mailbox,
      ({ j with mailbox := more }.abandon call).mailbox, ?_, hmark.trans hmarked,
      fun hstopped => ?_⟩
    · simp [abandon, hmailbox]
    · simp [abandon, hnone hstopped]

/-- An instance that has stopped, and whose body is over. -/
structure Closed (i : Instance) : Prop where
  stopped : i.alive = false
  empty : i.mailbox = []
  finished : ∃ ending, i.phase = .finished ending

theorem Closed.outside {moves : List Move} (hclosed : i.Closed) (hmoves : ∀ m ∈ moves, m.Outside) :
    (i.after moves).Closed := by
  obtain ⟨marked, more, hmailbox, hmarked, hnone⟩ := i.outside_mailbox hmoves
  rw [hclosed.empty, List.map_nil, List.map_eq_nil_iff] at hmarked
  refine ⟨stopped_after hclosed.stopped moves, ?_, ?_⟩
  · rw [hmailbox, hmarked, hnone hclosed.stopped]
    rfl
  · rw [(after_outside hmoves i).2.2.1]
    exact hclosed.finished

end Instance

namespace Host

variable {h h₀ : Host} {t : Nat} {task : Task}

/-! ## The mailbox of a task -/

/-- What the body of a task takes out of its mailbox in a deed. -/
def takes (h : Host) (t : Nat) (d : Deed) : List Request :=
  (h.task? t).elim [] fun task => (h.given t d).elim [] task.inst.taken

/-- What arrives in the mailbox of a task in a deed: all that stands there afterwards behind what
the body has left. -/
def gets (h : Host) (t : Nat) (d : Deed) : List Request :=
  ((h.act d).task? t).elim [] fun task' => task'.inst.mailbox.drop
    ((h.task? t).elim 0 fun task => (h.moved t d task.inst).mailbox.length)

/-- What the body of a task takes out of its mailbox in a run. -/
def takings (h : Host) (t : Nat) (deeds : List Deed) : List Request :=
  h.during (fun h d => h.takes t d) deeds

/-- What arrives in the mailbox of a task in a run. -/
def arrivals (h : Host) (t : Nat) (deeds : List Deed) : List Request :=
  h.during (fun h d => h.gets t d) deeds

theorem takings_of_none {deeds : List Deed} (ht : (h.after deeds).task? t = none) :
    h.takings t deeds = [] := by
  refine during_of_none (fun g d hg => ?_) ht
  unfold takes
  rw [none_before hg]
  rfl

theorem arrivals_of_none {deeds : List Deed} (ht : (h.after deeds).task? t = none) :
    h.arrivals t deeds = [] := by
  refine during_of_none (fun g d hg => ?_) ht
  unfold gets
  rw [hg]
  rfl

/-- What stands in the mailbox of a task after a deed: what its body has left, and what has arrived
since. -/
theorem mailbox_act (ht : h.task? t = some task) (d : Deed) : ∃ task',
    (h.act d).task? t = some task' ∧ task'.inst.mailbox.map Request.unmarked =
      (h.moved t d task.inst).mailbox.map Request.unmarked ++ (h.gets t d).map Request.unmarked ∧
    ((h.moved t d task.inst).alive = false → task'.inst.alive = false ∧ h.gets t d = []) := by
  obtain ⟨task', ht', hstays⟩ := act_task ht d
  obtain ⟨moves, houtside, hinst⟩ := hstays.inst
  have hinst : task'.inst = (h.moved t d task.inst).after moves := hinst
  obtain ⟨marked, more, hmailbox, hmarked, hnone⟩ :=
    (h.moved t d task.inst).outside_mailbox houtside
  have hlength := congrArg List.length hmarked
  rw [List.length_map, List.length_map] at hlength
  have hgets : h.gets t d = more := by
    unfold gets
    rw [ht, ht', Option.elim_some, Option.elim_some, hinst, hmailbox, ← hlength, List.drop_left]
  refine ⟨task', ht', ?_, fun hstopped => ⟨?_, hgets.trans (hnone hstopped)⟩⟩
  · rw [hinst, hmailbox, hgets, List.map_append, hmarked]
  · rw [hinst]
    exact Instance.stopped_after hstopped moves

/-! ## The ledger -/

/-- What has arrived in the mailbox of a task has been taken, one after the other, or is still
there, unless the instance has stopped: then the mailbox is empty. -/
inductive Booked (h₀ : Host) (deeds : List Deed) (t : Nat) (task : Task) : Prop where
  | going (hmailbox : (h₀.arrivals t deeds).map Request.unmarked =
      (h₀.takings t deeds).map Request.unmarked ++ task.inst.mailbox.map Request.unmarked)
  | stopped (halive : task.inst.alive = false) (hempty : task.inst.mailbox = [])
    (htaken : (h₀.takings t deeds).map Request.unmarked <+:
      (h₀.arrivals t deeds).map Request.unmarked)

theorem Booked.taken_begins {deeds : List Deed} (h : Booked h₀ deeds t task) :
    (h₀.takings t deeds).map Request.unmarked <+: (h₀.arrivals t deeds).map Request.unmarked := by
  cases h with
  | going hmailbox => exact ⟨_, hmailbox.symm⟩
  | stopped halive hempty htaken => exact htaken

theorem takes_moved (h : Host) (t : Nat) (d : Deed) (i : Instance) :
    i.Takes ((h.given t d).elim [] i.taken) (h.moved t d i) := by
  unfold moved
  cases h.given t d with
  | none => exact .on rfl
  | some s => exact i.takes_step s

theorem Booked.act {deeds : List Deed} (h : Booked h₀ deeds t task)
    (ht : (h₀.after deeds).task? t = some task) (d : Deed) :
    ∃ task', (h₀.after (deeds ++ [d])).task? t = some task' ∧ Booked h₀ (deeds ++ [d]) t task' := by
  obtain ⟨task', ht', hmailbox', hstopped'⟩ := mailbox_act ht d
  have htakes : h₀.takings t (deeds ++ [d]) = h₀.takings t deeds ++
      ((h₀.after deeds).given t d).elim [] task.inst.taken := by
    unfold takings
    rw [during_snoc]
    unfold takes
    rw [ht]
    rfl
  have hgets : h₀.arrivals t (deeds ++ [d]) = h₀.arrivals t deeds ++ (h₀.after deeds).gets t d :=
    h₀.during_snoc _ deeds d
  refine ⟨task', (congrArg (·.task? t) (after_snoc h₀ deeds d)).trans ht', ?_⟩
  have hmoved := (h₀.after deeds).takes_moved t d task.inst
  cases h with
  | going hmailbox =>
    cases hmoved with
    | on hleft =>
      refine .going ?_
      rw [htakes, hgets, List.map_append, List.map_append, hmailbox, hmailbox', hleft]
      simp
    | out hempty hstopped htaken =>
      obtain ⟨halive, hnone⟩ := hstopped' hstopped
      rw [hempty, hnone] at hmailbox'
      refine .stopped halive (List.map_eq_nil_iff.1 hmailbox') ?_
      rw [htakes, hgets, hnone, List.append_nil, List.map_append, hmailbox]
      exact (List.prefix_append_right_inj _).2 (htaken.map _)
  | stopped halive hempty htaken =>
    have hnothing : ((h₀.after deeds).given t d).elim [] task.inst.taken = [] ∧
        ((h₀.after deeds).moved t d task.inst).mailbox = [] := by
      cases hmoved with
      | on hleft => exact List.append_eq_nil_iff.1 (hleft.symm.trans hempty)
      | out hempty' hstopped htaken => exact ⟨List.prefix_nil.1 (hempty ▸ htaken), hempty'⟩
    have hstopped : ((h₀.after deeds).moved t d task.inst).alive = false := by
      unfold moved
      cases (h₀.after deeds).given t d with
      | none => exact halive
      | some s => exact (Instance.stopped_step halive s).alive
    obtain ⟨halive', hnone⟩ := hstopped' hstopped
    rw [hnothing.2, hnone] at hmailbox'
    refine .stopped halive' (List.map_eq_nil_iff.1 hmailbox') ?_
    rw [htakes, hgets, hnone, hnothing.1, List.append_nil, List.append_nil]
    exact htaken

/-- At every moment of every run. -/
theorem booked_after (settings : Settings) (registry : Registry) (bus : Bus Observer)
    (deeds : List Deed) (ht : ((opened settings registry bus).after deeds).task? t = some task) :
    Booked (opened settings registry bus) deeds t task := by
  induction deeds using List.reverseRecOn generalizing task with
  | nil => simp [after, opened, task?] at ht
  | append_singleton deeds d ih =>
    cases hbefore : ((opened settings registry bus).after deeds).task? t with
    | some old =>
      obtain ⟨task', ht', hbooked⟩ := (ih hbefore).act hbefore d
      obtain rfl := Option.some.inj (ht.symm.trans ht')
      exact hbooked
    | none =>
      have hact := (congrArg (·.task? t) (after_snoc _ deeds d)).symm.trans ht
      have htakes : (opened settings registry bus).takings t (deeds ++ [d]) = [] := by
        unfold takings
        rw [during_snoc]
        exact List.append_eq_nil_iff.2 ⟨takings_of_none hbefore, by simp [takes, hbefore]⟩
      have hgets : (opened settings registry bus).arrivals t (deeds ++ [d]) =
          task.inst.mailbox := by
        unfold arrivals
        rw [during_snoc]
        refine (congrArg (· ++ _) (arrivals_of_none hbefore)).trans ?_
        simp only [gets, hbefore, List.nil_append]
        rw [hact]
        rfl
      refine .going ?_
      rw [htakes, hgets]
      rfl

/-! ## Tasks that are closed -/

/-- Nothing happens any more to a task that is closed. -/
theorem closed_act (ht : h.task? t = some task) (hclosed : task.inst.Closed) (d : Deed) :
    h.takes t d = [] ∧ h.gets t d = [] ∧
      ∃ task', (h.act d).task? t = some task' ∧ task'.inst.Closed := by
  obtain ⟨ending, hphase⟩ := hclosed.finished
  have hmoved : h.moved t d task.inst = task.inst := by
    unfold moved
    cases h.given t d with
    | none => rfl
    | some s => exact congrArg Prod.fst (Instance.step_finished hphase s)
  obtain ⟨task', ht', hstays⟩ := act_task ht d
  obtain ⟨moves, houtside, hinst⟩ := hstays.inst
  obtain ⟨other, hother, -, hnone⟩ := mailbox_act ht d
  refine ⟨?_, (hnone (by rw [hmoved]; exact hclosed.stopped)).2, task', ht', ?_⟩
  · unfold takes
    rw [ht, Option.elim_some]
    cases h.given t d with
    | none => rfl
    | some s => exact Instance.taken_of_other fun hidle => by cases hphase.symm.trans hidle
  · have hinst : task'.inst = (h.moved t d task.inst).after moves := hinst
    rw [hinst, hmoved]
    exact hclosed.outside houtside

theorem closed_after (ht : h.task? t = some task) (hclosed : task.inst.Closed)
    (deeds : List Deed) : h.takings t deeds = [] ∧ h.arrivals t deeds = [] ∧
      ∃ task', (h.after deeds).task? t = some task' ∧ task'.inst.Closed := by
  induction deeds generalizing h task with
  | nil => exact ⟨rfl, rfl, task, ht, hclosed⟩
  | cons d deeds ih =>
    obtain ⟨htakes, hgets, task', ht', hclosed'⟩ := closed_act ht hclosed d
    obtain ⟨htaken, harrived, hlater⟩ := ih ht' hclosed'
    exact ⟨List.append_eq_nil_iff.2 ⟨htakes, htaken⟩, List.append_eq_nil_iff.2 ⟨hgets, harrived⟩,
      hlater⟩

end Host
end Turnstile

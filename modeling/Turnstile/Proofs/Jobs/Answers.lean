-- What the hook of a job answers. Its own list of targets is the diagram of the job, edge by
-- edge, and it succeeds along these edges alone, so that no answer of it is undeclared.
import Mathlib.Data.Rat.Cast.Order
import Turnstile.Jobs.Hooks
import Turnstile.Proofs.Supervisor.Prompt
import Turnstile.Proofs.Table.Queries

namespace Turnstile

/-- A key that was set has the new value, and all others keep theirs. -/
theorem Value.lookup_setField {α : Type} (fields : List (String × α)) (key k : String) (v : α) :
    (Value.setField fields key v).lookup k = if k = key then some v else fields.lookup k := by
  induction fields with
  | nil => exact Table.lookup_entry [] key k v
  | cons field rest ih =>
    obtain ⟨name, w⟩ := field
    unfold setField
    by_cases hname : name = key
    · subst hname
      by_cases hk : k = name <;> simp [Table.lookup_entry, hk]
    · rw [if_neg hname, Table.lookup_entry, Table.lookup_entry, ih]
      by_cases hk : k = name
      · subst hk
        simp [hname]
      · simp [hk]

/-- A count is compared with a bound as a natural number. -/
theorem Number.geRat_count (n k : Nat) : (Number.whole n).geRat k = decide (k ≤ n) := by
  have hcast : ((n : Int) : Rat) = (n : Rat) := Int.cast_natCast n
  rw [Bool.eq_iff_iff]
  simp only [geRat, gtRat, eqRat, hcast, Nat.cast_lt, Nat.cast_inj, Bool.or_eq_true,
    decide_eq_true_eq, beq_iff_eq]
  omega

theorem Dialect.compile_of_toList (dialect : Dialect) {text : String} {cs : List Char}
    (h : text.toList = cs) : dialect.compile text =
      (dialect.edgesFrom true 1 (Text.lines cs)).bind (Table.ofEdges dialect.name) := by
  unfold compile edges
  rw [h]
  cases dialect.edgesFrom true 1 (Text.lines cs) <;> rfl

namespace Jobs

variable {s e : String} {event payload : Value} {job : List (String × Value)} {n : Nat}

/-! ## The edges -/

/-- The table of a job. -/
def table : Table where
  initial := "idle"
  transitions := [
    ⟨"idle", "start_job", .state "processing"⟩,
    ⟨"processing", "complete", .state "complete"⟩,
    ⟨"processing", "fail", .state "failed"⟩,
    ⟨"processing", "cancel", .state "idle"⟩,
    ⟨"failed", "retry", .state "processing"⟩,
    ⟨"complete", "reset", .state "idle"⟩,
    ⟨"complete", "archive", .terminal⟩,
    ⟨"failed", "abandon", .terminal⟩]
  entryEvents := ["create"]

/-- The machine of a job, with its diagram compiled. -/
def processor : Machine := .ofTable "job_processor" table (hooks "JobHooks")

theorem machine_eq : machine = .ok processor := by
  -- The characters of a text are found faster line by line.
  have hcharacters : diagram.toList = _ := String.toList_intercalate
  have hcompiled : Dialect.plantuml.compile diagram = .ok table := by
    rw [Dialect.compile_of_toList _ hcharacters]
    decide +kernel
  unfold machine
  rw [hcompiled]
  rfl

/-- The hook has a target for exactly the edges of the diagram. -/
theorem targetOf_eq_some {v : Value} :
    targetOf s e = some v ↔ ∃ x : Target, v = x.toValue ∧ ⟨s, e, x⟩ ∈ table.transitions := by
  unfold targetOf
  split <;> simp_all [table, Target.toValue, eq_comm]

/-- An event leads to one target only. -/
theorem target_unique {x y : Target} (hx : ⟨s, e, x⟩ ∈ table.transitions)
    (hy : ⟨s, e, y⟩ ∈ table.transitions) : x = y := by
  have hall : ∀ edge ∈ table.transitions, ∀ other ∈ table.transitions,
      edge.source = other.source → edge.event = other.event → edge.target = other.target := by
    decide
  exact hall _ hx _ hy rfl rfl

theorem failed_of_retry {x : Target} (hedge : ⟨s, "retry", x⟩ ∈ table.transitions) :
    s = "failed" := by
  have hall : ∀ edge ∈ table.transitions, edge.event = "retry" → edge.source = "failed" := by
    decide
  exact hall _ hedge rfl

/-! ## The record -/

/-- The count of a job: how often it was tried. -/
def Tried (job : List (String × Value)) (n : Nat) : Prop :=
  job.lookup "attempts" = some (.int n)

/-- A payload that holds the record of a job, or nothing before the job is started. -/
inductive Holds : Value → List (String × Value) → Prop where
  | nothing : Holds .null []
  | record (job : List (String × Value)) : Holds (.record job) job

/-- How an event takes the record of a job on: a start begins to count, a retry counts one more as
long as there are few, and nothing else touches the count. -/
inductive Advances (job : List (String × Value)) : String → List (String × Value) → Prop where
  | started {job' : List (String × Value)} (htried : Tried job' 1) : Advances job "start_job" job'
  | retried {n : Nat} {job' : List (String × Value)} (hbefore : Tried job n)
    (hfew : n < maxAttempts) (htried : Tried job' (n + 1)) : Advances job "retry" job'
  | kept {e : String} {job' : List (String × Value)} (hstart : e ≠ "start_job")
    (hretry : e ≠ "retry") (hsame : job'.lookup "attempts" = job.lookup "attempts") :
    Advances job e job'

theorem record_of_holds (h : Holds payload job) : record payload = .ok job := by
  cases h with
  | nothing => rfl
  | record => cases job <;> rfl

theorem update_start (eventPayload : Value) (job : List (String × Value)) :
    ∃ job', update "start_job" eventPayload job = .ok (.ok job') ∧ Tried job' 1 := by
  refine ⟨_, rfl, ?_⟩
  unfold Tried
  split <;> simp [Value.lookup_setField]

theorem update_retry (htried : Tried job n) (eventPayload : Value) :
    (n < maxAttempts ∧ ∃ job', update "retry" eventPayload job = .ok (.ok job') ∧
      Tried job' (n + 1)) ∨
    (maxAttempts ≤ n ∧ update "retry" eventPayload job = .ok (.error "too many attempts")) := by
  have hattempts : attempts job = .ok (.whole n) := by
    unfold attempts
    rw [htried]
    rfl
  unfold update
  simp only [hattempts, bind, Except.bind, pure, Except.pure, Number.geRat_count, decide_eq_true_eq]
  by_cases hmany : maxAttempts ≤ n
  · exact .inr ⟨hmany, if_pos hmany⟩
  · refine .inl ⟨Nat.lt_of_not_le hmany, _, if_neg hmany, ?_⟩
    unfold Tried
    rw [Value.lookup_setField, if_pos rfl]
    rfl

theorem update_other (hstart : e ≠ "start_job") (hretry : e ≠ "retry") (eventPayload : Value)
    (job : List (String × Value)) : ∃ job', update e eventPayload job = .ok (.ok job') ∧
      job'.lookup "attempts" = job.lookup "attempts" := by
  unfold update
  split
  · exact absurd rfl hstart
  · exact absurd rfl hretry
  · refine ⟨_, rfl, ?_⟩
    rw [Value.lookup_setField, if_neg (by decide)]
  · exact ⟨job, rfl, rfl⟩

/-- An event takes the record of a job on, unless it is a retry too many. -/
theorem update_cases (eventPayload : Value) (htried : e = "retry" → ∃ n, Tried job n) :
    (∃ job', update e eventPayload job = .ok (.ok job') ∧ Advances job e job') ∨
    (e = "retry" ∧ ∃ n, Tried job n ∧ maxAttempts ≤ n ∧
      update e eventPayload job = .ok (.error "too many attempts")) := by
  by_cases hstart : e = "start_job"
  · subst hstart
    obtain ⟨job', hupdate, hone⟩ := update_start eventPayload job
    exact .inl ⟨job', hupdate, .started hone⟩
  · by_cases hretry : e = "retry"
    · subst hretry
      obtain ⟨n, hn⟩ := htried rfl
      rcases update_retry hn eventPayload with ⟨hfew, job', hupdate, hmore⟩ | ⟨hmany, hupdate⟩
      · exact .inl ⟨job', hupdate, .retried hn hfew hmore⟩
      · exact .inr ⟨rfl, n, hn, hmany, hupdate⟩
    · obtain ⟨job', hupdate, hsame⟩ := update_other hstart hretry eventPayload job
      exact .inl ⟨job', hupdate, .kept hstart hretry hsame⟩

/-! ## The hook -/

/-- What the hook of a job answers to an event: it follows an edge, with a record that the event
takes on, or refuses a retry too many, or what labels no edge, or fails on what is no key. -/
inductive Answers (s : String) (event : Value) (job : List (String × Value)) :
    Except Fault Outcome → Prop where
  | along {e : String} {x : Target} {job' : List (String × Value)} (hevent : event = .text e)
    (hedge : ⟨s, e, x⟩ ∈ table.transitions) (hadvances : Advances job e job') :
    Answers s event job (.ok (.success x.toValue (.record job')))
  | exhausted {n : Nat} (hevent : event = .text "retry") (htried : Tried job n)
    (hmany : maxAttempts ≤ n) :
    Answers s event job (.ok (.failure (.text "too many attempts")))
  | unknown {reason : Value} (hnone : ∀ e x, event = .text e → ⟨s, e, x⟩ ∉ table.transitions) :
    Answers s event job (.ok (.failure reason))
  | notKey (hkey : event.isKey = false) : Answers s event job (.error (.notKey event))

theorem answers (eventPayload : Value) (hholds : Holds payload job)
    (htried : s = "failed" → ∃ n, Tried job n) :
    Answers s event job (answer ⟨s, event, eventPayload, payload⟩) := by
  cases event with
  | text e =>
    unfold answer
    simp only
    cases htarget : targetOf s e with
    | none =>
      refine .unknown fun e' x heq hedge => ?_
      obtain rfl := Value.text.inj heq
      cases htarget.symm.trans (targetOf_eq_some.2 ⟨x, rfl, hedge⟩)
    | some v =>
      obtain ⟨x, rfl, hedge⟩ := targetOf_eq_some.1 htarget
      have hretried : e = "retry" → ∃ n, Tried job n := by
        rintro rfl
        exact htried (failed_of_retry hedge)
      simp only [record_of_holds hholds, bind, Except.bind]
      rcases update_cases eventPayload hretried with
        ⟨job', hupdate, hadvances⟩ | ⟨rfl, n, hn, hmany, hupdate⟩
      · rw [hupdate]
        exact .along rfl hedge hadvances
      · rw [hupdate]
        exact .exhausted rfl hn hmany
  | list items => exact .notKey rfl
  | record fields => exact .notKey rfl
  | _ => exact .unknown nofun

theorem Answers.of_success {v next : Value} (h : Answers s event job (.ok (.success v next))) :
    ∃ e x job', event = .text e ∧ v = Target.toValue x ∧ next = .record job' ∧
      ⟨s, e, x⟩ ∈ table.transitions ∧ Advances job e job' := by
  cases h with
  | along hevent hedge hadvances => exact ⟨_, _, _, hevent, rfl, rfl, hedge, hadvances⟩

/-- Whatever the hook is asked, even of a payload that holds no job, it follows an edge, fails or
raises a fault. -/
theorem answer_cases (call : TransitionCall) :
    (∃ x job, table.allowed call.state x = true ∧
      answer call = .ok (.success x.toValue (.record job))) ∨
    (∃ reason, answer call = .ok (.failure reason)) ∨ ∃ fault, answer call = .error fault := by
  unfold answer
  simp only [bind, Except.bind, pure, Except.pure]
  split
  · split
    · exact .inr (.inl ⟨_, rfl⟩)
    · rename_i htarget
      obtain ⟨x, rfl, hedge⟩ := targetOf_eq_some.1 htarget
      split
      · exact .inr (.inr ⟨_, rfl⟩)
      · split
        · exact .inr (.inr ⟨_, rfl⟩)
        · split
          · exact .inl ⟨x, _, Table.allowed_iff.2 ⟨_, hedge, rfl, rfl⟩, rfl⟩
          · exact .inr (.inl ⟨_, rfl⟩)
  · split
    · exact .inr (.inl ⟨_, rfl⟩)
    · exact .inr (.inr ⟨_, rfl⟩)

/-- So its target is always at the end of an edge, and it hands out no rejections of its own. -/
theorem declared_of_answer (call : TransitionCall) :
    (∀ target payload, answer call = .ok (.success target payload) →
      table.allowedValue (.text call.state) target = true) ∧
    ∀ rejection, answer call ≠ .ok (.rejected rejection) := by
  rcases answer_cases call with ⟨x, job, hallowed, hanswer⟩ | ⟨reason, hanswer⟩ | ⟨fault, hanswer⟩
  · rw [hanswer]
    refine ⟨fun target payload h => ?_, fun rejection => by simp⟩
    obtain ⟨rfl, -⟩ := Outcome.success.inj (Except.ok.inj h)
    cases x <;> exact hallowed
  · rw [hanswer]
    exact ⟨fun target payload => by simp, fun rejection => by simp⟩
  · rw [hanswer]
    exact ⟨fun target payload => by simp, fun rejection => by simp⟩

theorem prompt : processor.hooks.onTransition.Prompt := ⟨fun _ _ => rfl, fun _ _ => rfl⟩

/-- A refusal of the hook's answer says nothing of an undeclared target. -/
theorem refusal_declared (past : HookPast) (call : TransitionCall) (rejection : Rejection)
    (h : Refusal processor.table call.state call.event
      (processor.hooks.onTransition.react past call).result rejection)
    (event state target : Value) : rejection ≠ .undeclared event state target := by
  obtain ⟨hallowed, hown⟩ := declared_of_answer call
  exact h.declared hallowed hown event state target

end Jobs
end Turnstile

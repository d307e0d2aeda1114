-- What instances reject. A body rejects from the answer of its transition hook alone, and tells
-- what it has reported. So what the refusals of a hook have in common its instances reject for.
import Turnstile.Proofs.Supervisor.Courses

namespace Turnstile

/-! ## Undeclared targets -/

section
variable {event state event' state' target : Value}

/-- The advice of a rejection tells why it was rejected. -/
theorem Rejection.refused_ne_undeclared {reason : Value} :
    Rejection.refused event state reason ≠ .undeclared event' state' target := by
  intro heq
  have hfix := congrArg (·.report.fix) heq
  simp [Rejection.refused, Rejection.undeclared] at hfix

theorem Rejection.raised_ne_undeclared {fault : Fault} :
    Rejection.raised event state fault ≠ .undeclared event' state' target := by
  intro heq
  have hfix := congrArg (·.report.fix) heq
  simp [Rejection.raised, Rejection.undeclared] at hfix

end

/-- What a hook answers that names declared targets only, and hands out no rejections of its own, is
not rejected for an undeclared target. -/
theorem Refusal.declared {table : Table} {state : String} {event : Value}
    {result : Except Fault Outcome} {rejection : Rejection}
    (h : Refusal table state event result rejection)
    (hallowed : ∀ target payload, result = .ok (.success target payload) →
      table.allowedValue (.text state) target = true)
    (hown : ∀ rejection, result ≠ .ok (.rejected rejection)) (event' state' target : Value) :
    rejection ≠ .undeclared event' state' target := by
  cases h with
  | raised => exact Rejection.raised_ne_undeclared
  | rejected => exact absurd rfl (hown _)
  | failed => exact Rejection.refused_ne_undeclared
  | other => exact Rejection.refused_ne_undeclared
  | undeclared hnot => cases (hallowed _ _ rfl).symm.trans hnot

namespace Instance

variable {i : Instance} {s : Stimulus} {event payload : Value} {log : List Notification}

/-! ## The way of a rejection -/

/-- What a step of a body has to do with rejections: nothing; or the body stands still; or the
outcome of the transition hook is refused, which the failure hook is told; or what the failure hook
was told is published. -/
inductive Rejects (i : Instance) (s : Stimulus) (next : Instance × List Effect) : Prop where
  | nothing (hphase : ∀ event payload rejection, next.1.phase ≠ .reporting event payload rejection)
    (hquiet : ∀ name event state rejection, .publish (.rejected name event state rejection) ∉ next.2)
  | still (hnext : next = (i, []))
  | refused {event payload : Value} {result : Except Fault Outcome} {rejection : Rejection}
    (hdeciding : i.phase = .deciding event payload) (hgiven : s = .decided result)
    (hrefusal : Refusal i.machine.table i.runState.current event result rejection)
    (hphase : next.1.phase = .reporting event payload rejection)
    (hrunState : next.1.runState = i.runState)
    (hquiet : ∀ n, .publish n ∉ next.2)
  | told {event payload : Value} {rejection : Rejection}
    (hreporting : i.phase = .reporting event payload rejection)
    (hphase : next.1.phase = .publishing) (htold : ∀ n, .publish n ∈ next.2 →
      n = .rejected i.name event i.runState.current rejection)

theorem rejects_escape (i j : Instance) (fault : Fault) : i.Rejects s (j.escape fault) := by
  obtain ⟨ending, hphase⟩ := j.escape_phase fault
  exact .nothing (by simp [hphase]) fun _ _ _ _ => j.not_publish_escape fault

theorem rejects_leave (i j : Instance) (ending : Ending) : i.Rejects s (j.leave ending) :=
  .nothing (by simp [leave]) fun _ _ _ _ => j.not_publish_leave ending

theorem rejects_finishRun (i : Instance) (event : Value) : i.Rejects s (i.finishRun event) :=
  .nothing (by simp [finishRun, leave]) fun _ _ _ _ => i.not_publish_finishRun event

theorem rejects_settleOutcome {outcome : Outcome} (hdeciding : i.phase = .deciding event payload) :
    i.Rejects (.decided (.ok outcome)) (i.settleOutcome event payload outcome) := by
  have hrefused : ∀ {rejection}, Refusal i.machine.table i.runState.current event (.ok outcome)
      rejection → i.Rejects (.decided (.ok outcome)) (i.reject event payload rejection) :=
    fun hrefusal => .refused hdeciding rfl hrefusal rfl rfl (by simp [reject, record])
  cases outcome with
  | rejected rejection => exact hrefused (.rejected rejection)
  | failure reason => exact hrefused (.failed reason)
  | other v => exact hrefused (.other v)
  | success target p =>
    cases hallowed : i.machine.table.allowedValue (.text i.runState.current) target with
    | false =>
      rw [i.settleOutcome_undeclared event payload p hallowed]
      exact hrefused (.undeclared hallowed)
    | true =>
      -- an edge leads to the target, whether it is a state or the way out
      unfold Table.allowedValue at hallowed
      cases htarget : Target.ofValue? target with
      | none => simp [htarget] at hallowed
      | some x =>
        simp only [htarget] at hallowed
        unfold settleOutcome
        simp only [htarget, hallowed, if_true]
        cases x with
        | terminal => exact rejects_finishRun i event
        | state target => exact .nothing (by simp [commit]) (by simp [commit, record])

theorem rejects_decide {result : Except Fault Outcome}
    (hdeciding : i.phase = .deciding event payload) :
    i.Rejects (.decided result) (i.decide event payload result) := by
  cases result with
  | ok outcome => exact rejects_settleOutcome hdeciding
  | error fault =>
    unfold decide
    simp only
    split
    · exact i.rejects_escape i fault
    · rename_i hescapes
      obtain ⟨hcancellation, hexhaustion⟩ := Bool.or_eq_false_iff.1 (Bool.eq_false_iff.2 hescapes)
      exact .refused hdeciding rfl (.raised ⟨hcancellation, hexhaustion⟩) rfl rfl
        (by simp [reject, record])

theorem rejects_report {rejection : Rejection} {result : Except Fault Unit}
    (hreporting : i.phase = .reporting event payload rejection) :
    i.Rejects s (i.report event rejection result) := by
  unfold report
  cases result with
  | ok _ => exact .told hreporting rfl (by simp)
  | error fault =>
    simp only
    split
    · exact i.rejects_escape i fault
    · exact .told hreporting rfl (by simp [record])

theorem rejects_terminate (i : Instance) (ending : Ending) (result : Except Fault Unit) :
    i.Rejects s (i.terminate ending result) := by
  unfold terminate
  cases result with
  | ok _ => exact .nothing (by simp) (by simp)
  | error fault =>
    simp only
    split
    · exact .nothing (by simp) (by simp)
    · exact .nothing (by simp) (by simp [record])

theorem rejects_handle {j : Instance} (hidle : j.phase = .idle) (r : Request) :
    i.Rejects s (j.handle r) := by
  refine .nothing ?_ fun _ _ _ _ => j.not_publish_handle r
  cases r with
  | stop => simp [handle, leave]
  | transition event payload => simp [handle]
  | query call question abandoned =>
    unfold handle
    simp only
    split <;> simp [hidle]

theorem rejects_step (i : Instance) (s : Stimulus) : i.Rejects s (i.step s) := by
  unfold step
  split
  · exact .nothing (by simp [begin]) (by simp [begin, record])
  · exact .nothing (by simp) (by simp)
  · rename_i hidle
    split
    · exact .still rfl
    · rename_i r rest _
      exact rejects_handle (j := { i with mailbox := rest }) hidle r
  · exact rejects_leave i _ _
  · exact rejects_decide ‹_›
  · exact rejects_report ‹_›
  · split
    · exact .nothing (by simp) (by simp)
    · exact i.rejects_escape i _
  · exact i.rejects_terminate _ _
  · split <;> exact .nothing (by simp) (by simp)
  · exact .still rfl

section
variable {rejection : Rejection}

/-- A body comes to report a rejection where the answer of its transition hook is refused; otherwise
it has stood still. -/
theorem reporting_step (hphase : (i.step s).1.phase = .reporting event payload rejection) :
    (i.step s).1 = i ∨ ((i.step s).1.runState = i.runState ∧ i.phase = .deciding event payload ∧
      ∃ result, s = .decided result ∧
        Refusal i.machine.table i.runState.current event result rejection) := by
  cases i.rejects_step s with
  | nothing hother => exact absurd hphase (hother _ _ _)
  | still hnext => exact .inl (congrArg Prod.fst hnext)
  | refused hdeciding hs hrefusal hnext hrunState =>
    obtain ⟨rfl, rfl, rfl⟩ := Phase.reporting.inj (hnext.symm.trans hphase)
    exact .inr ⟨hrunState, hdeciding, _, hs, hrefusal⟩
  | told _ hpublishing => cases hpublishing.symm.trans hphase

/-- What a body tells of a rejection is what it has reported before. -/
theorem rejected_step {name : Value} {state : String}
    (htold : .publish (.rejected name event state rejection) ∈ (i.step s).2) :
    state = i.runState.current ∧ ∃ payload, i.phase = .reporting event payload rejection := by
  cases i.rejects_step s with
  | nothing _ hquiet => exact absurd htold (hquiet _ _ _ _)
  | still hnext =>
    rw [hnext] at htold
    cases htold
  | refused _ _ _ _ _ hquiet => exact absurd htold (hquiet _)
  | told hreporting _ hsame =>
    obtain ⟨-, rfl, rfl, rfl⟩ := Notification.rejected.inj (hsame _ htold)
    exact ⟨rfl, _, hreporting⟩

end

/-! ## What is rejected -/

section
variable {P : String → Value → Rejection → Prop}

/-- All that an instance rejects, and has told so far that it rejected, is rejected for reasons of
some kind, by the state and the event. -/
structure RejectsFor (P : String → Value → Rejection → Prop) (i : Instance)
    (log : List Notification) : Prop where
  reported : ∀ event payload rejection, i.phase = .reporting event payload rejection →
    P i.runState.current event rejection
  told : ∀ name event state rejection, .rejected name event state rejection ∈ log →
    P state event rejection

theorem rejectsFor_create (machine : Machine) (name payload : Value) :
    (create machine name payload).RejectsFor P [] :=
  ⟨fun event payload rejection => by simp [create], by simp⟩

theorem RejectsFor.of_subset {more : List Notification} (h : i.RejectsFor P more)
    (hlog : log ⊆ more) : i.RejectsFor P log :=
  ⟨h.reported, fun name event state rejection hmem => h.told name event state rejection (hlog hmem)⟩

theorem RejectsFor.outside {moves : List Move} (h : i.RejectsFor P log)
    (hmoves : ∀ m ∈ moves, m.Outside) : (i.after moves).RejectsFor P log := by
  obtain ⟨hrunState, -, hphase, -⟩ := after_outside hmoves i
  obtain ⟨hreported, htold⟩ := h
  rw [← hrunState, ← hphase] at hreported
  exact ⟨hreported, htold⟩

/-- A body goes on to reject for such reasons if its hook is refused for such reasons. -/
theorem RejectsFor.step (h : i.RejectsFor P log)
    (hrefused : ∀ event payload result rejection, i.phase = .deciding event payload →
      s = .decided result → Refusal i.machine.table i.runState.current event result rejection →
      P i.runState.current event rejection) :
    (i.step s).1.RejectsFor P (log ++ publications (i.step s).2) := by
  refine ⟨fun event payload rejection hphase => ?_, fun name event state rejection hmem => ?_⟩
  · rcases reporting_step hphase with hstill | ⟨hrunState, hdeciding, result, hs, hrefusal⟩
    · rw [hstill] at hphase ⊢
      exact h.reported event payload rejection hphase
    · rw [hrunState]
      exact hrefused event payload result rejection hdeciding hs hrefusal
  · rcases List.mem_append.1 hmem with hold | hnew
    · exact h.told name event state rejection hold
    · obtain ⟨rfl, payload, hreporting⟩ := rejected_step (mem_publications.1 hnew)
      exact h.reported event payload rejection hreporting

end

end Instance
end Turnstile

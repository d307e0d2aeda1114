-- How much an instance has left to do: each step of the body leaves less of it, so that an
-- instance that is left alone comes to rest.
import Turnstile.Proofs.Instance.Live

namespace Turnstile

/-- How much is left to do in a phase, the mailbox aside. -/
def Phase.rank : Phase → Nat
  | .deciding .. => 4
  | .reporting .. => 3
  | .fresh | .terminating _ => 2
  | .publishing | .announcing _ => 1
  | .idle | .finished _ => 0

namespace Instance

/-- How much an instance has left to do. No request takes more than five steps. -/
def rank (i : Instance) : Nat := 5 * i.mailbox.length + i.phase.rank

theorem reject_rank (i : Instance) (event payload : Value) (rejection : Rejection) :
    (i.reject event payload rejection).1.rank = 5 * i.mailbox.length + 3 := rfl

theorem commit_rank (i : Instance) (event : Value) (state : String) (payload : Value) :
    (i.commit event state payload).1.rank = 5 * i.mailbox.length + 1 := by
  unfold commit rank
  rfl

theorem finishRun_rank (i : Instance) (event : Value) : (i.finishRun event).1.rank = 2 := rfl

theorem escape_rank (i : Instance) (fault : Fault) : (i.escape fault).1.rank = 2 := by
  unfold escape
  split <;> rfl

theorem settleOutcome_rank (i : Instance) (event payload : Value) (outcome : Outcome) :
    (i.settleOutcome event payload outcome).1.rank ≤ 5 * i.mailbox.length + 3 := by
  unfold settleOutcome
  cases outcome with
  | rejected rejection => exact (i.reject_rank _ _ _).le
  | failure reason => exact (i.reject_rank _ _ _).le
  | other v => exact (i.reject_rank _ _ _).le
  | success target newPayload =>
    simp only
    split
    · exact (i.reject_rank _ _ _).le
    · split
      · split
        · rw [finishRun_rank]
          omega
        · rw [commit_rank]
          omega
      · exact (i.reject_rank _ _ _).le

theorem decide_rank (i : Instance) (event payload : Value) (result : Except Fault Outcome) :
    (i.decide event payload result).1.rank ≤ 5 * i.mailbox.length + 3 := by
  unfold decide
  cases result with
  | ok outcome => exact i.settleOutcome_rank event payload outcome
  | error fault =>
    simp only
    split
    · rw [escape_rank]
      omega
    · exact (i.reject_rank _ _ _).le

theorem report_rank (i : Instance) (event : Value) (rejection : Rejection)
    (result : Except Fault Unit) :
    (i.report event rejection result).1.rank ≤ 5 * i.mailbox.length + 2 := by
  have htold : ({ i with phase := .publishing } : Instance).rank =
      5 * i.mailbox.length + 1 := rfl
  unfold report
  cases result with
  | ok _ =>
    simp only [htold]
    omega
  | error fault =>
    simp only
    split
    · rw [escape_rank]
      omega
    · simp only [htold]
      omega

theorem terminate_rank (i : Instance) (ending : Ending) (result : Except Fault Unit) :
    (i.terminate ending result).1.rank ≤ 5 * i.mailbox.length + 1 := by
  have htold : ({ i with phase := .announcing ending } : Instance).rank =
      5 * i.mailbox.length + 1 := rfl
  have hcancelled : ({ i with phase := .finished .cancelled } : Instance).rank =
      5 * i.mailbox.length := rfl
  unfold terminate
  cases result with
  | ok _ =>
    simp only [htold]
    omega
  | error fault =>
    simp only
    split
    · simp only [hcancelled]
      omega
    · simp only [htold]
      omega

theorem handle_rank {i : Instance} (hphase : i.phase = .idle) (r : Request) :
    (i.handle r).1.rank ≤ 5 * i.mailbox.length + 4 := by
  cases r with
  | stop =>
    have hleft : (i.handle .stop).1.rank = 2 := rfl
    rw [hleft]
    omega
  | transition event payload => exact le_refl _
  | query call question abandoned =>
    have hidle : i.rank = 5 * i.mailbox.length := by
      unfold rank
      rw [hphase]
      rfl
    unfold handle
    simp only
    split <;> simp only [hidle] <;> omega

end Instance

namespace Live

/-- Each time the body moves on there is less left to do. -/
theorem proceed_rank {l : Live} (hstands : l.Stands) (hrest : ¬ l.AtRest) :
    l.proceed.inst.rank < l.inst.rank := by
  unfold Stands at hstands
  have hrank : l.inst.rank = 5 * l.inst.mailbox.length + l.inst.phase.rank := rfl
  cases hphase : l.inst.phase with
  | fresh =>
    have hbegin : l.inst.begin.1.rank = 5 * l.inst.mailbox.length + 1 := rfl
    rw [hphase] at hrank
    rw [proceed_fresh hphase, become_inst, hbegin, hrank]
    exact Nat.lt_succ_self _
  | idle =>
    cases hmailbox : l.inst.mailbox with
    | nil => exact absurd (.inl ⟨hphase, hmailbox⟩) hrest
    | cons r rest =>
      have hhandle := Instance.handle_rank (i := { l.inst with mailbox := rest }) hphase r
      rw [hphase, hmailbox] at hrank
      rw [proceed_receiving hphase hmailbox, become_inst, hrank]
      apply Nat.lt_of_le_of_lt hhandle
      show 5 * rest.length + 4 < 5 * (rest.length + 1) + 0
      omega
  | deciding event payload =>
    rw [hphase] at hstands hrank
    obtain ⟨-, result, hawaited, -⟩ := hstands
    have hdecide := l.inst.decide_rank event payload result
    rw [proceed_deciding hphase hawaited, become_inst, hrank]
    exact Nat.lt_succ_of_le hdecide
  | reporting event payload rejection =>
    rw [hphase] at hstands hrank
    obtain ⟨-, result, hawaited, -⟩ := hstands
    have hreport := l.inst.report_rank event rejection result
    rw [proceed_reporting hphase hawaited, become_inst, hrank]
    exact Nat.lt_succ_of_le hreport
  | publishing =>
    rw [hphase] at hstands hrank
    rw [proceed_publishing hphase hstands.2, hrank]
    exact Nat.lt_succ_self _
  | terminating ending =>
    rw [hphase] at hstands hrank
    obtain ⟨-, -, result, hawaited, -⟩ := hstands
    have hterminate := l.inst.terminate_rank ending result
    rw [proceed_terminating hphase hawaited, become_inst, hrank]
    exact Nat.lt_succ_of_le hterminate
  | announcing ending =>
    rw [hphase] at hstands hrank
    rw [proceed_announcing hphase hstands.2.2, hrank]
    exact Nat.lt_succ_self _
  | finished ending => exact absurd (.inr ⟨ending, hphase⟩) hrest

end Live
end Turnstile

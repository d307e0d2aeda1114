-- An instance stops once: from then on it stays stopped, for the same reason. A cancellation is
-- seen from then on, either in that reason or in the end of the task.
import Turnstile.Proofs.Instance.Live

namespace Turnstile

namespace Instance

/-- An instance has stopped, and for the reason that another one had. -/
structure StaysStopped (i j : Instance) : Prop where
  alive : j.alive = false
  stopReason : j.stopReason = i.stopReason

section
variable {i : Instance} (hstopped : i.alive = false)
include hstopped

theorem stopped_self : i.StaysStopped i := ⟨hstopped, rfl⟩

theorem stopped_leave (reason : StopReason) (ending : Ending) :
    i.StaysStopped ((i.markStopped reason).leave ending).1 := by
  unfold markStopped
  simp only [hstopped, Bool.false_eq_true, if_false]
  exact ⟨hstopped, rfl⟩

theorem stopped_escape (fault : Fault) : i.StaysStopped (i.escape fault).1 := by
  unfold escape
  split
  · exact stopped_leave hstopped .killed .cancelled
  · have hcrash : ({ i with crash := some fault } : Instance).alive = false := hstopped
    have hleave := stopped_leave hcrash .crash (.failed fault)
    exact ⟨hleave.alive, hleave.stopReason⟩

theorem stopped_handle (r : Request) : i.StaysStopped (i.handle r).1 := by
  cases r with
  | stop => exact stopped_leave hstopped .stop .returned
  | transition event payload => exact ⟨hstopped, rfl⟩
  | query call question abandoned =>
    simp only [handle]
    split <;> exact stopped_self hstopped

theorem stopped_decide (event payload : Value) (result : Except Fault Outcome) :
    i.StaysStopped (i.decide event payload result).1 := by
  unfold decide
  cases result with
  | error fault =>
    simp only
    split
    · exact stopped_escape hstopped fault
    · exact ⟨hstopped, rfl⟩
  | ok outcome =>
    simp only [settleOutcome]
    split
    · exact ⟨hstopped, rfl⟩
    · exact ⟨hstopped, rfl⟩
    · exact ⟨hstopped, rfl⟩
    · split
      · exact ⟨hstopped, rfl⟩
      · split
        · split
          · exact stopped_leave hstopped .terminal .returned
          · exact ⟨hstopped, rfl⟩
        · exact ⟨hstopped, rfl⟩

theorem stopped_report (event : Value) (rejection : Rejection) (result : Except Fault Unit) :
    i.StaysStopped (i.report event rejection result).1 := by
  unfold report
  split
  · exact ⟨hstopped, rfl⟩
  · split
    · exact stopped_escape hstopped _
    · exact ⟨hstopped, rfl⟩

theorem stopped_terminate (ending : Ending) (result : Except Fault Unit) :
    i.StaysStopped (i.terminate ending result).1 := by
  unfold terminate
  split
  · exact ⟨hstopped, rfl⟩
  · split <;> exact ⟨hstopped, rfl⟩

/-- An instance that stopped never comes back, and the reason stays the first one. -/
theorem stopped_step (s : Stimulus) : i.StaysStopped (i.step s).1 := by
  unfold step
  split
  · exact ⟨hstopped, rfl⟩
  · exact ⟨hstopped, rfl⟩
  · split
    · exact stopped_self hstopped
    · rename_i r rest hmailbox
      have htake : ({ i with mailbox := rest } : Instance).alive = false := hstopped
      have hhandle := stopped_handle htake r
      exact ⟨hhandle.alive, hhandle.stopReason⟩
  · exact stopped_leave hstopped .killed .cancelled
  · exact stopped_decide hstopped _ _ _
  · exact stopped_report hstopped _ _ _
  · split
    · exact ⟨hstopped, rfl⟩
    · exact stopped_escape hstopped _
  · exact stopped_terminate hstopped _ _
  · split <;> exact ⟨hstopped, rfl⟩
  · exact stopped_self hstopped

theorem stopped_move (m : Move) : i.StaysStopped (i.move m) := by
  cases m with
  | post r =>
    unfold move post
    simp only [hstopped, Bool.false_eq_true, if_false]
    exact stopped_self hstopped
  | abandon call => exact ⟨hstopped, rfl⟩
  | stimulus s => exact stopped_step hstopped s

end

/-! ## Cancellations -/

/-- The task of an instance was cancelled: that stopped it, or ended its task early. -/
def Cancelled (i : Instance) : Prop :=
  (i.alive = false ∧ i.stopReason = some .killed) ∨ i.phase = .finished .cancelled

theorem step_finished {i : Instance} {ending : Ending} (hphase : i.phase = .finished ending)
    (s : Stimulus) : i.step s = (i, []) := by
  unfold step
  rw [hphase]

theorem Cancelled.move {i : Instance} (hcancelled : i.Cancelled) (m : Move) :
    (i.move m).Cancelled := by
  rcases hcancelled with ⟨halive, hreason⟩ | hphase
  · have hstays := stopped_move halive m
    exact .inl ⟨hstays.alive, hstays.stopReason.trans hreason⟩
  · right
    cases m with
    | post r =>
      show (i.move (.post r)).phase = _
      simp only [Instance.move, post]
      by_cases halive : i.alive = true
      · rw [if_pos halive]
        exact hphase
      · rw [if_neg halive]
        exact hphase
    | abandon call => exact hphase
    | stimulus s =>
      show (i.step s).1.phase = _
      rw [step_finished hphase]
      exact hphase

theorem Cancelled.after {i : Instance} (hcancelled : i.Cancelled) (moves : List Move) :
    (i.after moves).Cancelled := by
  induction moves generalizing i with
  | nil => exact hcancelled
  | cons m moves ih => exact ih (hcancelled.move m)

theorem kill_cancelled {i : Instance} (halive : i.alive = true) : (i.kill).1.Cancelled := by
  left
  unfold kill markStopped
  rw [if_pos halive]
  exact ⟨rfl, rfl⟩

theorem escape_cancelled {i : Instance} (halive : i.alive = true) :
    (i.escape .cancellation).1.Cancelled := kill_cancelled halive

end Instance

/-- A cancellation leaves its mark wherever the body waits, unless the task is over. -/
theorem Live.Stands.cancelled {l : Live} (hstands : l.Stands)
    (hgoing : ∀ ending, l.inst.phase ≠ .finished ending) :
    (l.inst.step l.inst.cancellation).1.Cancelled := by
  unfold Stands at hstands
  unfold Instance.step Instance.cancellation
  cases hphase : l.inst.phase with
  | fresh => exact .inr rfl
  | idle =>
    rw [hphase] at hstands
    exact Instance.kill_cancelled hstands
  | deciding event payload =>
    rw [hphase] at hstands
    exact Instance.escape_cancelled hstands.1
  | reporting event payload rejection =>
    rw [hphase] at hstands
    exact Instance.escape_cancelled hstands.1
  | publishing =>
    rw [hphase] at hstands
    exact Instance.escape_cancelled hstands.1
  | terminating ending => exact .inr rfl
  | announcing ending => exact .inr rfl
  | finished ending => exact absurd hphase (hgoing ending)

end Turnstile

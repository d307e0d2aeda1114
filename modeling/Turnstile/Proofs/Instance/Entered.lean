-- The task of an instance that has taken its first step leaves the loop only by stopping. Only a
-- task that is cancelled before ends otherwise, with an instance that still takes requests.
import Turnstile.Proofs.Instance.Queries
import Turnstile.Proofs.Instance.Stopped

namespace Turnstile

/-- The body has left the loop. -/
def Phase.isOut : Phase → Bool
  | .terminating _ | .announcing _ | .finished _ => true
  | .fresh | .idle | .deciding .. | .reporting .. | .publishing => false

namespace Instance

variable {i : Instance}

/-- The task of an instance has taken its first step, and has not left the loop without stopping. -/
structure Entered (i : Instance) : Prop where
  begun : i.phase ≠ .fresh
  stopped : i.phase.isOut = true → i.alive = false

theorem entered_of_inside (hbegun : i.phase ≠ .fresh) (hinside : i.phase.isOut = false) :
    i.Entered := ⟨hbegun, fun hout => by rw [hinside] at hout; cases hout⟩

theorem entered_leave (i : Instance) (reason : StopReason) (ending : Ending) :
    ((i.markStopped reason).leave ending).1.Entered :=
  ⟨nofun, fun _ => markStopped_alive i reason⟩

theorem entered_escape (i : Instance) (fault : Fault) : (i.escape fault).1.Entered := by
  unfold escape
  split
  · exact entered_leave i .killed .cancelled
  · exact entered_leave { i with crash := some fault } .crash (.failed fault)

theorem entered_reject (i : Instance) (event payload : Value) (rejection : Rejection) :
    (i.reject event payload rejection).1.Entered := entered_of_inside nofun rfl

theorem entered_handle (hphase : i.phase = .idle) (r : Request) : (i.handle r).1.Entered := by
  have hsame : i.Entered := entered_of_inside (by rw [hphase]; nofun) (by rw [hphase]; rfl)
  cases r with
  | stop => exact entered_leave i .stop .returned
  | transition event payload => exact entered_of_inside nofun rfl
  | query call question abandoned =>
    unfold handle
    simp only
    split <;> exact hsame

theorem entered_settleOutcome (i : Instance) (event payload : Value) (outcome : Outcome) :
    (i.settleOutcome event payload outcome).1.Entered := by
  have hreject := i.entered_reject event payload
  unfold settleOutcome
  simp only
  split
  · exact hreject _
  · exact hreject _
  · exact hreject _
  · split
    · exact hreject _
    · split
      · split
        · exact entered_leave i .terminal .returned
        · exact entered_of_inside nofun rfl
      · exact hreject _

theorem entered_decide (i : Instance) (event payload : Value) (result : Except Fault Outcome) :
    (i.decide event payload result).1.Entered := by
  unfold decide
  split
  · exact i.entered_settleOutcome event payload _
  · split
    · exact i.entered_escape _
    · exact i.entered_reject event payload _

theorem entered_report (i : Instance) (event : Value) (rejection : Rejection)
    (result : Except Fault Unit) : (i.report event rejection result).1.Entered := by
  unfold report
  simp only
  split
  · exact entered_of_inside nofun rfl
  · split
    · exact i.entered_escape _
    · exact entered_of_inside nofun rfl

/-- The first step enters the loop. -/
theorem entered_start (hphase : i.phase = .fresh) : (i.step .start).1.Entered := by
  unfold step
  rw [hphase]
  exact entered_of_inside nofun rfl

theorem Entered.step (h : i.Entered) (s : Stimulus) : (i.step s).1.Entered := by
  unfold Instance.step
  split
  · exact entered_of_inside nofun rfl
  · exact absurd ‹_› h.begun
  · rename_i hphase
    split
    · exact h
    · rename_i rest _
      exact entered_handle (i := { i with mailbox := rest }) hphase _
  · exact entered_leave i .killed .cancelled
  · exact i.entered_decide _ _ _
  · exact i.entered_report _ _ _
  · split
    · exact entered_of_inside nofun rfl
    · exact i.entered_escape _
  · rename_i ending result hphase
    have hstopped := h.stopped (by rw [hphase]; rfl)
    unfold terminate
    simp only
    split
    · exact ⟨nofun, fun _ => hstopped⟩
    · split <;> exact ⟨nofun, fun _ => hstopped⟩
  · rename_i ending result hphase
    have hstopped := h.stopped (by rw [hphase]; rfl)
    split <;> exact ⟨nofun, fun _ => hstopped⟩
  · exact h

theorem Entered.move (h : i.Entered) (m : Move) : (i.move m).Entered := by
  cases m with
  | post r =>
    have hpost : (i.move (.post r)).phase = i.phase ∧ (i.move (.post r)).alive = i.alive := by
      simp only [Instance.move, post]
      by_cases halive : i.alive = true
      · rw [if_pos halive]
        exact ⟨rfl, rfl⟩
      · rw [if_neg halive]
        exact ⟨rfl, rfl⟩
    exact ⟨hpost.1 ▸ h.begun, fun hout => hpost.2.trans (h.stopped (hpost.1 ▸ hout))⟩
  | abandon call => exact ⟨h.begun, h.stopped⟩
  | stimulus s => exact h.step s

theorem Entered.after (h : i.Entered) (moves : List Move) : (i.after moves).Entered := by
  induction moves generalizing i with
  | nil => exact h
  | cons m moves ih => exact ih (h.move m)

/-- What has stopped stays stopped, whatever moves it makes. -/
theorem stays_stopped_after (hstopped : i.alive = false) (moves : List Move) :
    i.StaysStopped (i.after moves) := by
  induction moves generalizing i with
  | nil => exact stopped_self hstopped
  | cons m moves ih =>
    have hmove := stopped_move hstopped m
    have hlater := ih hmove.alive
    exact ⟨hlater.alive, hlater.stopReason.trans hmove.stopReason⟩

theorem stopped_after (hstopped : i.alive = false) (moves : List Move) :
    (i.after moves).alive = false := (stays_stopped_after hstopped moves).alive

/-! ## Outside the loop -/

/-- The instance takes requests though its body is not in the loop: its task has not taken its first
step, or ended without it. -/
def outside (i : Instance) : Bool :=
  i.alive && match i.phase with
    | .fresh | .finished _ => true
    | _ => false

/-- A body that has not taken its first step, has ended, or has entered the loop. -/
def Placed (i : Instance) : Prop :=
  i.phase = .fresh ∨ (∃ ending, i.phase = .finished ending) ∨ i.Entered

theorem Entered.inside (h : i.Entered) : i.outside = false := by
  obtain ⟨hbegun, hstopped⟩ := h
  unfold outside
  cases hphase : i.phase with
  | fresh => exact absurd hphase hbegun
  | finished ending => simp [hstopped (by rw [hphase]; rfl)]
  | _ => simp

theorem step_fresh (hphase : i.phase = .fresh) (s : Stimulus) :
    (i.step s).1.Entered ∨ (i.step s).2 = [] ∧ (i.step s).1.alive = i.alive ∧
      ((i.step s).1.phase = .fresh ∨ (i.step s).1.phase = .finished .cancelled) := by
  cases s with
  | start => exact .inl (entered_start hphase)
  | cancel =>
    unfold step
    simp [hphase]
  | _ =>
    unfold step
    simp [hphase]

theorem Placed.step (h : i.Placed) (s : Stimulus) : (i.step s).1.Placed := by
  rcases h with hfresh | ⟨ending, hfinished⟩ | hentered
  · rcases step_fresh hfresh s with hentered | ⟨-, -, hphase | hphase⟩
    · exact .inr (.inr hentered)
    · exact .inl hphase
    · exact .inr (.inl ⟨_, hphase⟩)
  · rw [step_finished hfinished s]
    exact .inr (.inl ⟨ending, hfinished⟩)
  · exact .inr (.inr (hentered.step s))

theorem Placed.move (h : i.Placed) (m : Move) : (i.move m).Placed := by
  have hsame : ∀ {j : Instance}, j.phase = i.phase → j.alive = i.alive → j.Placed := by
    intro j hphase halive
    rcases h with hfresh | ⟨ending, hfinished⟩ | ⟨hbegun, hstopped⟩
    · exact .inl (hphase.trans hfresh)
    · exact .inr (.inl ⟨ending, hphase.trans hfinished⟩)
    · exact .inr (.inr ⟨hphase ▸ hbegun, fun hout => halive.trans (hstopped (hphase ▸ hout))⟩)
  cases m with
  | post r =>
    simp only [Instance.move, post]
    by_cases halive : i.alive = true
    · rw [if_pos halive]
      exact hsame rfl rfl
    · rw [if_neg halive]
      exact h
  | abandon call => exact hsame rfl rfl
  | stimulus s => exact h.step s

theorem Placed.after (h : i.Placed) (moves : List Move) : (i.after moves).Placed := by
  induction moves generalizing i with
  | nil => exact h
  | cons m moves ih => exact ih (h.move m)

theorem placed_create (machine : Machine) (name payload : Value) :
    (create machine name payload).Placed := .inl rfl

/-- A body that is outside after a step was outside before, and wants nothing done. -/
theorem Placed.outside_step (h : i.Placed) {s : Stimulus}
    (houtside : (i.step s).1.outside = true) : i.outside = true ∧ (i.step s).2 = [] := by
  have hnot : ¬(i.step s).1.Entered := fun hentered => by
    rw [hentered.inside] at houtside
    cases houtside
  rcases h with hfresh | ⟨ending, hfinished⟩ | hentered
  · rcases step_fresh hfresh s with hentered | ⟨hnone, halive, -⟩
    · exact absurd hentered hnot
    · refine ⟨?_, hnone⟩
      unfold outside at houtside ⊢
      rw [halive] at houtside
      simp [hfresh, (Bool.and_eq_true_iff.1 houtside).1]
  · rw [step_finished hfinished s] at houtside ⊢
    exact ⟨houtside, rfl⟩
  · exact absurd (hentered.step s) hnot

end Instance
end Turnstile

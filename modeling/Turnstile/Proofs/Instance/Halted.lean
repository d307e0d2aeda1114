-- An instance that has stopped bears the cause that it stopped for. If that was the edge out of the
-- diagram, its state has one.
import Turnstile.Proofs.Instance.Endings

namespace Turnstile.Instance

variable {i : Instance}

/-- An edge out of the diagram is the cause of an end only where there is one. -/
theorem allowed_of_cause {s : Stimulus} (h : i.cause? s = some .terminal) :
    i.machine.table.allowed i.runState.current .terminal = true := by
  have hfault : ∀ fault, Cause.ofFault fault ≠ .terminal := by
    intro fault
    unfold Cause.ofFault
    split <;> nofun
  unfold cause? at h
  split at h
  · split at h <;> cases h
  · cases h
  · split at h
    · assumption
    · cases h
  · split at h
    · exact absurd (Option.some.inj h) (hfault _)
    · cases h
  · split at h
    · exact absurd (Option.some.inj h) (hfault _)
    · cases h
  · exact absurd (Option.some.inj h) (hfault _)
  · cases h

/-- What has stopped bears its cause; that is an edge out of the diagram only if one leaves the
current state. -/
def Halted (i : Instance) : Prop :=
  i.alive = false → ∃ c, i.Bears (some c) ∧
    (c = .terminal → i.machine.table.allowed i.runState.current .terminal = true)

/-- An instance that stops bears a cause of the move that stops it, with its run state left alone. -/
theorem Sound.stops (h : i.Sound) (halive : i.alive = true) {m : Move}
    (hstopped : (i.move m).alive = false) : ∃ c, i.causeOf m = some c ∧
      (i.move m).Bears (some c) ∧ (i.move m).runState = i.runState := by
  cases m with
  | post r =>
    simp only [Instance.move, Instance.post] at hstopped
    rw [if_pos halive] at hstopped
    cases halive.symm.trans hstopped
  | abandon call => cases hstopped.symm.trans halive
  | stimulus s =>
    obtain ⟨c, hc⟩ := h.cause halive hstopped
    have hbears : i.Bears none := by
      rcases h.bears halive with hphase | ⟨ending, hphase⟩ | hbears
      · simp [cause?, hphase] at hc
      · simp [cause?, hphase] at hc
      · exact hbears
    have hmoved := (hbears.meets (.stimulus s)).1
    have hleaves := meets_step hbears.alive hbears.crash hbears.begun hbears.out s
    rw [hc] at hleaves
    rw [show i.causeOf (.stimulus s) = some c from hc] at hmoved
    exact ⟨c, hc, hmoved, hleaves.runState⟩

theorem Halted.move (hsound : i.Sound) (h : i.Halted) (m : Move) : (i.move m).Halted := by
  intro hstopped
  rw [(i.move_becomes m).machine]
  cases halive : i.alive with
  | false =>
    obtain ⟨c, hbears, hterminal⟩ := h halive
    obtain ⟨hmoved, hrunState, -⟩ := hbears.rests m
    exact ⟨c, hmoved, by rwa [hrunState]⟩
  | true =>
    obtain ⟨c, hcause, hmoved, hrunState⟩ := hsound.stops halive hstopped
    refine ⟨c, hmoved, ?_⟩
    rintro rfl
    rw [hrunState]
    cases m with
    | post r => cases hcause
    | abandon call => cases hcause
    | stimulus s => exact allowed_of_cause hcause

theorem Halted.after (hsound : i.Sound) (h : i.Halted) (moves : List Move) :
    (i.after moves).Halted := by
  induction moves generalizing i with
  | nil => exact h
  | cons m moves ih => exact ih (hsound.move m) (h.move hsound m)

section
variable {machine : Machine} {name payload : Value} {moves : List Move}

theorem halted_after_create (machine : Machine) (name payload : Value) (moves : List Move) :
    ((create machine name payload).after moves).Halted := by
  have hhalted : (create machine name payload).Halted := nofun
  exact hhalted.after (sound_create machine name payload) moves

/-- A reason is noted exactly if the instance has stopped. -/
theorem stopReason_eq_none_iff :
    ((create machine name payload).after moves).stopReason = none ↔
      ((create machine name payload).after moves).alive = true := by
  constructor
  · intro hnone
    by_contra hstopped
    obtain ⟨c, hbears, -⟩ :=
      halted_after_create machine name payload moves (by simpa using hstopped)
    cases hnone.symm.trans hbears.stopReason
  · intro halive
    exact (((sound_create machine name payload).after moves).unmarked halive).1

/-- An instance that has stopped at the end of its diagram stands in a state that an edge leads out
of the diagram from. -/
theorem allowed_of_terminal
    (h : ((create machine name payload).after moves).stopReason = some .terminal) :
    machine.table.allowed ((create machine name payload).after moves).runState.current .terminal =
      true := by
  have hstopped : ((create machine name payload).after moves).alive = false := by
    rw [← Bool.not_eq_true, ← stopReason_eq_none_iff, h]
    nofun
  obtain ⟨c, hbears, hterminal⟩ := halted_after_create machine name payload moves hstopped
  rw [after_machine] at hterminal
  apply hterminal
  have hreason : c.reason = .terminal := Option.some.inj (hbears.stopReason.symm.trans h)
  cases c <;> first | rfl | cases hreason

end

end Turnstile.Instance

-- Letting everything run: once some steps have led to where nothing is left to do, more steps
-- change nothing. So however long a host is given, and whether or not somebody stops to take a
-- result in the middle, it comes to rest at the same place.
import Turnstile.Proofs.Supervisor.Closing
import Turnstile.Supervisor.Dialogue

namespace Turnstile.Host

variable {h : Host} {n fuel c : Nat} {result : Except Fault CallAnswer}

/-! ## Settling -/

/-- When no timer is due, the next turn is what is queued. -/
theorem step_ready (hrunning : h.running = none) (hbatch : h.batch = [])
    (hdue : ∀ timer ∈ h.timers, h.isDue timer = false) :
    h.step = { h with batch := h.ready, ready := [] } := by
  have hnone : h.timers.filter h.isDue = [] :=
    List.filter_eq_nil_iff.2 fun timer hmem => by simp [hdue timer hmem]
  have hall : (h.timers.filter fun timer => !h.isDue timer) = h.timers :=
    List.filter_eq_self.2 fun timer hmem => by simp [hdue timer hmem]
  rw [step_turn hrunning hbatch]
  unfold beginTurn
  rw [hnone, hall, List.map_nil, List.append_nil]

theorem step_of_idle (hidle : h.isIdle = true) : h.step = h := by
  unfold isIdle at hidle
  simp only [Bool.and_eq_true, Option.isNone_iff_eq_none, List.isEmpty_iff, Bool.not_eq_true',
    List.any_eq_false] at hidle
  obtain ⟨⟨⟨hrunning, hbatch⟩, hready⟩, hdue⟩ := hidle
  rw [step_ready hrunning hbatch fun timer hmem => by simpa using hdue timer hmem, hready, ← hbatch]
  cases h
  simp_all

/-- Settling takes some steps, and takes all that are needed if it may. -/
theorem settle_eq (hidle : (Host.step^[n] h).isIdle = true) (hn : n ≤ fuel) :
    h.settle fuel = Host.step^[n] h := by
  induction n generalizing h fuel with
  | zero =>
    have hidle : h.isIdle = true := hidle
    unfold settle
    cases fuel with
    | zero => rfl
    | succ fuel => simp [hidle]
  | succ n ih =>
    obtain ⟨fuel, rfl⟩ := Nat.exists_eq_add_of_le' (Nat.le_trans (Nat.succ_pos n) hn)
    unfold settle
    split
    · rename_i hnow
      rw [Function.iterate_fixed (step_of_idle hnow)]
    · rw [Function.iterate_succ_apply] at hidle ⊢
      exact ih hidle (Nat.le_of_succ_le_succ hn)

/-- Whoever stops for a result stops on the way, or where nothing is left to do. -/
theorem settleCall_eq (hidle : (Host.step^[n] h).isIdle = true) (hn : n ≤ fuel) (c : Nat) :
    ∃ j ≤ n, h.settleCall fuel c = Host.step^[j] h ∧
      (((Host.step^[j] h).result? c).isSome = true ∨ Host.step^[j] h = Host.step^[n] h) := by
  induction n generalizing h fuel with
  | zero =>
    have hidle : h.isIdle = true := hidle
    refine ⟨0, le_refl 0, ?_, .inr rfl⟩
    unfold settleCall
    cases fuel with
    | zero => rfl
    | succ fuel => simp [hidle]
  | succ n ih =>
    obtain ⟨fuel, rfl⟩ := Nat.exists_eq_add_of_le' (Nat.le_trans (Nat.succ_pos n) hn)
    unfold settleCall
    split
    · rename_i hnow
      refine ⟨0, Nat.zero_le _, rfl, ?_⟩
      rcases Bool.or_eq_true_iff.1 hnow with hresult | hnow
      · exact .inl hresult
      · exact .inr (Function.iterate_fixed (step_of_idle hnow) _).symm
    · rw [Function.iterate_succ_apply] at hidle ⊢
      obtain ⟨j, hj, heq, hstops⟩ := ih hidle (Nat.le_of_succ_le_succ hn)
      exact ⟨j + 1, Nat.succ_le_succ hj, heq, hstops⟩

/-! ## Results stay -/

theorem iterate_step (h : Host) (n : Nat) :
    Host.step^[n] h = h.after (List.replicate n .step) := by
  induction n generalizing h with
  | zero => rfl
  | succ n ih => exact ih h.step

theorem Attended.steps (h₀ : h.Attended) (n : Nat) : (Host.step^[n] h).Attended := by
  rw [iterate_step]
  exact (h₀.after _).1

theorem Attended.keeps_result (h₀ : h.Attended) (hresult : h.result? c = some result) (n : Nat) :
    (Host.step^[n] h).result? c = some result := by
  obtain ⟨call, hcall, hdone⟩ := call_of_result hresult
  rw [iterate_step]
  obtain ⟨call', hcall', hbecomes⟩ := (h₀.after (List.replicate n .step)).2.keeps_call hcall
  obtain rfl := hbecomes.done _ hdone
  have hthere : (h.after (List.replicate n .step)).calls[c]? = some call' := hcall'
  unfold result?
  rw [hthere]
  obtain ⟨parent, stage, run⟩ := call'
  obtain rfl : run = .done result := hdone
  rfl

/-- A caller that waits gets the result that stands where nothing is left to do; and it makes no
difference that it goes on before all is done. -/
theorem Attended.await_eq (h₀ : h.Attended) (hn : n ≤ 1000000)
    (hidle : (Host.step^[n] h).isIdle = true)
    (hresult : (Host.step^[n] h).result? c = some result) :
    ∃ g, await (h, .later c) = (g, result) ∧ g.settled = Host.step^[n] h := by
  obtain ⟨j, hj, hstopped, hstops⟩ := settleCall_eq hidle hn c
  -- The rest of the way, for whoever has stopped.
  have hrest : Host.step^[n - j] (Host.step^[j] h) = Host.step^[n] h := by
    rw [← Function.iterate_add_apply, Nat.sub_add_cancel hj]
  refine ⟨Host.step^[j] h, ?_, ?_⟩
  · have hthere : (Host.step^[j] h).result? c = some result := by
      rcases hstops with hsome | hlast
      · obtain ⟨result', hresult'⟩ := Option.isSome_iff_exists.1 hsome
        have hkept := (h₀.steps j).keeps_result hresult' (n - j)
        rw [hrest, hresult] at hkept
        exact hkept ▸ hresult'
      · rw [hlast, hresult]
    unfold await
    simp only [hstopped, hthere, Option.getD_some]
  · unfold settled
    rw [settle_eq (n := n - j) (by rw [hrest]; exact hidle) (Nat.le_trans (Nat.sub_le n j) hn),
      hrest]

/-- As long as a call has no result and something is left to do, the host goes on. -/
theorem settleCall_of_waits (hwaits : ∀ j ≤ n, (Host.step^[j] h).result? c = none ∧
    (Host.step^[j] h).isIdle = false) (hresult : (Host.step^[n + 1] h).result? c = some result)
    (hn : n < fuel) : h.settleCall fuel c = Host.step^[n + 1] h := by
  induction n generalizing h fuel with
  | zero =>
    obtain ⟨fuel, rfl⟩ := Nat.exists_eq_add_of_lt hn
    obtain ⟨hnone, hbusy⟩ : h.result? c = none ∧ h.isIdle = false := hwaits 0 (le_refl 0)
    have hthere : h.step.result? c = some result := hresult
    unfold settleCall
    simp only [hnone, hbusy, Option.isSome_none, Bool.or_self, Bool.false_eq_true, if_false]
    cases fuel with
    | zero => rfl
    | succ fuel => simp [settleCall, hthere]
  | succ n ih =>
    obtain ⟨fuel, rfl⟩ := Nat.exists_eq_add_of_lt hn
    obtain ⟨hnone, hbusy⟩ : h.result? c = none ∧ h.isIdle = false := hwaits 0 (Nat.zero_le _)
    unfold settleCall
    simp only [hnone, hbusy, Option.isSome_none, Bool.or_self, Bool.false_eq_true, if_false]
    exact ih (fun j hj => hwaits (j + 1) (Nat.succ_le_succ hj)) hresult (by omega)

/-- A caller that waits goes on with the step in which its call gets the result, whatever is left to
do then. -/
theorem Attended.await_first (h₀ : h.Attended) (hnone : (Host.step^[n] h).result? c = none)
    (hresult : (Host.step^[n + 1] h).result? c = some result) (hn : n < 1000000) :
    await (h, .later c) = (Host.step^[n + 1] h, result) := by
  have hwaits : ∀ j ≤ n, (Host.step^[j] h).result? c = none ∧
      (Host.step^[j] h).isIdle = false := by
    intro j hj
    have hrest : Host.step^[n - j] (Host.step^[j] h) = Host.step^[n] h := by
      rw [← Function.iterate_add_apply, Nat.sub_add_cancel hj]
    constructor
    · rw [Option.eq_none_iff_forall_ne_some]
      intro result' hthere
      have hkept := (h₀.steps j).keeps_result hthere (n - j)
      rw [hrest, hnone] at hkept
      cases hkept
    · by_contra hidle
      have hfixed := Function.iterate_fixed (step_of_idle (by simpa using hidle)) (n - j)
      have hsame : Host.step^[n + 1] h = Host.step^[n] h := by
        rw [Function.iterate_succ_apply', ← hrest, hfixed]
        exact step_of_idle (by simpa using hidle)
      rw [hsame, hnone] at hresult
      cases hresult
  unfold await
  simp only [settleCall_of_waits hwaits hresult hn, hresult, Option.getD_some]

/-- The same of a caller whose call is followed from a later host on. -/
theorem Attended.await_later (h₀ : h.Attended) {later : Host} {m : Nat}
    (hsteps : Host.step^[m] h = later) (hnone : (Host.step^[n] later).result? c = none)
    (hresult : (Host.step^[n + 1] later).result? c = some result) (hn : n + m < 1000000) :
    await (h, .later c) = (Host.step^[n + 1] later, result) := by
  have hon : ∀ j, Host.step^[j + m] h = Host.step^[j] later := fun j =>
    (Function.iterate_add_apply ..).trans (congrArg Host.step^[j] hsteps)
  have hlast : Host.step^[n + m + 1] h = Host.step^[n + 1] later := by
    rw [Nat.add_right_comm]
    exact hon (n + 1)
  rw [← hlast] at hresult
  exact (h₀.await_first (hon n ▸ hnone) hresult hn).trans (by rw [hlast])

end Turnstile.Host

-- The hook that comes with a table: an event is followed exactly if it has a single target, and a
-- run is the walk that these events make.
import Turnstile.Hooks.Basic
import Turnstile.Proofs.Table.Queries

namespace Turnstile

namespace Table

variable {t : Table} {s e : String} {x : Target}

/-! ## One event -/

/-- The only target of an event in a state, if it has just one. -/
def only? (t : Table) (s : String) (event : Value) : Option Target :=
  match event with
  | .text e =>
    match distinct (t.targets s e) with
    | [x] => some x
    | _ => none
  | _ => none

theorem only?_eq_some {event : Value} : t.only? s event = some x ↔
    ∃ e, event = .text e ∧ x ∈ t.targets s e ∧ ∀ y ∈ t.targets s e, y = x := by
  cases event with
  | text e =>
    have hone : t.only? s (.text e) = some x ↔ distinct (t.targets s e) = [x] := by
      unfold only?
      simp only
      split <;> simp_all
    rw [hone, distinct_eq_singleton]
    simp
  | _ => simp [only?]

/-- The reason that is given for a failure. -/
def severalTargets (t : Table) (s e : String) : Value :=
  .text (toString (distinct (t.targets s e)).length ++ " declared targets for " ++
    (Value.text e).literal ++ " in state " ++ (Value.text s).literal)

/-- The only target of an event is followed, with the payload that there is. -/
theorem follow_only {event : Value} (h : t.only? s event = some x) (payload : Value) :
    t.follow (.text s) event payload = .ok (.success x.toValue payload) := by
  obtain ⟨e, rfl, hx, hall⟩ := only?_eq_some.1 h
  have hone : distinct (t.targets s e) = [x] := distinct_eq_singleton.2 ⟨hx, hall⟩
  simp only [follow, targetsOfValue, keyOf, Value.isKey, bind, Except.bind, pure, Except.pure]
  simp [hone]

/-- An event without a target, or with several, is not followed. -/
theorem follow_several (h : t.only? s (.text e) = none) (payload : Value) :
    t.follow (.text s) (.text e) payload = .ok (.failure (t.severalTargets s e)) := by
  have hone : ∀ x, distinct (t.targets s e) ≠ [x] := by
    intro x hx
    rw [only?_eq_some.2 ⟨e, rfl, distinct_eq_singleton.1 hx⟩] at h
    cases h
  simp only [follow, targetsOfValue, keyOf, Value.isKey, bind, Except.bind, pure, Except.pure]
  simp only [Bool.not_true, Bool.false_eq_true, if_false]
  rfl

/-- What has no single target is not followed; the only fault is that of an event that is no key. -/
theorem follow_none {event : Value} (h : t.only? s event = none) (payload : Value) :
    (∃ reason, t.follow (.text s) event payload = .ok (.failure reason)) ∨
      t.follow (.text s) event payload = .error (.notKey event) := by
  cases event with
  | text e => exact .inl ⟨_, follow_several h payload⟩
  | list items => exact .inr rfl
  | record fields => exact .inr rfl
  | _ => exact .inl ⟨_, rfl⟩

theorem only?_of_several (h : ∃ x ∈ t.targets s e, ∃ y ∈ t.targets s e, x ≠ y) :
    t.only? s (.text e) = none := by
  obtain ⟨x, hx, y, hy, hne⟩ := h
  rw [Option.eq_none_iff_forall_ne_some]
  intro z hz
  obtain ⟨e', he', -, hall⟩ := only?_eq_some.1 hz
  obtain rfl := Value.text.inj he'
  exact hne ((hall x hx).trans (hall y hy).symm)

/-- What the table's own hook follows is an edge of the table. -/
theorem allowed_of_only {event : Value} (h : t.only? s event = some x) :
    t.allowed s x = true := by
  obtain ⟨e, -, hx, -⟩ := only?_eq_some.1 h
  exact allowed_iff.2 ⟨_, mem_targets.1 hx, rfl, rfl⟩

end Table
end Turnstile

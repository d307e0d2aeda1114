-- Instances whose transition hook is the one that comes with their table. It follows exactly the events
-- with a single target, which is always declared, so that no instance is ever told that the table does
-- not know where its hook wants to go.
import Turnstile.Proofs.Supervisor.Prompt
import Turnstile.Proofs.Table.Follow

namespace Turnstile

namespace Table

variable {t : Table} {s : String} {event payload : Value}

/-! ## The hook -/

/-- How many targets the edges have that leave a state and bear an event, however often each of them
is declared. -/
def targetCount (t : Table) (s : String) : Value → Nat
  | .text e => (labelled t.transitions (s, e)).toFinset.card
  | _ => 0

/-- What is said of an event that does not have a single target. -/
def countReason (t : Table) (s : String) (event : Value) : Value :=
  .text (toString (t.targetCount s event) ++ " declared targets for " ++ event.literal ++
    " in state " ++ (Value.text s).literal)

/-- What the table's own hook makes of an event: the single target of the event is followed with the
payload that there is, and all else fails with the number of the targets, or because of an event that is
no key. -/
inductive Follows (t : Table) (s : String) (event payload : Value) : Except Fault Outcome → Prop where
  | along {e : String} {x : Target} (hevent : event = .text e)
    (hsingle : ∀ y, y ∈ t.targets s e ↔ y = x) :
    Follows t s event payload (.ok (.success x.toValue payload))
  | uncounted (hkey : event.isKey = true) (hcount : t.targetCount s event ≠ 1) :
    Follows t s event payload (.ok (.failure (t.countReason s event)))
  | notKey (hkey : event.isKey = false) : Follows t s event payload (.error (.notKey event))

theorem targetCount_eq (t : Table) (s e : String) :
    t.targetCount s (.text e) = (distinct (t.targets s e)).length := by
  rw [length_distinct, targets_eq]
  rfl

theorem targetCount_eq_one {e : String} :
    t.targetCount s (.text e) = 1 ↔ ∃ x, ∀ y, y ∈ t.targets s e ↔ y = x := by
  rw [targetCount_eq, length_distinct, Finset.card_eq_one]
  simp [Finset.ext_iff]

/-- The count of an event whose single target is followed, and the edge that is taken. -/
theorem Follows.count_of_success {target kept : Value}
    (h : t.Follows s event payload (.ok (.success target kept))) :
    t.targetCount s event = 1 ∧ kept = payload ∧
      ∃ e x, event = .text e ∧ target = x.toValue ∧ ∀ y, y ∈ t.targets s e ↔ y = x := by
  cases h with
  | along hevent hsingle =>
    subst hevent
    exact ⟨targetCount_eq_one.2 ⟨_, hsingle⟩, rfl, _, _, rfl, rfl, hsingle⟩

theorem Follows.allowed {target kept : Value}
    (h : t.Follows s event payload (.ok (.success target kept))) :
    t.allowedValue (.text s) target = true := by
  obtain ⟨-, -, e, x, -, rfl, hsingle⟩ := h.count_of_success
  have hallowed : t.allowed s x = true :=
    allowed_iff.2 ⟨_, mem_targets.1 ((hsingle x).2 rfl), rfl, rfl⟩
  cases x <;> exact hallowed

/-- Why an instance that goes by the table's own hook rejects an event: the event has no target, or
several, or is no key. -/
inductive Excuse (t : Table) (s : String) (event : Value) : Rejection → Prop where
  | uncounted (hkey : event.isKey = true) (hcount : t.targetCount s event ≠ 1) :
    Excuse t s event (.refused event (.text s) (t.countReason s event))
  | notKey (hkey : event.isKey = false) :
    Excuse t s event (.raised event (.text s) (.notKey event))

/-- None of these says that there is no edge to a target. -/
theorem Excuse.declared {rejection : Rejection} (h : t.Excuse s event rejection)
    (event' state target : Value) : rejection ≠ .undeclared event' state target := by
  cases h with
  | uncounted => exact Rejection.refused_ne_undeclared
  | notKey => exact Rejection.raised_ne_undeclared

end Table

end Turnstile

-- What comes of a configuration file that is read: a configuration, or a report on the file, or one
-- of four faults that are no reports. Each of these escapes exactly where its cause is the first
-- thing that is wrong with the file.
import Mathlib
import Turnstile.Config.Basic
import Turnstile.Proofs.Number.Range

namespace Turnstile.Config

variable {α β : Type} {x : Except Fault α} {fault other : Fault} {read : Reader} {p : Path}
  {fields : List (String × Value)} {v : Value}

/-! ## Faults that are no reports -/

/-- A fault that is a report on a configuration. -/
def IsReport (fault : Fault) : Prop := ∃ report, fault = .reported report ∧ report.kind = .config

/-- A result is a fault that is no report. -/
def Escapes (x : Except Fault α) (fault : Fault) : Prop := x = .error fault ∧ ¬ IsReport fault

theorem bind_eq_ok_iff {f : α → Except Fault β} {b : β} :
    (x >>= f) = .ok b ↔ ∃ a, x = .ok a ∧ f a = .ok b := by
  cases x with
  | ok a =>
    show f a = .ok b ↔ _
    simp
  | error other =>
    show Except.error other = .ok b ↔ _
    simp

/-! ## Fields -/

/-- The fields of the value that a file holds. -/
def fieldsOf (p : Path) (v : Value) : Except Fault (List (String × Value)) :=
  if !v.isTrue then .ok []
  else match v with
  | .record fields => .ok fields
  | v => .error (refuse (.wrongType "(root)" "mapping/object" v.typeName (some p.text)))

/-- Where the diagram of a configuration is, once all that is checked before is right. -/
def located (p : Path) (fields : List (String × Value)) : Except Fault DiagramSource := do
  let _ ← nameOf p fields
  let _ ← dialectOf p fields
  let _ ← hooksOf p fields
  diagramSource p fields

/-- A number above zero that is no truth value. -/
def IsDuration (v : Value) : Prop :=
  ∃ n, v = .number n ∧ (∀ b, n ≠ .flag b) ∧ n.leRat 0 = false

/-- What a check makes of a value: a result if the value is as it should be, otherwise a report that
shows the value. -/
inductive Checked (asked : Prop) (v : Value) : Except Fault α → Prop where
  | met (h : asked) (a : α) : Checked asked v (.ok a)
  | unmet (h : ¬ asked) (f : ConfigFault) : Checked asked v (.error (refuseShown v f))

theorem checked_positive (path key : String) (v : Value) :
    Checked (IsDuration v) v (positive path key v) := by
  unfold positive
  simp only
  split
  · rename_i b
    exact .unmet (by simp [IsDuration]) _
  · rename_i n hflag
    cases hle : n.leRat 0 with
    | true => exact .unmet (by simp [IsDuration, hle]) _
    | false => exact .met ⟨n, rfl, by simpa using hflag, hle⟩ _
  · rename_i _ hnumber
    refine .unmet ?_ _
    rintro ⟨n, rfl, -, -⟩
    exact hnumber n rfl

theorem Checked.exists_ok_iff {asked : Prop} (h : Checked asked v x) :
    (∃ a, x = .ok a) ↔ asked := by
  cases h with
  | met h a => simp [h]
  | unmet h f => simp [h]

theorem positive_eq {path key : String} {n : Number} (hn : positive path key v = .ok n) :
    v = .number n ∧ IsDuration v := by
  have hduration : IsDuration v := (checked_positive path key v).exists_ok_iff.1 ⟨n, hn⟩
  obtain ⟨m, rfl, hflag, hle⟩ := id hduration
  refine ⟨?_, hduration⟩
  cases m with
  | flag b => exact absurd rfl (hflag b)
  | whole k =>
    simp only [positive, hle, Bool.false_eq_true, if_false, Except.ok.injEq] at hn
    rw [hn]
  | real y =>
    simp only [positive, hle, Bool.false_eq_true, if_false, Except.ok.injEq] at hn
    rw [hn]

/-- The fault of converting a whole number that is too large. -/
def overflow : Fault := .plain .overflow "int too large to convert to float"

/-- The settings that some values give. -/
def settingsOf (path : String) (timeout restart restarts window : Value) :
    Except Fault Settings := do
  let timeout ← positive path "shutdown_timeout" timeout
  let policy ← policy path restart
  let restarts ← count path "max_restarts" restarts
  let window ← positive path "max_seconds" window
  return ⟨← seconds timeout, policy, restarts, ← seconds window⟩

/-- A value names a file for its diagram, and nothing that is checked before is wrong. -/
def Names (p : Path) (v : Value) (path : Path) : Prop :=
  ∃ fields, fieldsOf p v = .ok fields ∧ located p fields = .ok (.file path)

end Turnstile.Config

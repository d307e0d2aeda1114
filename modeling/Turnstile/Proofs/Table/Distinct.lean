-- Lists without repetitions: what `distinct` keeps, and when it changes nothing.
import Turnstile.Table.Reachable
import Mathlib.Data.List.Induction
import Mathlib.Data.List.Nodup

namespace Turnstile

variable {α : Type} [DecidableEq α]

theorem distinct_snoc (xs : List α) (x : α) :
    distinct (xs ++ [x]) = if x ∈ xs then distinct xs else distinct xs ++ [x] := by
  have h : distinct (xs ++ [x]) =
      if x ∈ distinct xs then distinct xs else distinct xs ++ [x] := by
    unfold distinct
    rw [List.foldl_append]
    rfl
  rw [h]
  simp only [Table.mem_distinct]

theorem distinct_nodup (xs : List α) : (distinct xs).Nodup := by
  induction xs using List.reverseRecOn with
  | nil => exact List.nodup_nil
  | append_singleton xs x ih =>
    rw [distinct_snoc]
    split
    · exact ih
    · rename_i hx
      rw [← Table.mem_distinct] at hx
      exact List.nodup_append.2 ⟨ih, List.nodup_singleton x, by
        intro a ha b hb hab
        rw [List.mem_singleton] at hb
        exact hx (hb ▸ hab ▸ ha)⟩

theorem distinct_eq_self {xs : List α} (h : xs.Nodup) : distinct xs = xs := by
  induction xs using List.reverseRecOn with
  | nil => rfl
  | append_singleton xs x ih =>
    rw [List.nodup_append] at h
    have hx : x ∉ xs := fun hx => h.2.2 x hx x (List.mem_singleton_self x) rfl
    rw [distinct_snoc, if_neg hx, ih h.1]

theorem distinct_eq_nil {xs : List α} : distinct xs = [] ↔ xs = [] := by
  simp only [List.eq_nil_iff_forall_not_mem, Table.mem_distinct]

theorem distinct_eq_singleton {xs : List α} {x : α} :
    distinct xs = [x] ↔ x ∈ xs ∧ ∀ y ∈ xs, y = x := by
  constructor
  · intro h
    have hmem : ∀ y, y ∈ xs ↔ y = x := fun y => by
      rw [← Table.mem_distinct xs y, h, List.mem_singleton]
    exact ⟨(hmem x).2 rfl, fun y hy => (hmem y).1 hy⟩
  · rintro ⟨hx, hall⟩
    have hnodup := distinct_nodup xs
    have hall' : ∀ y ∈ distinct xs, y = x := fun y hy => hall y ((Table.mem_distinct xs y).1 hy)
    have hx' : x ∈ distinct xs := (Table.mem_distinct xs x).2 hx
    match hd : distinct xs with
    | [] => simp [hd] at hx'
    | [y] => rw [hall' y (by simp [hd])]
    | y :: z :: rest =>
      have hy := hall' y (by simp [hd])
      have hz := hall' z (by simp [hd])
      rw [hd, List.nodup_cons] at hnodup
      exact absurd (by simp [hy, hz]) hnodup.1

end Turnstile

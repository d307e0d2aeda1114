-- The states that a run can get to: a search of the table from its initial state.
import Turnstile.Table.Basic

namespace Turnstile.Table

/-- The states that one edge leads to from a state. -/
def successors (t : Table) (source : String) : List String :=
  (t.transitions.filter fun e => e.source = source).filterMap (·.target.state?)

/-- The states that edges lead to and that were not seen yet. -/
def unseen (t : Table) (seen : List String) : List String :=
  (t.transitions.filterMap (·.target.state?)).filter fun s => s ∉ seen

/-- The successors of a state that were not seen yet. -/
def fresh (t : Table) (seen : List String) (source : String) : List String :=
  distinct ((t.successors source).filter fun s => s ∉ seen)

theorem mem_foldl_distinct {α : Type} [DecidableEq α] (xs seen : List α) (x : α) :
    x ∈ xs.foldl (fun seen x => if x ∈ seen then seen else seen ++ [x]) seen ↔
      x ∈ seen ∨ x ∈ xs := by
  induction xs generalizing seen with
  | nil => simp
  | cons y ys ih =>
    rw [List.foldl_cons, ih]
    by_cases h : y ∈ seen
    · rw [if_pos h, List.mem_cons]
      constructor
      · rintro (hx | hx)
        · exact .inl hx
        · exact .inr (.inr hx)
      · rintro (hx | rfl | hx)
        · exact .inl hx
        · exact .inl h
        · exact .inr hx
    · rw [if_neg h, List.mem_append, List.mem_singleton, List.mem_cons, or_assoc]

theorem mem_distinct {α : Type} [DecidableEq α] (xs : List α) (x : α) :
    x ∈ distinct xs ↔ x ∈ xs := by
  simp [distinct, mem_foldl_distinct]

theorem mem_fresh {t : Table} {seen : List String} {source s : String} :
    s ∈ t.fresh seen source ↔ s ∈ t.successors source ∧ s ∉ seen := by
  simp [fresh, mem_distinct]

theorem mem_successors {t : Table} {source s : String} :
    s ∈ t.successors source ↔
      ∃ e ∈ t.transitions, e.source = source ∧ e.target = .state s := by
  simp only [successors, List.mem_filterMap, List.mem_filter, decide_eq_true_eq]
  constructor
  · rintro ⟨e, ⟨he, hs⟩, ht⟩
    refine ⟨e, he, hs, ?_⟩
    cases h : e.target with
    | state n => rw [h] at ht; simp only [Target.state?, Option.some.injEq] at ht; rw [ht]
    | terminal => rw [h] at ht; simp [Target.state?] at ht
  · rintro ⟨e, he, hs, ht⟩
    exact ⟨e, ⟨he, hs⟩, by rw [ht]; rfl⟩

/-- Looking at one more fresh state leaves fewer to be seen. -/
theorem unseen_fresh_lt {t : Table} {seen : List String} {source : String}
    (h : t.fresh seen source ≠ []) :
    (t.unseen (seen ++ t.fresh seen source)).length < (t.unseen seen).length := by
  obtain ⟨s, hs⟩ := List.exists_mem_of_ne_nil _ h
  have hs' := mem_fresh.1 hs
  obtain ⟨e, he, -, ht⟩ := mem_successors.1 hs'.1
  have hall : s ∈ t.transitions.filterMap (·.target.state?) :=
    List.mem_filterMap.2 ⟨e, he, by rw [ht]; rfl⟩
  have hsub : t.unseen (seen ++ t.fresh seen source) =
      (t.unseen seen).filter fun x => x ∉ t.fresh seen source := by
    simp only [unseen, List.filter_filter]
    congr 1
    funext x
    by_cases h1 : x ∈ seen <;> by_cases h2 : x ∈ t.fresh seen source <;> simp [h1, h2]
  rw [hsub]
  have hmem : s ∈ t.unseen seen := by simp [unseen, hs'.2]; exact ⟨e, he, by rw [ht]; rfl⟩
  have := List.length_filter_lt_length_iff_exists
    (p := fun x => decide (x ∉ t.fresh seen source)) (l := t.unseen seen)
  exact this.2 ⟨s, hmem, by simp [hs]⟩

/-- The states seen so far and all that a search from the frontier adds to them. -/
def search (t : Table) (seen : List String) : List String → List String
  | [] => seen
  | s :: frontier =>
    if _h : t.fresh seen s = [] then search t seen frontier
    else search t (seen ++ t.fresh seen s) (t.fresh seen s ++ frontier)
  termination_by frontier => ((t.unseen seen).length, frontier.length)
  decreasing_by
    · exact Prod.Lex.right _ (by simp)
    · exact Prod.Lex.left _ _ (unseen_fresh_lt (by assumption))

/-- The states that a path of edges leads to from the initial state. -/
def reachable (t : Table) : List String := t.search [t.initial] [t.initial]

end Turnstile.Table

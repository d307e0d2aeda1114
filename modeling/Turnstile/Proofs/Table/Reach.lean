-- The search of a table finds exactly the states that a path of its edges leads to from the
-- initial state.
import Mathlib.Logic.Relation
import Turnstile.Table.Reachable

namespace Turnstile.Table

/-- An edge leads from one state to another. -/
def Leads (t : Table) (u v : String) : Prop := t.allowed u (.state v) = true

theorem allowed_iff {t : Table} {u : String} {x : Target} :
    t.allowed u x = true ↔ ∃ e ∈ t.transitions, e.source = u ∧ e.target = x := by
  simp [allowed, List.any_eq_true]

theorem mem_successors_iff_leads {t : Table} {u v : String} :
    v ∈ t.successors u ↔ t.Leads u v := by
  rw [mem_successors, Leads, allowed_iff]

/-! ## The search -/

/-- A search keeps to what edges lead to. -/
theorem search_keeps {t : Table} {P : String → Prop} (hstep : ∀ u v, P u → t.Leads u v → P v)
    (seen frontier : List String) (hseen : ∀ s ∈ seen, P s) (hfrontier : ∀ s ∈ frontier, P s) :
    ∀ s ∈ t.search seen frontier, P s := by
  fun_induction t.search seen frontier with
  | case1 seen => exact hseen
  | case2 seen u frontier hfresh ih =>
    exact ih hseen (List.forall_mem_cons.1 hfrontier).2
  | case3 seen u frontier hfresh ih =>
    obtain ⟨hu, hrest⟩ := List.forall_mem_cons.1 hfrontier
    have hnew : ∀ s ∈ t.fresh seen u, P s := by
      intro s hs
      exact hstep u s hu (mem_successors_iff_leads.1 (mem_fresh.1 hs).1)
    apply ih
    · exact List.forall_mem_append.2 ⟨hseen, hnew⟩
    · exact List.forall_mem_append.2 ⟨hnew, hrest⟩

/-- A search forgets nothing that it has seen. -/
theorem seen_subset_search {t : Table} (seen frontier : List String) :
    ∀ s ∈ seen, s ∈ t.search seen frontier := by
  fun_induction t.search seen frontier with
  | case1 seen => exact fun s hs => hs
  | case2 seen u frontier hfresh ih => exact ih
  | case3 seen u frontier hfresh ih =>
    exact fun s hs => ih s (List.mem_append_left _ hs)

/-- The states that are still to be looked at are all that the search has left open: the
edges out of any other state that was seen lead to states that were seen. -/
def OpenOnly (t : Table) (seen frontier : List String) : Prop :=
  ∀ u ∈ seen, u ∉ frontier → ∀ v, t.Leads u v → v ∈ seen

theorem leads_mem_append_fresh {t : Table} {seen : List String} {u v : String}
    (h : t.Leads u v) : v ∈ seen ++ t.fresh seen u := by
  by_cases hv : v ∈ seen
  · exact List.mem_append_left _ hv
  · exact List.mem_append_right _ (mem_fresh.2 ⟨mem_successors_iff_leads.2 h, hv⟩)

/-- The result of a search is closed under the edges of its table. -/
theorem search_closed {t : Table} (seen frontier : List String)
    (h : t.OpenOnly seen frontier) :
    ∀ u ∈ t.search seen frontier, ∀ v, t.Leads u v → v ∈ t.search seen frontier := by
  fun_induction t.search seen frontier with
  | case1 seen => exact fun u hu => h u hu (by simp)
  | case2 seen u frontier hfresh ih =>
    apply ih
    intro w hw hnot v hv
    by_cases hwu : w = u
    · subst hwu
      have hmem : v ∈ seen ++ t.fresh seen w := leads_mem_append_fresh hv
      rwa [hfresh, List.append_nil] at hmem
    · exact h w hw (by simp [hwu, hnot]) v hv
  | case3 seen u frontier hfresh ih =>
    apply ih
    intro w hw hnot v hv
    simp only [List.mem_append, not_or] at hw hnot
    by_cases hwu : w = u
    · subst hwu
      exact leads_mem_append_fresh hv
    · have hold : w ∈ seen := hw.resolve_right hnot.1
      exact List.mem_append_left _ (h w hold (by simp [hwu, hnot.2]) v hv)

/-! ## What can be got to -/

theorem initial_mem_reachable (t : Table) : t.initial ∈ t.reachable :=
  seen_subset_search _ _ _ (by simp)

/-- An edge leads from a state that can be got to, to one that can be got to. -/
theorem Leads.mem_reachable {t : Table} {u v : String} (h : t.Leads u v)
    (hu : u ∈ t.reachable) : v ∈ t.reachable := by
  refine search_closed _ _ ?_ u hu v h
  intro w hw hnot
  exact absurd hw hnot

/-- The reachable states are those at the ends of the paths from the initial state. -/
theorem mem_reachable_iff {t : Table} {s : String} :
    s ∈ t.reachable ↔ Relation.ReflTransGen t.Leads t.initial s := by
  constructor
  · refine search_keeps (P := Relation.ReflTransGen t.Leads t.initial) ?_ _ _ ?_ ?_ s
    · exact fun u v hu hv => hu.tail hv
    · simp [Relation.ReflTransGen.refl]
    · simp [Relation.ReflTransGen.refl]
  · intro h
    induction h with
    | refl => exact initial_mem_reachable t
    | tail _ hlead ih => exact hlead.mem_reachable ih

end Turnstile.Table

-- What the queries of a table say of its edges: the index has for each label the targets of the
-- edges that bear it, in their order, and the lists of names are in strictly increasing order.
import Mathlib.Data.Finset.Card
import Mathlib.Data.List.Sort
import Mathlib.Data.String.Basic
import Turnstile.Proofs.Table.Distinct
import Turnstile.Proofs.Table.Reach

namespace Turnstile

/-! ## Sorted texts -/

theorem mem_insertSorted {s x : String} {ss : List String} :
    x ∈ insertSorted s ss ↔ x = s ∨ x ∈ ss := by
  induction ss with
  | nil => simp [insertSorted]
  | cons t rest ih =>
    unfold insertSorted
    split
    · exact List.mem_cons
    · split
      · rename_i hst
        subst hst
        simp
      · rw [List.mem_cons, ih, List.mem_cons]
        exact or_left_comm

theorem insertSorted_increasing {s : String} {ss : List String} (h : ss.Pairwise (· < ·)) :
    (insertSorted s ss).Pairwise (· < ·) := by
  induction ss with
  | nil => exact List.pairwise_singleton _ _
  | cons t rest ih =>
    obtain ⟨ht, hrest⟩ := List.pairwise_cons.1 h
    unfold insertSorted
    split
    · rename_i hlt
      refine List.pairwise_cons.2 ⟨?_, h⟩
      intro x hx
      rcases List.mem_cons.1 hx with rfl | hx
      · exact hlt
      · exact lt_trans hlt (ht x hx)
    · rename_i hnot
      split
      · exact h
      · rename_i hne
        refine List.pairwise_cons.2 ⟨?_, ih hrest⟩
        intro x hx
        rcases mem_insertSorted.1 hx with rfl | hx
        · exact lt_of_le_of_ne (not_lt.1 hnot) (Ne.symm hne)
        · exact ht x hx

theorem mem_sortedSet {x : String} {ss : List String} : x ∈ sortedSet ss ↔ x ∈ ss := by
  induction ss with
  | nil => simp [sortedSet]
  | cons s ss ih =>
    rw [List.mem_cons, ← ih]
    exact mem_insertSorted

theorem sortedSet_increasing (ss : List String) : (sortedSet ss).Pairwise (· < ·) := by
  induction ss with
  | nil => exact List.Pairwise.nil
  | cons s ss ih => exact insertSorted_increasing ih

/-- A sorted list without repetitions is known from its members. -/
theorem sortedSet_congr {ss ss' : List String} (h : ∀ x, x ∈ ss ↔ x ∈ ss') :
    sortedSet ss = sortedSet ss' := by
  have hnodup : ∀ ss, (sortedSet ss).Nodup := fun ss => (sortedSet_increasing ss).imp ne_of_lt
  have hperm : (sortedSet ss).Perm (sortedSet ss') :=
    (List.perm_ext_iff_of_nodup (hnodup ss) (hnodup ss')).2 fun x => by
      rw [mem_sortedSet, mem_sortedSet, h]
  exact hperm.eq_of_pairwise (fun a b _ _ hab hba => absurd hab (lt_asymm hba))
    (sortedSet_increasing ss) (sortedSet_increasing ss')

/-! ## Distinct members -/

section
variable {α : Type} [DecidableEq α]

theorem length_distinct (xs : List α) : (distinct xs).length = xs.toFinset.card := by
  rw [← List.toFinset_card_of_nodup (distinct_nodup xs)]
  congr 1
  ext x
  simp [Table.mem_distinct]

/-- Lists with the same members have as many distinct ones. -/
theorem length_distinct_congr {xs ys : List α} (h : ∀ x, x ∈ xs ↔ x ∈ ys) :
    (distinct xs).length = (distinct ys).length := by
  rw [length_distinct, length_distinct]
  congr 1
  ext x
  simp [h]

theorem one_lt_length_distinct {xs : List α} :
    1 < (distinct xs).length ↔ ∃ x ∈ xs, ∃ y ∈ xs, x ≠ y := by
  rw [length_distinct, Finset.one_lt_card]
  simp

end

namespace Table

/-! ## The index -/

/-- The label of an edge: the state that it leaves, and its event. -/
def label (e : Transition) : String × String := (e.source, e.event)

/-- The targets of the edges with a label, in their order. -/
def labelled (es : List Transition) (key : String × String) : List Target :=
  (es.filter fun e => label e = key).map (·.target)

theorem labelled_snoc (es : List Transition) (e : Transition) (key : String × String) :
    labelled (es ++ [e]) key =
      labelled es key ++ if label e = key then [e.target] else [] := by
  by_cases h : label e = key <;> simp [labelled, h]

theorem mem_labelled {es : List Transition} {key : String × String} {x : Target} :
    x ∈ labelled es key ↔ ⟨key.1, key.2, x⟩ ∈ es := by
  simp only [labelled, List.mem_map, List.mem_filter, decide_eq_true_eq]
  constructor
  · rintro ⟨e, ⟨he, rfl⟩, rfl⟩
    exact he
  · intro he
    exact ⟨_, ⟨he, rfl⟩, rfl⟩

theorem lookup_entry {α β : Type} [BEq α] [LawfulBEq α] [DecidableEq α] (rest : List (α × β))
    (k key : α) (v : β) :
    List.lookup key ((k, v) :: rest) = if key = k then some v else rest.lookup key := by
  by_cases h : key = k
  · subst h
    simp
  · simp [List.lookup_cons, beq_false_of_ne h, h]

theorem lookup_add (index : Index) (key other : String × String) (x : Target) :
    (index.add key x).lookup other =
      if other = key then some ((index.lookup key).getD [] ++ [x]) else index.lookup other := by
  induction index with
  | nil => simp [Index.add, lookup_entry]
  | cons entry rest ih =>
    obtain ⟨k, targets⟩ := entry
    unfold Index.add
    by_cases hk : k = key
    · subst hk
      by_cases h : other = k <;> simp [lookup_entry, h]
    · rw [if_neg hk, lookup_entry, ih, lookup_entry, lookup_entry, if_neg (Ne.symm hk)]
      by_cases h : other = key
      · subst h
        simp [Ne.symm hk]
      · simp [h]

theorem keys_add (index : Index) (key : String × String) (x : Target) :
    (index.add key x).map (·.1) =
      if key ∈ index.map (·.1) then index.map (·.1) else index.map (·.1) ++ [key] := by
  induction index with
  | nil => rfl
  | cons entry rest ih =>
    obtain ⟨k, targets⟩ := entry
    unfold Index.add
    by_cases hk : k = key
    · simp [hk]
    · rw [if_neg hk, List.map_cons, ih, List.map_cons]
      by_cases hmem : key ∈ rest.map (·.1)
      · simp [hmem]
      · simp [hmem, Ne.symm hk]

/-- The index of some edges. -/
def indexOf (es : List Transition) : Index :=
  es.foldl (fun index e => index.add (label e) e.target) []

theorem index_eq (t : Table) : t.index = indexOf t.transitions := rfl

theorem indexOf_snoc (es : List Transition) (e : Transition) :
    indexOf (es ++ [e]) = (indexOf es).add (label e) e.target := List.foldl_append

/-- A label is in the index exactly if some edge bears it, with the targets of all that do. -/
theorem lookup_indexOf (es : List Transition) (key : String × String) :
    (indexOf es).lookup key = if labelled es key = [] then none else some (labelled es key) := by
  induction es using List.reverseRecOn with
  | nil => rfl
  | append_singleton es e ih =>
    rw [indexOf_snoc, lookup_add, labelled_snoc]
    by_cases h : key = label e
    · subst h
      rw [if_pos rfl, if_pos rfl, ih]
      by_cases hnil : labelled es (label e) = [] <;> simp [hnil]
    · rw [if_neg h, if_neg (Ne.symm h), ih, List.append_nil]

/-- The labels stand in the index in the order of their first edge. -/
theorem keys_indexOf (es : List Transition) :
    (indexOf es).map (·.1) = distinct (es.map label) := by
  induction es using List.reverseRecOn with
  | nil => rfl
  | append_singleton es e ih =>
    rw [indexOf_snoc, keys_add, ih, List.map_append, List.map_singleton, distinct_snoc]
    by_cases h : label e ∈ es.map label
    · rw [if_pos h, if_pos ((mem_distinct _ _).2 h)]
    · rw [if_neg h, if_neg fun hmem => h ((mem_distinct _ _).1 hmem)]

theorem mem_iff_lookup {index : Index} (h : (index.map (·.1)).Nodup) {key : String × String}
    {targets : List Target} : (key, targets) ∈ index ↔ index.lookup key = some targets := by
  induction index with
  | nil => simp
  | cons entry rest ih =>
    obtain ⟨k, xs⟩ := entry
    obtain ⟨hk, hrest⟩ := List.nodup_cons.1 h
    rw [List.mem_cons, lookup_entry]
    by_cases hkey : key = k
    · subst hkey
      have hnot : (key, targets) ∉ rest := fun hmem => hk (List.mem_map.2 ⟨_, hmem, rfl⟩)
      simp [hnot, eq_comm]
    · simp [hkey, ih hrest]

/-! ## What is asked of the index -/

variable {t : Table} {s e : String}

theorem targets_eq (t : Table) (s e : String) :
    t.targets s e = labelled t.transitions (s, e) := by
  unfold targets
  rw [index_eq, lookup_indexOf]
  by_cases h : labelled t.transitions (s, e) = [] <;> simp [h]

theorem mem_targets {x : Target} : x ∈ t.targets s e ↔ ⟨s, e, x⟩ ∈ t.transitions := by
  rw [targets_eq, mem_labelled]

theorem respondsTo_iff : t.respondsTo s e = true ↔ ∃ x, x ∈ t.targets s e := by
  unfold respondsTo
  rw [targets_eq, index_eq, lookup_indexOf]
  by_cases h : labelled t.transitions (s, e) = []
  · simp [h]
  · simp [h, List.exists_mem_of_ne_nil _ h]

/-- A label with several distinct targets, as the table lists it. -/
theorem mem_ambiguous {key : String × String} {targets : List Target} :
    (key, targets) ∈ t.ambiguous ↔ targets = t.targets key.1 key.2 ∧
      ∃ x ∈ targets, ∃ y ∈ targets, x ≠ y := by
  have hnodup : (t.index.map (·.1)).Nodup := by
    rw [index_eq, keys_indexOf]
    exact distinct_nodup _
  simp only [ambiguous, List.mem_filter, decide_eq_true_eq, gt_iff_lt, one_lt_length_distinct,
    mem_iff_lookup hnodup, targets_eq]
  rw [index_eq, lookup_indexOf]
  constructor
  · rintro ⟨hlookup, hseveral⟩
    split at hlookup
    · cases hlookup
    · obtain rfl := Option.some.inj hlookup
      exact ⟨rfl, hseveral⟩
  · rintro ⟨rfl, x, hx, hother⟩
    exact ⟨if_neg (List.ne_nil_of_mem hx), x, hx, hother⟩

theorem mem_ambiguous_keys {key : String × String} :
    key ∈ t.ambiguous.map (·.1) ↔
      ∃ x ∈ t.targets key.1 key.2, ∃ y ∈ t.targets key.1 key.2, x ≠ y := by
  rw [List.mem_map]
  constructor
  · rintro ⟨⟨key, targets⟩, hmem, rfl⟩
    obtain ⟨rfl, hseveral⟩ := mem_ambiguous.1 hmem
    exact hseveral
  · intro hseveral
    exact ⟨(key, _), mem_ambiguous.2 ⟨rfl, hseveral⟩, rfl⟩

/-! ## What is asked of the edges -/

theorem mem_eventsFrom : e ∈ t.eventsFrom s ↔ ∃ x, ⟨s, e, x⟩ ∈ t.transitions := by
  simp only [eventsFrom, mem_distinct, List.mem_map, List.mem_filter, decide_eq_true_eq]
  constructor
  · rintro ⟨⟨source, event, target⟩, ⟨he, rfl⟩, rfl⟩
    exact ⟨target, he⟩
  · rintro ⟨x, hx⟩
    exact ⟨_, ⟨hx, rfl⟩, rfl⟩

theorem mem_states : s ∈ t.states ↔
    s = t.initial ∨ ∃ x ∈ t.transitions, x.source = s ∨ x.target = .state s := by
  have hstate : ∀ x : Target, x.state? = some s ↔ x = .state s := by
    intro x
    cases x <;> simp [Target.state?]
  simp only [states, mem_sortedSet, List.mem_cons, List.mem_flatMap, Option.mem_toList,
    hstate, eq_comm]

theorem mem_events : e ∈ t.events ↔ (∃ x ∈ t.transitions, x.event = e) ∨ e ∈ t.entryEvents := by
  simp only [events, mem_sortedSet, List.mem_append, List.mem_map]

theorem mem_terminalStates :
    s ∈ t.terminalStates ↔ ∃ x ∈ t.transitions, x.source = s ∧ x.target = .terminal := by
  have hterminal : ∀ x : Target, x.isTerminal = true ↔ x = .terminal := by
    intro x
    cases x <;> simp [Target.isTerminal]
  simp only [terminalStates, mem_sortedSet, List.mem_map, List.mem_filter, hterminal, and_assoc]
  exact exists_congr fun x => and_congr_right fun _ => and_comm

end Table
end Turnstile

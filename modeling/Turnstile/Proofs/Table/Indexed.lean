-- The queries of a table agree: those that go by the index of its labels say what those say that look
-- at all edges, each edge as often as it is declared and all of them in their order.
import Turnstile.Proofs.Table.Queries

namespace Turnstile

/-- The distinct members of a list stand in the order in which they first occur in it. -/
theorem distinct_first_places {α : Type} [DecidableEq α] [BEq α] [LawfulBEq α] (xs : List α) :
    (distinct xs).Pairwise fun x y => xs.idxOf x < xs.idxOf y := by
  induction xs using List.reverseRecOn with
  | nil => exact .nil
  | append_singleton xs x ih =>
    have hplace : ∀ y ∈ distinct xs, (xs ++ [x]).idxOf y = xs.idxOf y := fun y hy =>
      List.idxOf_append_of_mem ((Table.mem_distinct xs y).1 hy)
    have hkept : (distinct xs).Pairwise fun y z => (xs ++ [x]).idxOf y < (xs ++ [x]).idxOf z :=
      ih.imp_of_mem fun hy hz hlt => by rwa [hplace _ hy, hplace _ hz]
    rw [distinct_snoc]
    split
    · exact hkept
    · rename_i hx
      refine List.pairwise_append.2 ⟨hkept, List.pairwise_singleton _ _, fun y hy z hz => ?_⟩
      obtain rfl := List.mem_singleton.1 hz
      have hlast : (xs ++ [z]).idxOf z = xs.length := by
        rw [List.idxOf_append_of_notMem hx]
        simp
      rw [hplace y hy, hlast]
      exact List.idxOf_lt_length_of_mem ((Table.mem_distinct xs y).1 hy)

namespace Table

/-- The queries of a table agree with its edges and with each other. -/
structure QueriesAgree (t : Table) : Prop where
  /-- An event that is responded to has a target, is among the events out of its state, and labels
  an edge. -/
  responds_targets : ∀ s e, t.respondsTo s e = true ↔ t.targets s e ≠ []
  responds_eventsFrom : ∀ s e, t.respondsTo s e = true ↔ e ∈ t.eventsFrom s
  responds_edge : ∀ s e, t.respondsTo s e = true ↔ ∃ x, ⟨s, e, x⟩ ∈ t.transitions
  /-- The targets are those of the edges with the label, in their order, and as often as there. -/
  targets_edges : ∀ s e, t.targets s e =
    (t.transitions.filter fun x => x.source = s ∧ x.event = e).map (·.target)
  allowed_targets : ∀ s x, t.allowed s x = true ↔ ∃ e ∈ t.eventsFrom s, x ∈ t.targets s e
  terminal_allowed : ∀ s, s ∈ t.terminalStates ↔ t.allowed s .terminal = true
  /-- A label is ambiguous if it has two targets that differ. The ambiguous labels stand in the
  order in which edges first bear them, each with its targets. -/
  ambiguous_label : ∀ s e, (s, e) ∈ t.ambiguous.map (·.1) ↔
    ∃ x ∈ t.targets s e, ∃ y ∈ t.targets s e, x ≠ y
  ambiguous_order : (t.ambiguous.map (·.1)).Pairwise fun k l =>
    (t.transitions.map label).idxOf k < (t.transitions.map label).idxOf l
  ambiguous_targets : ∀ s e targets, ((s, e), targets) ∈ t.ambiguous → targets = t.targets s e
  states_increasing : t.states.Pairwise (· < ·)
  events_increasing : t.events.Pairwise (· < ·)
  terminalStates_increasing : t.terminalStates.Pairwise (· < ·)
  eventsFrom_events : ∀ s, t.eventsFrom s ⊆ t.events
  entryEvents_events : t.entryEvents ⊆ t.events
  initial_states : t.initial ∈ t.states
  ends_states : ∀ s e s', ⟨s, e, .state s'⟩ ∈ t.transitions → s ∈ t.states ∧ s' ∈ t.states

variable {t : Table} {s e : String}

theorem respondsTo_iff_targets : t.respondsTo s e = true ↔ t.targets s e ≠ [] := by
  rw [respondsTo_iff]
  exact ⟨fun ⟨_, hx⟩ => List.ne_nil_of_mem hx, List.exists_mem_of_ne_nil _⟩

theorem respondsTo_iff_edge : t.respondsTo s e = true ↔ ∃ x, ⟨s, e, x⟩ ∈ t.transitions := by
  simp only [respondsTo_iff, mem_targets]

theorem respondsTo_iff_eventsFrom : t.respondsTo s e = true ↔ e ∈ t.eventsFrom s := by
  rw [respondsTo_iff_edge, mem_eventsFrom]

theorem allowed_iff_targets {x : Target} :
    t.allowed s x = true ↔ ∃ e ∈ t.eventsFrom s, x ∈ t.targets s e := by
  simp only [allowed_iff, mem_eventsFrom, mem_targets]
  constructor
  · rintro ⟨⟨source, event, target⟩, he, rfl, rfl⟩
    exact ⟨event, ⟨target, he⟩, he⟩
  · rintro ⟨e, -, he⟩
    exact ⟨_, he, rfl, rfl⟩

theorem ambiguous_in_order (t : Table) : (t.ambiguous.map (·.1)).Pairwise fun k l =>
    (t.transitions.map label).idxOf k < (t.transitions.map label).idxOf l := by
  have hsublist : (t.ambiguous.map (·.1)).Sublist (t.index.map (·.1)) :=
    List.filter_sublist.map _
  rw [index_eq, keys_indexOf] at hsublist
  exact (distinct_first_places _).sublist hsublist

/-- For every table, whatever its edges, in whatever order and however often each is declared: its
queries agree. -/
theorem queries_agree (t : Table) : t.QueriesAgree where
  responds_targets _ _ := respondsTo_iff_targets
  responds_eventsFrom _ _ := respondsTo_iff_eventsFrom
  responds_edge _ _ := respondsTo_iff_edge
  targets_edges s e := by
    rw [targets_eq]
    simp [labelled, label]
  allowed_targets _ _ := allowed_iff_targets
  terminal_allowed s := by rw [mem_terminalStates, allowed_iff]
  ambiguous_label _ _ := mem_ambiguous_keys
  ambiguous_order := ambiguous_in_order t
  ambiguous_targets _ _ _ h := (mem_ambiguous.1 h).1
  states_increasing := sortedSet_increasing _
  events_increasing := sortedSet_increasing _
  terminalStates_increasing := sortedSet_increasing _
  eventsFrom_events s e he := by
    obtain ⟨x, hx⟩ := mem_eventsFrom.1 he
    exact mem_events.2 (.inl ⟨_, hx, rfl⟩)
  entryEvents_events _ he := mem_events.2 (.inr he)
  initial_states := mem_states.2 (.inl rfl)
  ends_states _ _ _ he := ⟨mem_states.2 (.inr ⟨_, he, .inl rfl⟩), mem_states.2 (.inr ⟨_, he, .inr rfl⟩)⟩

/-- Labels in turns, one of them with two targets and one with the same target twice. -/
example :
    let t : Table := ⟨"a", [⟨"b", "on", .terminal⟩, ⟨"a", "go", .state "b"⟩, ⟨"b", "on", .state "a"⟩,
      ⟨"a", "go", .state "b"⟩, ⟨"b", "on", .terminal⟩], ["in"]⟩
    t.ambiguous = [(("b", "on"), [.terminal, .state "a", .terminal])] ∧
      t.targets "a" "go" = [.state "b", .state "b"] := by
  decide

end Table
end Turnstile

-- Tables with the same edges, in whatever order: no query tells them apart, but for the order of what
-- it lists.
import Turnstile.Hooks.Basic
import Turnstile.Proofs.Table.Queries

namespace Turnstile.Table

/-- Two tables start in the same state and have the same edges, each of them once. -/
structure SameEdges (t t' : Table) : Prop where
  initial : t.initial = t'.initial
  transitions : t.transitions.Perm t'.transitions
  entryEvents : t.entryEvents.Perm t'.entryEvents

/-- The queries of two tables agree. Only the lists of the targets of an event and of the events out
of a state may differ, and only in their order. -/
structure Agrees (t t' : Table) : Prop where
  initial : t.initial = t'.initial
  allowed : ∀ source target, t.allowedValue source target = t'.allowedValue source target
  respondsTo : ∀ source event, t.respondsToValue source event = t'.respondsToValue source event
  states : t.states = t'.states
  events : t.events = t'.events
  terminalStates : t.terminalStates = t'.terminalStates
  reachable : ∀ s, s ∈ t.reachable ↔ s ∈ t'.reachable
  ambiguous : ∀ key, key ∈ t.ambiguous.map (·.1) ↔ key ∈ t'.ambiguous.map (·.1)
  follow : ∀ state event payload, t.follow state event payload = t'.follow state event payload
  targets : ∀ source event,
    (∃ fault, t.targetsOfValue source event = .error fault ∧
      t'.targetsOfValue source event = .error fault) ∨
    ∃ xs xs', t.targetsOfValue source event = .ok xs ∧
      t'.targetsOfValue source event = .ok xs' ∧ xs.Perm xs'
  eventsFrom : ∀ source, (t.eventsFromValue source).Perm (t'.eventsFromValue source)

namespace SameEdges

variable {t t' : Table} (h : t.SameEdges t')
include h

theorem targets (s e : String) : (t.targets s e).Perm (t'.targets s e) := by
  rw [targets_eq, targets_eq]
  exact (h.transitions.filter _).map _

theorem allowed (s : String) (x : Target) : t.allowed s x = t'.allowed s x := by
  rw [Bool.eq_iff_iff, allowed_iff, allowed_iff]
  simp only [h.transitions.mem_iff]

theorem respondsTo (s e : String) : t.respondsTo s e = t'.respondsTo s e := by
  rw [Bool.eq_iff_iff, respondsTo_iff, respondsTo_iff]
  simp only [(h.targets s e).mem_iff]

theorem states : t.states = t'.states := by
  unfold Table.states
  rw [h.initial]
  exact sortedSet_congr fun x => ((h.transitions.flatMap_right _).cons _).mem_iff

theorem events : t.events = t'.events := by
  unfold Table.events
  exact sortedSet_congr fun x => ((h.transitions.map _).append h.entryEvents).mem_iff

theorem terminalStates : t.terminalStates = t'.terminalStates := by
  unfold Table.terminalStates
  exact sortedSet_congr fun x => ((h.transitions.filter _).map _).mem_iff

theorem reachable (s : String) : s ∈ t.reachable ↔ s ∈ t'.reachable := by
  have hleads : t.Leads = t'.Leads := by
    funext u v
    exact congrArg (· = true) (h.allowed u (.state v))
  rw [mem_reachable_iff, mem_reachable_iff, hleads, h.initial]

theorem ambiguous (key : String × String) :
    key ∈ t.ambiguous.map (·.1) ↔ key ∈ t'.ambiguous.map (·.1) := by
  simp only [mem_ambiguous_keys, (h.targets key.1 key.2).mem_iff]

theorem eventsFrom (s : String) : (t.eventsFrom s).Perm (t'.eventsFrom s) := by
  unfold Table.eventsFrom
  refine (List.perm_ext_iff_of_nodup (distinct_nodup _) (distinct_nodup _)).2 fun x => ?_
  rw [mem_distinct, mem_distinct]
  exact ((h.transitions.filter _).map _).mem_iff

/-! ## Queries by values -/

theorem allowedValue (source target : Value) :
    t.allowedValue source target = t'.allowedValue source target := by
  cases source with
  | text s =>
    simp only [Table.allowedValue]
    cases Target.ofValue? target with
    | none => rfl
    | some x => exact h.allowed s x
  | _ => rfl

theorem respondsToValue (source event : Value) :
    t.respondsToValue source event = t'.respondsToValue source event := by
  unfold Table.respondsToValue
  cases keyOf source event with
  | error fault => rfl
  | ok key =>
    cases key with
    | none => rfl
    | some key => exact congrArg Except.ok (h.respondsTo key.1 key.2)

theorem targetsOfValue (source event : Value) :
    (∃ fault, t.targetsOfValue source event = .error fault ∧
      t'.targetsOfValue source event = .error fault) ∨
    ∃ xs xs', t.targetsOfValue source event = .ok xs ∧
      t'.targetsOfValue source event = .ok xs' ∧ xs.Perm xs' := by
  unfold Table.targetsOfValue
  cases keyOf source event with
  | error fault => exact .inl ⟨fault, rfl, rfl⟩
  | ok key =>
    cases key with
    | none => exact .inr ⟨[], [], rfl, rfl, .refl _⟩
    | some key => exact .inr ⟨_, _, rfl, rfl, h.targets key.1 key.2⟩

theorem eventsFromValue (source : Value) :
    (t.eventsFromValue source).Perm (t'.eventsFromValue source) := by
  cases source with
  | text s => exact h.eventsFrom s
  | _ => exact .refl _

/-- The hook of the one table does what that of the other does, and gives the same reasons. -/
theorem follow (state event payload : Value) :
    t.follow state event payload = t'.follow state event payload := by
  unfold Table.follow
  rcases h.targetsOfValue state event with ⟨fault, hfault, hfault'⟩ | ⟨xs, xs', hxs, hxs', hperm⟩
  · rw [hfault, hfault']
  · rw [hxs, hxs']
    simp only [bind, Except.bind]
    have hsingle : ∀ x, distinct xs = [x] ↔ distinct xs' = [x] := by
      intro x
      simp only [distinct_eq_singleton, hperm.mem_iff]
    have hlength : (distinct xs).length = (distinct xs').length :=
      length_distinct_congr fun x => hperm.mem_iff
    split
    · rename_i x hx
      rw [(hsingle x).1 hx]
    · rename_i hx
      split
      · rename_i x hx'
        exact absurd ((hsingle x).2 hx') (hx x)
      · rw [hlength]

theorem agrees : t.Agrees t' where
  initial := h.initial
  allowed := h.allowedValue
  respondsTo := h.respondsToValue
  states := h.states
  events := h.events
  terminalStates := h.terminalStates
  reachable := h.reachable
  ambiguous := h.ambiguous
  follow := h.follow
  targets := h.targetsOfValue
  eventsFrom := h.eventsFromValue

end SameEdges
end Turnstile.Table

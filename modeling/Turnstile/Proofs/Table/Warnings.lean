-- What the warnings about a table say of its edges. Each of them is given exactly if it is true, and
-- a table without any is one that can be run from everywhere to everywhere and out.
import Turnstile.Table.Explain
import Turnstile.Proofs.Table.Queries

namespace Turnstile

theorem Value.texts_injective : Function.Injective Value.texts := by
  intro ss ss' h
  have hmap : ss.map Value.text = ss'.map Value.text := Value.list.inj h
  exact List.map_injective_iff.2 (fun _ _ => Value.text.inj) hmap

/-! ## What an explanation reports -/

namespace Explanation

/-- A warning with a title lists a state, in its text and in its context. -/
def Lists (x : Explanation) (title s : String) : Prop :=
  ∃ d ∈ x.warnings, ∃ states, d.what = title ++ ", ".intercalate states ∧
    d.context = [("states", .texts states)] ∧ s ∈ states

/-- A state is listed among those that no path leads to. -/
def ListsUnreachable (x : Explanation) (s : String) : Prop := x.Lists "Unreachable states: " s

/-- A state is listed among those that no edge leaves. -/
def ListsDeadEnd (x : Explanation) (s : String) : Prop := x.Lists "Dead-end states: " s

/-- It is reported that nothing ever ends. -/
def ReportsEndless (x : Explanation) : Prop :=
  ∃ d ∈ x.warnings, d.what = "No transition reaches the terminal state"

/-- It is reported that an event has several targets in a state. -/
def ReportsAmbiguous (x : Explanation) (s e : String) : Prop :=
  ∃ d ∈ x.warnings, d.what = "Event " ++ Text.quoted e ++ " in state " ++ Text.quoted s ++
      " has several targets" ∧
    ∃ targets, d.context = [("state", .text s), ("event", .text e), ("targets", targets)]

end Explanation

namespace Table

variable {t : Table} {s e : String} {d : Diagnostic}

/-! ## The warnings, one by one -/

theorem mem_endlessWarning : d ∈ t.endlessWarning ↔ t.terminalStates = [] ∧ d =
    { level := "warning"
      what := "No transition reaches the terminal state"
      why := some "Instances of this FSM never stop on their own."
      fix := some "Add an edge to '[*]' if instances should finish." } := by
  unfold endlessWarning
  cases t.terminalStates <;> simp

theorem mem_unreachableWarning : d ∈ t.unreachableWarning ↔ t.unreachableStates ≠ [] ∧ d =
    { level := "warning"
      what := "Unreachable states: " ++ ", ".intercalate t.unreachableStates
      why := some "No path of transitions leads to them from the initial state."
      fix := some "Connect them to the rest of the diagram or remove them."
      context := [("states", .texts t.unreachableStates)] } := by
  unfold unreachableWarning
  cases t.unreachableStates <;> simp

theorem mem_deadEndWarning : d ∈ t.deadEndWarning ↔ t.deadEnds ≠ [] ∧ d =
    { level := "warning"
      what := "Dead-end states: " ++ ", ".intercalate t.deadEnds
      why := some "An instance entering them can never move or stop again."
      fix := some "Add an outgoing edge, e.g. to '[*]'."
      context := [("states", .texts t.deadEnds)] } := by
  unfold deadEndWarning
  cases t.deadEnds <;> simp

theorem mem_ambiguityWarnings : d ∈ t.ambiguityWarnings ↔
    ∃ s e targets, ((s, e), targets) ∈ t.ambiguous ∧ d =
      { level := "warning"
        what := "Event " ++ Text.quoted e ++ " in state " ++ Text.quoted s ++
          " has several targets"
        why := some "on_transition must pick one; the default callback refuses such events."
        fix := some "Rename the events or supply an on_transition that chooses the target."
        context := [("state", .text s), ("event", .text e),
          ("targets", .texts (targets.map (·.toValue.literal)))] } := by
  unfold ambiguityWarnings
  simp only [List.mem_map, Prod.exists, eq_comm]

/-- A warning is of one of the four kinds. -/
theorem mem_explain_warnings : d ∈ t.explain.warnings ↔ d ∈ t.endlessWarning ∨
    d ∈ t.unreachableWarning ∨ d ∈ t.deadEndWarning ∨ d ∈ t.ambiguityWarnings := by
  show d ∈ t.endlessWarning ++ t.unreachableWarning ++ t.deadEndWarning ++ t.ambiguityWarnings ↔ _
  simp only [List.mem_append, or_assoc]

/-! ## What is reported is true -/

theorem mem_unreachableStates :
    s ∈ t.unreachableStates ↔ s ∈ t.states ∧ s ∉ t.reachable := by
  simp [unreachableStates]

theorem mem_deadEnds :
    s ∈ t.deadEnds ↔ s ∈ t.states ∧ ∀ x ∈ t.transitions, x.source ≠ s := by
  have hnone : t.eventsFrom s = [] ↔ ∀ x ∈ t.transitions, x.source ≠ s := by
    rw [eventsFrom, distinct_eq_nil]
    simp
  simp [deadEnds, hnone]

theorem terminalStates_eq_nil :
    t.terminalStates = [] ↔ ∀ s, t.allowed s .terminal ≠ true := by
  simp only [List.eq_nil_iff_forall_not_mem, mem_terminalStates, ne_eq, allowed_iff]

/-- The texts of two warnings differ that do not begin alike. -/
theorem text_ne {a b : String} {c c' : Char} {cs cs' : List Char} (ha : a.toList = c :: cs)
    (hb : b.toList = c' :: cs') (hc : c ≠ c') (x y : String) : a ++ x ≠ b ++ y := by
  intro h
  have hlist := congrArg String.toList h
  rw [String.toList_append, String.toList_append, ha, hb] at hlist
  exact hc (List.cons.inj hlist).1

/-- A warning that lists states lists either those that no path leads to, or those that no edge
leaves, and says which. -/
theorem listing_cases {states : List String} (hd : d ∈ t.explain.warnings)
    (hcontext : d.context = [("states", .texts states)]) :
    states = t.unreachableStates ∧ d.what = "Unreachable states: " ++ ", ".intercalate states ∨
      states = t.deadEnds ∧ d.what = "Dead-end states: " ++ ", ".intercalate states := by
  rcases mem_explain_warnings.1 hd with hd | hd | hd | hd
  · obtain ⟨-, rfl⟩ := mem_endlessWarning.1 hd
    cases hcontext
  · obtain ⟨-, rfl⟩ := mem_unreachableWarning.1 hd
    have htexts : Value.texts t.unreachableStates = Value.texts states := by simpa using hcontext
    obtain rfl := Value.texts_injective htexts
    exact .inl ⟨rfl, rfl⟩
  · obtain ⟨-, rfl⟩ := mem_deadEndWarning.1 hd
    have htexts : Value.texts t.deadEnds = Value.texts states := by simpa using hcontext
    obtain rfl := Value.texts_injective htexts
    exact .inr ⟨rfl, rfl⟩
  · obtain ⟨_, _, _, -, rfl⟩ := mem_ambiguityWarnings.1 hd
    simp at hcontext

theorem lists_unreachable_iff :
    t.explain.ListsUnreachable s ↔ s ∈ t.states ∧ s ∉ t.reachable := by
  rw [← mem_unreachableStates]
  constructor
  · rintro ⟨d, hd, states, hwhat, hcontext, hs⟩
    rcases listing_cases hd hcontext with ⟨rfl, -⟩ | ⟨-, hother⟩
    · exact hs
    · exact absurd (hwhat.symm.trans hother) (text_ne rfl rfl (by decide) _ _)
  · intro hs
    have hgiven := mem_unreachableWarning.2 ⟨List.ne_nil_of_mem hs, rfl⟩
    exact ⟨_, mem_explain_warnings.2 (.inr (.inl hgiven)), _, rfl, rfl, hs⟩

theorem lists_deadEnd_iff : t.explain.ListsDeadEnd s ↔
    s ∈ t.states ∧ ∀ x ∈ t.transitions, x.source ≠ s := by
  rw [← mem_deadEnds]
  constructor
  · rintro ⟨d, hd, states, hwhat, hcontext, hs⟩
    rcases listing_cases hd hcontext with ⟨-, hother⟩ | ⟨rfl, -⟩
    · exact absurd (hwhat.symm.trans hother) (text_ne rfl rfl (by decide) _ _)
    · exact hs
  · intro hs
    have hgiven := mem_deadEndWarning.2 ⟨List.ne_nil_of_mem hs, rfl⟩
    exact ⟨_, mem_explain_warnings.2 (.inr (.inr (.inl hgiven))), _, rfl, rfl, hs⟩

theorem reports_endless_iff :
    t.explain.ReportsEndless ↔ ∀ s, t.allowed s .terminal ≠ true := by
  rw [← terminalStates_eq_nil]
  constructor
  · rintro ⟨d, hd, hwhat⟩
    rw [← String.append_empty (s := "No transition reaches the terminal state")] at hwhat
    rcases mem_explain_warnings.1 hd with hd | hd | hd | hd
    · exact (mem_endlessWarning.1 hd).1
    · obtain ⟨-, rfl⟩ := mem_unreachableWarning.1 hd
      exact absurd hwhat (text_ne rfl rfl (by decide) _ _)
    · obtain ⟨-, rfl⟩ := mem_deadEndWarning.1 hd
      exact absurd hwhat (text_ne rfl rfl (by decide) _ _)
    · obtain ⟨_, _, _, -, rfl⟩ := mem_ambiguityWarnings.1 hd
      simp only [String.append_assoc] at hwhat
      exact absurd hwhat (text_ne rfl rfl (by decide) _ _)
  · intro hnone
    exact ⟨_, mem_explain_warnings.2 (.inl (mem_endlessWarning.2 ⟨hnone, rfl⟩)), rfl⟩

theorem reports_ambiguous_iff : t.explain.ReportsAmbiguous s e ↔
    ∃ x ∈ t.targets s e, ∃ y ∈ t.targets s e, x ≠ y := by
  constructor
  · rintro ⟨d, hd, hwhat, targets, hcontext⟩
    rcases mem_explain_warnings.1 hd with hd | hd | hd | hd
    · obtain ⟨-, rfl⟩ := mem_endlessWarning.1 hd
      cases hcontext
    · obtain ⟨-, rfl⟩ := mem_unreachableWarning.1 hd
      simp at hcontext
    · obtain ⟨-, rfl⟩ := mem_deadEndWarning.1 hd
      simp at hcontext
    · obtain ⟨s', e', targets', hmem, rfl⟩ := mem_ambiguityWarnings.1 hd
      obtain ⟨rfl, rfl, -⟩ : s' = s ∧ e' = e ∧ _ := by simpa using hcontext
      obtain ⟨rfl, hseveral⟩ := mem_ambiguous.1 hmem
      exact hseveral
  · intro hseveral
    have hgiven := mem_ambiguityWarnings.2
      ⟨s, e, t.targets s e, mem_ambiguous.2 ⟨rfl, hseveral⟩, rfl⟩
    exact ⟨_, mem_explain_warnings.2 (.inr (.inr (.inr hgiven))), rfl, _, rfl⟩

/-! ## No warnings -/

/-- Nothing about a table is suspicious. -/
structure Clean (t : Table) : Prop where
  /-- Some edge leads out of the diagram. -/
  ends : ∃ x ∈ t.transitions, x.target = .terminal
  /-- A path leads to every state. -/
  reached : ∀ s ∈ t.states, Relation.ReflTransGen t.Leads t.initial s
  /-- An edge leaves every state. -/
  left : ∀ s ∈ t.states, ∃ x ∈ t.transitions, x.source = s
  /-- No event leads to two targets from one state. -/
  single : ∀ s e x y, ⟨s, e, x⟩ ∈ t.transitions → ⟨s, e, y⟩ ∈ t.transitions → x = y

theorem warnings_eq_nil : t.explain.warnings = [] ↔ t.terminalStates ≠ [] ∧
    t.unreachableStates = [] ∧ t.deadEnds = [] ∧ t.ambiguous = [] := by
  have hendless : t.endlessWarning = [] ↔ t.terminalStates ≠ [] := by
    simp [endlessWarning]
  have hunreachable : t.unreachableWarning = [] ↔ t.unreachableStates = [] := by
    simp [unreachableWarning]
  have hdeadEnd : t.deadEndWarning = [] ↔ t.deadEnds = [] := by
    simp [deadEndWarning]
  have hambiguity : t.ambiguityWarnings = [] ↔ t.ambiguous = [] := List.map_eq_nil_iff
  show t.endlessWarning ++ t.unreachableWarning ++ t.deadEndWarning ++ t.ambiguityWarnings = [] ↔ _
  simp only [List.append_eq_nil_iff, hendless, hunreachable, hdeadEnd, hambiguity, and_assoc]

/-- A table gives no warnings exactly if nothing about it is suspicious. -/
theorem warnings_eq_nil_iff_clean : t.explain.warnings = [] ↔ t.Clean := by
  have hends : t.terminalStates ≠ [] ↔ ∃ x ∈ t.transitions, x.target = .terminal := by
    rw [ne_eq, terminalStates_eq_nil]
    simp [allowed_iff]
  have hreached : t.unreachableStates = [] ↔
      ∀ s ∈ t.states, Relation.ReflTransGen t.Leads t.initial s := by
    simp only [List.eq_nil_iff_forall_not_mem, mem_unreachableStates, mem_reachable_iff,
      not_and, not_not]
  have hleft : t.deadEnds = [] ↔ ∀ s ∈ t.states, ∃ x ∈ t.transitions, x.source = s := by
    simp [List.eq_nil_iff_forall_not_mem, mem_deadEnds]
  have hsingle : t.ambiguous = [] ↔ ∀ s e x y, ⟨s, e, x⟩ ∈ t.transitions →
      ⟨s, e, y⟩ ∈ t.transitions → x = y := by
    rw [← List.map_eq_nil_iff (f := Prod.fst), List.eq_nil_iff_forall_not_mem]
    simp only [mem_ambiguous_keys, mem_targets, Prod.forall, not_exists, not_and, not_not]
    exact ⟨fun h s e x y hx hy => h s e x hx y hy, fun h s e x hx y hy => h s e x y hx hy⟩
  rw [warnings_eq_nil, hends, hreached, hleft, hsingle]
  exact ⟨fun ⟨h1, h2, h3, h4⟩ => ⟨h1, h2, h3, h4⟩, fun ⟨h1, h2, h3, h4⟩ => ⟨h1, h2, h3, h4⟩⟩

end Table
end Turnstile

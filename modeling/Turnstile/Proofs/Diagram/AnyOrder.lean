-- A diagram means the set of its arrows: texts that show the same ones, in any order and as often as
-- they like, compile alike, and no query tells their tables apart.
import Turnstile.Proofs.Diagram.Dialects
import Turnstile.Proofs.Diagram.RoundTrip
import Turnstile.Proofs.Table.SameEdges

namespace Turnstile

variable {arrows arrows' : List Arrow}

/-- Whether arrows have a table goes by which ones there are. -/
theorem describes_congr (h : ∀ a, a ∈ arrows ↔ a ∈ arrows') :
    (∃ t, Describes arrows t) ↔ ∃ t, Describes arrows' t := by
  have hnil : arrows ≠ [] ↔ arrows' ≠ [] := by
    simp only [ne_eq, List.eq_nil_iff_forall_not_mem, h]
  simp only [describes_iff, hnil, h]

/-- The tables of the same arrows have the same edges. -/
theorem Describes.sameEdges {t t' : Table} (ht : Describes arrows t) (ht' : Describes arrows' t')
    (h : ∀ a, a ∈ arrows ↔ a ∈ arrows') : t.SameEdges t' := by
  have hperm : ∀ {α : Type} [DecidableEq α] {xs ys : List α}, (∀ x, x ∈ xs ↔ x ∈ ys) →
      (distinct xs).Perm (distinct ys) := by
    intro α _ xs ys hsame
    refine (List.perm_ext_iff_of_nodup (distinct_nodup xs) (distinct_nodup ys)).2 fun x => ?_
    rw [Table.mem_distinct, Table.mem_distinct, hsame]
  obtain ⟨a, ha, hsource⟩ := ht.entered
  refine ⟨?_, ?_, ?_⟩
  · have hhere := ht.initial a ha hsource
    rw [ht'.initial a ((h a).1 ha) hsource] at hhere
    exact (Node.state.inj hhere).symm
  · rw [ht.transitions, ht'.transitions]
    refine hperm fun e => ?_
    simp only [mem_transitions, h]
  · rw [ht.events, ht'.events]
    refine hperm fun e => ?_
    simp only [mem_entryEvents, h]

theorem mem_arrows {d : Dialect} {lines : List (List Char)} {a : Arrow} :
    a ∈ d.arrows lines ↔ ∃ raw ∈ lines, IsEdgeLine d raw a := by
  unfold Dialect.arrows
  simp only [List.mem_filterMap, Dialect.arrow?_eq_some]

/-- The arrows of a text are those of the edges that are read from it. -/
theorem mem_arrows_of_edges {d : Dialect} {text : String} {es : List Edge}
    (h : d.edges text = .ok es) (a : Arrow) :
    (∃ raw ∈ Text.lines text.toList, IsEdgeLine d raw a) ↔ a ∈ es.map Edge.arrow := by
  obtain ⟨-, rfl⟩ := Dialect.edges_eq_ok.1 h
  rw [Dialect.numbered_arrows, mem_arrows]

theorem fits_of_edges {d : Dialect} {text : String} {es : List Edge} (h : d.edges text = .ok es) :
    ∀ i raw, (Text.lines text.toList)[i]? = some raw →
      Fits d ((Text.lines text.toList).take i) raw :=
  Dialect.allFit_iff.1 (Dialect.edges_eq_ok.1 h).1

/-! ## The law -/

/-- Two texts, each in its dialect, whose lines all fit (they are blank, comments, edge lines, or
what else a diagram may hold) and show the same arrows: either both have a table or none has, and the
tables agree on all that may be asked of them. -/
theorem a_diagram_means_its_set_of_edges (d d' : Dialect) (text text' : String)
    (hfit : ∀ i raw, (Text.lines text.toList)[i]? = some raw →
      Fits d ((Text.lines text.toList).take i) raw)
    (hfit' : ∀ i raw, (Text.lines text'.toList)[i]? = some raw →
      Fits d' ((Text.lines text'.toList).take i) raw)
    (hsame : ∀ a, (∃ raw ∈ Text.lines text.toList, IsEdgeLine d raw a) ↔
      ∃ raw ∈ Text.lines text'.toList, IsEdgeLine d' raw a) :
    ((∃ t, compileDiagram text d.name = .ok t) ↔ ∃ t', compileDiagram text' d'.name = .ok t') ∧
    ∀ t t', compileDiagram text d.name = .ok t → compileDiagram text' d'.name = .ok t' →
      t.Agrees t' := by
  have harrows : ∀ a, a ∈ d.arrows (Text.lines text.toList) ↔
      a ∈ d'.arrows (Text.lines text'.toList) := by
    intro a
    rw [mem_arrows, mem_arrows, hsame]
  have hall : d.AllFit [] (Text.lines text.toList) := Dialect.allFit_iff.2 hfit
  have hall' : d'.AllFit [] (Text.lines text'.toList) := Dialect.allFit_iff.2 hfit'
  simp only [compileDiagram_name, compile_eq_ok, hall, hall', true_and]
  refine ⟨describes_congr harrows, ?_⟩
  intro t t' ht ht'
  exact (ht.sameEdges ht' harrows).agrees

/-- The edges of a diagram in another order, one of them twice, with a comment and in the other
dialect. -/
theorem a_shuffled_diagram_means_the_same :
    let text := "[*] --> a : go\na --> b : x\nb --> [*] : end"
    let text' := "%% note\n\nb --> |end| [*]\na-->|x|b\n[*] --> |go| a\na --> |x| b"
    ∃ t t', compileDiagram text "plantuml" = .ok t ∧ compileDiagram text' "mermaid" = .ok t' ∧
      t.transitions ≠ t'.transitions ∧ t.Agrees t' := by
  intro text text'
  have hedges : Dialect.plantuml.edges text = .ok [⟨.pseudo, "go", .state "a", 1⟩,
      ⟨.state "a", "x", .state "b", 2⟩, ⟨.state "b", "end", .pseudo, 3⟩] := by decide +kernel
  have hedges' : Dialect.mermaid.edges text' = .ok [⟨.state "b", "end", .pseudo, 3⟩,
      ⟨.state "a", "x", .state "b", 4⟩, ⟨.pseudo, "go", .state "a", 5⟩,
      ⟨.state "a", "x", .state "b", 6⟩] := by decide +kernel
  have hcompiled : compileDiagram text "plantuml" =
      .ok ⟨"a", [⟨"a", "x", .state "b"⟩, ⟨"b", "end", .terminal⟩], ["go"]⟩ := by decide +kernel
  have hcompiled' : compileDiagram text' "mermaid" =
      .ok ⟨"a", [⟨"b", "end", .terminal⟩, ⟨"a", "x", .state "b"⟩], ["go"]⟩ := by decide +kernel
  refine ⟨_, _, hcompiled, hcompiled', by decide, ?_⟩
  refine (a_diagram_means_its_set_of_edges .plantuml .mermaid text text' (fits_of_edges hedges)
    (fits_of_edges hedges') fun a => ?_).2 _ _ hcompiled hcompiled'
  rw [mem_arrows_of_edges hedges, mem_arrows_of_edges hedges']
  simp only [List.map_cons, List.map_nil, Edge.arrow, List.mem_cons, List.not_mem_nil]
  grind

end Turnstile

-- Which diagrams have a table, and which table it is: all lines have to fit, the arrows have to
-- enter the diagram at one state, and the table is known from the arrows alone.
import Turnstile.Proofs.Diagram.Lines
import Turnstile.Proofs.Table.Distinct

namespace Turnstile

/-! ## From arrows to a table -/

/-- The transition of an arrow that leaves a state. -/
def Arrow.transition? (a : Arrow) : Option Transition :=
  match a.source, a.target with
  | .pseudo, _ => none
  | .state s, .pseudo => some ⟨s, a.event, .terminal⟩
  | .state s, .state x => some ⟨s, a.event, .state x⟩

/-- The events of the arrows that enter a diagram. -/
def entryEvents (arrows : List Arrow) : List String :=
  (arrows.filter fun a => a.source = .pseudo).map (·.event)

/-- The table of some arrows: all that enter lead to its initial state, and nothing is in it
twice. -/
structure Describes (arrows : List Arrow) (t : Table) : Prop where
  entered : ∃ a ∈ arrows, a.source = .pseudo
  initial : ∀ a ∈ arrows, a.source = .pseudo → a.target = .state t.initial
  events : t.entryEvents = distinct (entryEvents arrows)
  transitions : t.transitions = distinct (arrows.filterMap Arrow.transition?)

theorem filterMap_transition? (es : List Edge) :
    es.filterMap (·.transition?) = (es.map Edge.arrow).filterMap Arrow.transition? := by
  rw [List.filterMap_map]
  congr 1
  funext e
  obtain ⟨source, event, target, line⟩ := e
  cases source <;> cases target <;> rfl

theorem entryEvents_map (es : List Edge) :
    (es.filter (·.isEntry)).map (·.event) = entryEvents (es.map Edge.arrow) := by
  rw [entryEvents, List.filter_map, List.map_map]
  rfl

theorem mem_entryStates {es : List Edge} {s : String} :
    s ∈ es.filterMap (·.entryState?) ↔ ∃ e ∈ es, e.source = .pseudo ∧ e.target = .state s := by
  rw [List.mem_filterMap]
  refine exists_congr fun e => and_congr_right fun _ => ?_
  obtain ⟨source, event, target, line⟩ := e
  cases source <;> cases target <;> simp [Edge.entryState?]

theorem ofEdges_eq_ok {dialect : String} {es : List Edge} {t : Table} :
    Table.ofEdges dialect es = .ok t ↔ Describes (es.map Edge.arrow) t := by
  constructor
  · intro h
    unfold Table.ofEdges at h
    split at h
    · cases h
    · split at h
      · cases h
      · rename_i hexit
        split at h
        · cases h
        · rename_i s hstates
          cases h
          obtain ⟨hs, hall⟩ := distinct_eq_singleton.1 hstates
          obtain ⟨e, he, hsource, -⟩ := mem_entryStates.1 hs
          refine ⟨⟨e.arrow, List.mem_map_of_mem he, hsource⟩, ?_, ?_, ?_⟩
          · intro a ha hsrc
            obtain ⟨e', he', rfl⟩ := List.mem_map.1 ha
            have hsrc' : e'.source = .pseudo := hsrc
            have hnot := List.find?_eq_none.1 hexit e' he'
            simp only [Edge.isEntryToExit, Bool.and_eq_true, decide_eq_true_eq, hsrc',
              true_and] at hnot
            cases htarget : e'.target with
            | pseudo => exact absurd htarget hnot
            | state x =>
              rw [← hall x (mem_entryStates.2 ⟨e', he', hsrc', htarget⟩)]
              exact htarget
          · rw [entryEvents_map]
          · rw [filterMap_transition?]
        · cases h
  · rintro ⟨⟨a, ha, hsource⟩, hinit, hevents, htrans⟩
    obtain ⟨e, he, rfl⟩ := List.mem_map.1 ha
    have hne : es.isEmpty = false := by
      cases es with
      | nil => cases he
      | cons e es => rfl
    have hinit' : ∀ e ∈ es, e.source = .pseudo → e.target = .state t.initial :=
      fun e he => hinit e.arrow (List.mem_map_of_mem he)
    have hexit : es.find? (·.isEntryToExit) = none := by
      rw [List.find?_eq_none]
      intro e' he'
      simp only [Edge.isEntryToExit, Bool.and_eq_true, decide_eq_true_eq, not_and]
      intro hsrc
      rw [hinit' e' he' hsrc]
      simp
    have hstates : distinct (es.filterMap (·.entryState?)) = [t.initial] := by
      rw [distinct_eq_singleton]
      refine ⟨mem_entryStates.2 ⟨e, he, hsource, hinit' e he hsource⟩, ?_⟩
      intro s hs
      obtain ⟨e', he', hsrc, htarget⟩ := mem_entryStates.1 hs
      rw [hinit' e' he' hsrc] at htarget
      cases htarget
      rfl
    unfold Table.ofEdges
    rw [hne, hexit, hstates]
    simp only [Bool.false_eq_true, if_false, entryEvents_map, filterMap_transition?, ← hevents,
      ← htrans]

/-! ## From a text to a table -/

theorem ofName?_name (d : Dialect) : Dialect.ofName? d.name = some d := by
  cases d <;> decide +kernel

theorem compileDiagram_name (text : String) (d : Dialect) :
    compileDiagram text d.name = d.compile text := by
  unfold compileDiagram
  rw [ofName?_name]

/-- A text has a table exactly when all its lines fit and its arrows describe the table. -/
theorem compile_eq_ok {d : Dialect} {text : String} {t : Table} :
    d.compile text = .ok t ↔ d.AllFit [] (Text.lines text.toList) ∧
      Describes (d.arrows (Text.lines text.toList)) t := by
  unfold Dialect.compile
  cases hedges : d.edges text with
  | error fault =>
    have hno : ¬ d.AllFit [] (Text.lines text.toList) := by
      intro hall
      rw [Dialect.edges_eq_ok.2 ⟨hall, rfl⟩] at hedges
      cases hedges
    simp [hno]
  | ok es =>
    obtain ⟨hall, rfl⟩ := Dialect.edges_eq_ok.1 hedges
    simp only [hall, true_and, ofEdges_eq_ok, Dialect.numbered_arrows]

theorem describes_iff {arrows : List Arrow} :
    (∃ t, Describes arrows t) ↔ arrows ≠ [] ∧
      (∀ a ∈ arrows, ¬ (a.source = .pseudo ∧ a.target = .pseudo)) ∧
      ∃! target, ∃ a ∈ arrows, a.source = .pseudo ∧ a.target = target := by
  constructor
  · rintro ⟨t, ⟨⟨a, ha, hsource⟩, hinit, -, -⟩⟩
    refine ⟨List.ne_nil_of_mem ha, ?_, .state t.initial, ?_, ?_⟩
    · rintro b hb ⟨hs, ht⟩
      rw [hinit b hb hs] at ht
      cases ht
    · exact ⟨a, ha, hsource, hinit a ha hsource⟩
    · rintro target ⟨b, hb, hs, rfl⟩
      exact hinit b hb hs
  · rintro ⟨-, hexit, target, ⟨a, ha, hsource, htarget⟩, huniq⟩
    cases target with
    | pseudo => exact absurd ⟨hsource, htarget⟩ (hexit a ha)
    | state s =>
      refine ⟨⟨s, distinct (arrows.filterMap Arrow.transition?),
        distinct (entryEvents arrows)⟩, ⟨a, ha, hsource⟩, ?_, rfl, rfl⟩
      intro b hb hs
      exact huniq b.target ⟨b, hb, hs, rfl⟩

/-! ## The law -/

/-- A text compiles exactly when every line is blank, a comment, a directive, a header at the
top or an edge line, there are edge lines, none goes from `[*]` to `[*]`, and those that leave
`[*]` have one target. Then that target is the initial state, and the entry events and the
transitions are those of the edge lines in their order, each once. An edge line is none of the
other lines, and is cut into tokens in one way only. -/
theorem a_diagram_compiles_exactly_when_its_lines_fit (d : Dialect) (text : String) :
    let lines := Text.lines text.toList
    let arrows := d.arrows lines
    ((∃ t, compileDiagram text d.name = .ok t) ↔
      (∀ i raw, lines[i]? = some raw → Fits d (lines.take i) raw) ∧
      arrows ≠ [] ∧
      (∀ a ∈ arrows, ¬ (a.source = .pseudo ∧ a.target = .pseudo)) ∧
      ∃! target, ∃ a ∈ arrows, a.source = .pseudo ∧ a.target = target) ∧
    (∀ t, compileDiagram text d.name = .ok t →
      (∃ a ∈ arrows, a.source = .pseudo ∧ a.target = .state t.initial) ∧
      t.entryEvents = distinct (entryEvents arrows) ∧
      t.transitions = distinct (arrows.filterMap Arrow.transition?)) ∧
    (∀ raw a, IsEdgeLine d raw a →
      ¬ AllBlank raw ∧ ¬ IsComment d raw ∧ ¬ IsDirective raw ∧ ¬ IsHeader raw) ∧
    (∀ raw a a' c c', CutsInto d raw a c → CutsInto d raw a' c' → a = a' ∧ c = c') := by
  intro lines arrows
  simp only [compileDiagram_name, compile_eq_ok]
  refine ⟨?_, ?_, ?_, ?_⟩
  · rw [exists_and_left, describes_iff, Dialect.allFit_iff]
    simp only [List.nil_append]
    rfl
  · rintro t ⟨-, ⟨⟨a, ha, hsource⟩, hinit, hevents, htrans⟩⟩
    exact ⟨⟨a, ha, hsource, hinit a ha hsource⟩, hevents, htrans⟩
  · intro raw a h
    exact ⟨h.not_allBlank, h.not_isComment, h.not_isDirective, h.not_isHeader⟩
  · intro raw a a' c c' h h'
    exact h.unique h'

/-- A diagram with a comment, a directive, loose blanks and a repeated edge. -/
theorem a_loose_diagram_compiles :
    let text := "' note\nhide empty x\n[*]-->a:go\n\ta --> [*] : end\na-->[*]:end"
    let arrows := Dialect.plantuml.arrows (Text.lines text.toList)
    compileDiagram text "plantuml" = .ok ⟨"a", [⟨"a", "end", .terminal⟩], ["go"]⟩ ∧
      ∃ a ∈ arrows, a.source = .pseudo ∧ a.target = .state "a" := by
  intro text arrows
  have h : compileDiagram text "plantuml" = .ok ⟨"a", [⟨"a", "end", .terminal⟩], ["go"]⟩ := by
    decide +kernel
  exact ⟨h, ((a_diagram_compiles_exactly_when_its_lines_fit .plantuml text).2.1 _ h).1⟩

end Turnstile

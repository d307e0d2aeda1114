-- Tables and their texts: a table comes back from its text in either dialect exactly when it is
-- well formed, and a table that was compiled always is.
import Turnstile.Proofs.Diagram.Meaning
import Turnstile.Table.Render

namespace Turnstile

/-- A table whose names can all be written, which is entered, and in which nothing is twice. -/
structure Table.WellFormed (t : Table) : Prop where
  initial : isName t.initial.toList = true
  source : ∀ e ∈ t.transitions, isName e.source.toList = true
  event : ∀ e ∈ t.transitions, isName e.event.toList = true
  target : ∀ e ∈ t.transitions, ∀ s, e.target = .state s → isName s.toList = true
  entry : ∀ event ∈ t.entryEvents, isName event.toList = true
  entered : t.entryEvents ≠ []
  entryOnce : t.entryEvents.Nodup
  transitionOnce : t.transitions.Nodup

/-! ## Compiled tables -/

theorem isNamed_of_mem_arrows {d : Dialect} {lines : List (List Char)} {a : Arrow}
    (h : a ∈ d.arrows lines) : a.IsNamed := by
  obtain ⟨raw, -, hraw⟩ := List.mem_filterMap.1 h
  obtain ⟨c, hc⟩ := Dialect.arrow?_eq_some.1 hraw
  exact hc.named

theorem mem_entryEvents {arrows : List Arrow} {event : String} :
    event ∈ entryEvents arrows ↔ ∃ a ∈ arrows, a.source = .pseudo ∧ a.event = event := by
  simp [entryEvents, and_assoc]

theorem mem_transitions {arrows : List Arrow} {e : Transition} :
    e ∈ arrows.filterMap Arrow.transition? ↔
      ∃ a ∈ arrows, a.source = .state e.source ∧ a.event = e.event ∧
        a.target = match e.target with
          | .terminal => .pseudo
          | .state s => .state s := by
  rw [List.mem_filterMap]
  refine exists_congr fun a => and_congr_right fun _ => ?_
  obtain ⟨source, event, target⟩ := a
  obtain ⟨source', event', target'⟩ := e
  cases source <;> cases target <;> cases target' <;> simp [Arrow.transition?]

/-- A table that arrows with names describe is well formed. -/
theorem Describes.wellFormed {arrows : List Arrow} {t : Table} (h : Describes arrows t)
    (hnamed : ∀ a ∈ arrows, a.IsNamed) : t.WellFormed := by
  have htrans : ∀ e ∈ t.transitions, ∃ a ∈ arrows, a.source = .state e.source ∧
      a.event = e.event ∧ a.target = match e.target with
        | .terminal => .pseudo
        | .state s => .state s := by
    intro e he
    rw [h.transitions, Table.mem_distinct] at he
    exact mem_transitions.1 he
  obtain ⟨a, ha, hsource⟩ := h.entered
  constructor
  · have := (hnamed a ha).target
    rw [h.initial a ha hsource] at this
    exact this
  · intro e he
    obtain ⟨b, hb, hs, -, -⟩ := htrans e he
    have := (hnamed b hb).source
    rw [hs] at this
    exact this
  · intro e he
    obtain ⟨b, hb, -, hev, -⟩ := htrans e he
    rw [← hev]
    exact (hnamed b hb).event
  · intro e he s hs
    obtain ⟨b, hb, -, -, ht⟩ := htrans e he
    have := (hnamed b hb).target
    rw [ht, hs] at this
    exact this
  · intro event hevent
    rw [h.events, Table.mem_distinct] at hevent
    obtain ⟨b, hb, -, rfl⟩ := mem_entryEvents.1 hevent
    exact (hnamed b hb).event
  · intro hnil
    rw [h.events, distinct_eq_nil] at hnil
    have := mem_entryEvents.2 ⟨a, ha, hsource, rfl⟩
    rw [hnil] at this
    cases this
  · rw [h.events]
    exact distinct_nodup _
  · rw [h.transitions]
    exact distinct_nodup _

theorem compiled_wellFormed {text : String} {name : String} {t : Table}
    (h : compileDiagram text name = .ok t) : t.WellFormed := by
  unfold compileDiagram at h
  split at h
  · cases h
  · exact (compile_eq_ok.1 h).2.wellFormed fun _ => isNamed_of_mem_arrows

/-! ## The arrows of a table -/

namespace Table

/-- The arrow of a transition. -/
def arrowOf (e : Transition) : Arrow where
  source := .state e.source
  event := e.event
  target := match e.target with
    | .terminal => .pseudo
    | .state s => .state s

/-- The arrows of a table, those that enter it in front. -/
def toArrows (t : Table) : List Arrow :=
  t.entryEvents.map (fun event => ⟨.pseudo, event, .state t.initial⟩) ++
    t.transitions.map arrowOf

theorem entryEvents_toArrows (t : Table) : Turnstile.entryEvents t.toArrows = t.entryEvents := by
  simp [Turnstile.entryEvents, toArrows, arrowOf, List.filter_map, Function.comp_def]

theorem transition?_toArrows (t : Table) :
    t.toArrows.filterMap Arrow.transition? = t.transitions := by
  have harrow : ∀ e, Arrow.transition? (arrowOf e) = some e := by
    rintro ⟨source, event, target⟩
    cases target <;> rfl
  have hentry : (t.entryEvents.map fun event => Arrow.mk .pseudo event (.state t.initial)).filterMap
      Arrow.transition? = [] := by
    simp [Arrow.transition?]
  rw [toArrows, List.filterMap_append, hentry, List.filterMap_map, List.nil_append]
  simp only [Function.comp_def, harrow, List.filterMap_some]

theorem WellFormed.toArrows_isNamed {t : Table} (h : t.WellFormed) :
    ∀ a ∈ t.toArrows, a.IsNamed := by
  intro a ha
  rcases List.mem_append.1 ha with ha | ha
  · obtain ⟨event, hevent, rfl⟩ := List.mem_map.1 ha
    exact ⟨trivial, h.entry event hevent, h.initial⟩
  · obtain ⟨e, he, rfl⟩ := List.mem_map.1 ha
    refine ⟨h.source e he, h.event e he, ?_⟩
    cases htarget : e.target with
    | terminal => simp [arrowOf, htarget, Node.IsNamed]
    | state s => simpa [arrowOf, htarget, Node.IsNamed] using h.target e he s htarget

theorem WellFormed.describes {t : Table} (h : t.WellFormed) : Describes t.toArrows t := by
  constructor
  · cases hevents : t.entryEvents with
    | nil => exact absurd hevents h.entered
    | cons event rest =>
      exact ⟨⟨.pseudo, event, .state t.initial⟩, by simp [toArrows, hevents], rfl⟩
  · intro a ha hsource
    rcases List.mem_append.1 ha with ha | ha
    · obtain ⟨event, -, rfl⟩ := List.mem_map.1 ha
      rfl
    · obtain ⟨e, -, rfl⟩ := List.mem_map.1 ha
      cases hsource
  · rw [entryEvents_toArrows, distinct_eq_self h.entryOnce]
  · rw [transition?_toArrows, distinct_eq_self h.transitionOnce]

end Table

/-! ## Lines of a text -/

/-- A text without line ends. -/
def IsOneLine (cs : List Char) : Prop := ∀ c ∈ cs, Text.isLineEnd c = false

instance (cs : List Char) : Decidable (IsOneLine cs) :=
  List.decidableBAll (fun c => Text.isLineEnd c = false) cs

theorem linesFrom_cons {line cs : List Char} {c : Char} (h : Text.isLineEnd c = false) :
    Text.linesFrom line (c :: cs) = Text.linesFrom (c :: line) cs := by
  rw [Text.linesFrom]
  · rw [if_neg (by simp [h])]
  · rintro rest rfl -
    cases h

theorem linesFrom_append {line cs rest : List Char} (h : IsOneLine cs) :
    Text.linesFrom line (cs ++ rest) = Text.linesFrom (cs.reverse ++ line) rest := by
  induction cs generalizing line with
  | nil => rfl
  | cons c cs ih =>
    rw [List.cons_append, linesFrom_cons (h c (by simp)), ih fun x hx => h x (by simp [hx])]
    simp

theorem lines_single {cs : List Char} (h : IsOneLine cs) (hne : cs ≠ []) :
    Text.lines cs = [cs] := by
  have hcs : Text.linesFrom [] (cs ++ []) = Text.linesFrom (cs.reverse ++ []) [] :=
    linesFrom_append h
  rw [List.append_nil, List.append_nil] at hcs
  unfold Text.lines
  rw [hcs, Text.linesFrom]
  simp [hne]

theorem lines_cons {cs rest : List Char} (h : IsOneLine cs) :
    Text.lines (cs ++ '\n' :: rest) = cs :: Text.lines rest := by
  unfold Text.lines
  rw [linesFrom_append h]
  simp [Text.linesFrom, Text.isLineEnd]

/-- Lines that are put together come apart again. -/
theorem lines_intercalate {ls : List (List Char)} (h : ∀ l ∈ ls, IsOneLine l ∧ l ≠ []) :
    Text.lines (['\n'].intercalate ls) = ls := by
  induction ls with
  | nil => rfl
  | cons l ls ih =>
    obtain ⟨hl, hls⟩ := List.forall_mem_cons.1 h
    cases ls with
    | nil =>
      rw [List.intercalate_singleton]
      exact lines_single hl.1 hl.2
    | cons l' ls =>
      rw [List.intercalate_cons_cons, List.append_assoc, List.singleton_append,
        lines_cons hl.1, ih hls]

/-! ## The lines of a table's text -/

/-- The text of a node. -/
def Node.text : Node → String
  | .pseudo => "[*]"
  | .state s => s

theorem Node.toList_text (n : Node) : n.text.toList = n.token := by
  cases n <;> rfl

/-- The line that an arrow is written on. -/
def Arrow.line (a : Arrow) : Dialect → String
  | .mermaid => s!"{a.source.text} --> |{a.event}| {a.target.text}"
  | .plantuml => s!"{a.source.text} --> {a.target.text} : {a.event}"

/-- The lines of the text of a table. -/
def Table.renderLines (t : Table) (d : Dialect) : List String :=
  match d with
  | .mermaid => "stateDiagram-v2" :: t.toArrows.map (·.line d)
  | .plantuml => "@startuml" :: t.toArrows.map (·.line d) ++ ["@enduml"]

theorem Table.WellFormed.edgeTexts {t : Table} (h : t.WellFormed) :
    t.edgeTexts = t.toArrows.map fun a => (a.source.text, a.event, a.target.text) := by
  have hentry : t.entryEvents.isEmpty = false := by simpa using h.entered
  have htext : ∀ e : Transition, e.target.text = (arrowOf e).target.text := by
    rintro ⟨source, event, target⟩
    cases target <;> rfl
  simp only [Table.edgeTexts, hentry, Bool.false_eq_true, if_false, Table.toArrows,
    List.map_append, List.map_map, htext]
  rfl

theorem Table.WellFormed.render {t : Table} (h : t.WellFormed) (d : Dialect) :
    t.render d = "\n".intercalate (t.renderLines d) := by
  cases d with
  | mermaid => simp [Table.render, Table.renderLines, h.edgeTexts, Arrow.line, Function.comp_def]
  | plantuml => simp [Table.render, Table.renderLines, h.edgeTexts, Arrow.line, Function.comp_def]

theorem allBlank_nil : AllBlank [] := fun _ h => by cases h

theorem allBlank_space : AllBlank [' '] := fun c h => by
  rw [List.mem_singleton.1 h]
  decide

theorem isEdgeLine_line {a : Arrow} (h : a.IsNamed) (d : Dialect) :
    IsEdgeLine d (a.line d).toList a := by
  cases d with
  | mermaid =>
    refine ⟨⟨[([], a.source.token), ([' '], ['-', '-', '>']), ([' '], ['|']),
      ([], a.event.toList), ([], ['|']), ([' '], a.target.token)], []⟩, h, rfl, ?_, ?_, ?_⟩
    · simp [allBlank_nil, allBlank_space]
    · exact allBlank_nil
    · have hline : a.line .mermaid =
          a.source.text ++ " --> |" ++ a.event ++ "| " ++ a.target.text := rfl
      simp [Cut.line, hline, Node.toList_text]
  | plantuml =>
    refine ⟨⟨[([], a.source.token), ([' '], ['-', '-', '>']), ([' '], a.target.token),
      ([' '], [':']), ([' '], a.event.toList)], []⟩, h, rfl, ?_, ?_, ?_⟩
    · simp [allBlank_nil, allBlank_space]
    · exact allBlank_nil
    · have hline : a.line .plantuml =
          a.source.text ++ " --> " ++ a.target.text ++ " : " ++ a.event := rfl
      simp [Cut.line, hline, Node.toList_text]

theorem isOneLine_append {cs cs' : List Char} :
    IsOneLine (cs ++ cs') ↔ IsOneLine cs ∧ IsOneLine cs' := List.forall_mem_append

theorem isOneLine_of_isName {cs : List Char} (h : isName cs = true) : IsOneLine cs := by
  have hend : ∀ c, isNameChar c = true → Text.isLineEnd c = false := by
    intro c hc
    have hb := isNameChar_bounds hc
    simp only [Text.isLineEnd, Bool.or_eq_false_iff, Bool.and_eq_false_iff,
      decide_eq_false_iff_not, beq_eq_false_iff_ne]
    omega
  cases cs with
  | nil => cases h
  | cons c cs =>
    simp only [isName, Bool.and_eq_true, List.all_eq_true] at h
    intro x hx
    rcases List.mem_cons.1 hx with rfl | hx
    · exact hend x (isNameChar_of_isNameStart h.1)
    · exact hend x (h.2 x hx)

theorem isOneLine_token {n : Node} (h : n.IsNamed) : IsOneLine n.token := by
  cases n with
  | pseudo =>
    unfold Node.token
    decide
  | state s => exact isOneLine_of_isName h

theorem isOneLine_line {a : Arrow} (h : a.IsNamed) (d : Dialect) :
    IsOneLine (a.line d).toList := by
  have hs := isOneLine_token h.source
  have ht := isOneLine_token h.target
  have he := isOneLine_of_isName h.event
  have hmark : ∀ text ∈ [" --> |", "| ", " --> ", " : "], IsOneLine text.toList := by
    decide +kernel
  cases d with
  | mermaid =>
    have hline : a.line .mermaid =
        a.source.text ++ " --> |" ++ a.event ++ "| " ++ a.target.text := rfl
    simp only [hline, String.toList_append, isOneLine_append, Node.toList_text]
    exact ⟨⟨⟨⟨hs, hmark _ (by simp)⟩, he⟩, hmark _ (by simp)⟩, ht⟩
  | plantuml =>
    have hline : a.line .plantuml =
        a.source.text ++ " --> " ++ a.target.text ++ " : " ++ a.event := rfl
    simp only [hline, String.toList_append, isOneLine_append, Node.toList_text]
    exact ⟨⟨⟨⟨hs, hmark _ (by simp)⟩, ht⟩, hmark _ (by simp)⟩, he⟩

theorem IsEdgeLine.ne_nil {d : Dialect} {raw : List Char} {a : Arrow} (h : IsEdgeLine d raw a) :
    raw ≠ [] := by
  rintro rfl
  exact h.not_allBlank allBlank_nil

theorem Table.WellFormed.lines_render {t : Table} (h : t.WellFormed) (d : Dialect) :
    Text.lines (t.render d).toList = (t.renderLines d).map String.toList := by
  have harrows : ∀ l ∈ (t.toArrows.map (·.line d)).map String.toList, IsOneLine l ∧ l ≠ [] := by
    intro l hl
    simp only [List.map_map, List.mem_map, Function.comp_apply] at hl
    obtain ⟨a, ha, rfl⟩ := hl
    have hn := h.toArrows_isNamed a ha
    exact ⟨isOneLine_line hn d, (isEdgeLine_line hn d).ne_nil⟩
  have hwords : ∀ word ∈ ["stateDiagram-v2", "@startuml", "@enduml"],
      IsOneLine word.toList ∧ word.toList ≠ [] := by
    decide +kernel
  rw [h.render d, String.toList_intercalate]
  apply lines_intercalate
  cases d with
  | mermaid =>
    simp only [Table.renderLines, List.map_cons, List.forall_mem_cons]
    exact ⟨hwords _ (by simp), harrows⟩
  | plantuml =>
    simp only [Table.renderLines, List.cons_append, List.map_cons, List.map_append,
      List.forall_mem_cons, List.forall_mem_append]
    exact ⟨hwords _ (by simp), harrows, hwords _ (by simp), by simp⟩

/-! ## There and back -/

theorem allFit_of_forall {d : Dialect} {before lines : List (List Char)}
    (h : ∀ raw ∈ lines, ∀ before, Fits d before raw) : d.AllFit before lines := by
  rw [Dialect.allFit_iff]
  exact fun i raw hi => h raw (List.mem_of_getElem? hi) _

theorem isHeader_states : IsHeader "stateDiagram-v2".toList :=
  ⟨[], _, [], allBlank_nil, .statesV2, allBlank_nil, by simp⟩

theorem isDirective_start : IsDirective "@startuml".toList :=
  ⟨[], _, [], allBlank_nil, .start, by simp⟩

theorem isDirective_finish : IsDirective "@enduml".toList :=
  ⟨[], _, [], allBlank_nil, .finish, by simp⟩

theorem Table.WellFormed.allFit {t : Table} (h : t.WellFormed) (d : Dialect) :
    d.AllFit [] ((t.renderLines d).map String.toList) := by
  have harrows : ∀ raw ∈ (t.toArrows.map (·.line d)).map String.toList,
      ∀ before, Fits d before raw := by
    intro raw hraw before
    simp only [List.map_map, List.mem_map, Function.comp_apply] at hraw
    obtain ⟨a, ha, rfl⟩ := hraw
    exact .edge a (isEdgeLine_line (h.toArrows_isNamed a ha) d)
  cases d with
  | mermaid =>
    exact ⟨.header rfl isHeader_states (by simp), allFit_of_forall harrows⟩
  | plantuml =>
    apply allFit_of_forall
    simp only [Table.renderLines, List.cons_append, List.map_cons, List.map_append,
      List.forall_mem_cons, List.forall_mem_append]
    exact ⟨fun _ => .directive rfl isDirective_start, harrows,
      fun _ => .directive rfl isDirective_finish, by simp⟩

theorem Table.WellFormed.arrows_render {t : Table} (h : t.WellFormed) (d : Dialect) :
    d.arrows ((t.renderLines d).map String.toList) = t.toArrows := by
  have harrows : ∀ as : List Arrow, (∀ a ∈ as, a.IsNamed) →
      d.arrows ((as.map (·.line d)).map String.toList) = as := by
    intro as has
    induction as with
    | nil => rfl
    | cons a as ih =>
      obtain ⟨ha, has⟩ := List.forall_mem_cons.1 has
      have hsome := Dialect.arrow?_eq_some.2 (isEdgeLine_line ha d)
      simp only [Dialect.arrows, List.map_cons, List.filterMap_cons, hsome, List.cons.injEq,
        true_and]
      exact ih has
  have htable := harrows t.toArrows h.toArrows_isNamed
  cases d with
  | mermaid =>
    have hnone : Dialect.mermaid.arrow? "stateDiagram-v2".toList = none :=
      Dialect.arrow?_eq_none fun a ha => ha.not_isHeader isHeader_states
    unfold Dialect.arrows at htable ⊢
    simp only [Table.renderLines, List.map_cons, List.filterMap_cons, hnone]
    exact htable
  | plantuml =>
    have hstart : Dialect.plantuml.arrow? "@startuml".toList = none :=
      Dialect.arrow?_eq_none fun a ha => ha.not_isDirective isDirective_start
    have hfinish : Dialect.plantuml.arrow? "@enduml".toList = none :=
      Dialect.arrow?_eq_none fun a ha => ha.not_isDirective isDirective_finish
    unfold Dialect.arrows at htable ⊢
    simp only [Table.renderLines, List.cons_append, List.map_cons, List.map_append,
      List.filterMap_cons, List.filterMap_append, hstart, hfinish, List.map_nil,
      List.filterMap_nil, List.append_nil]
    exact htable

theorem compile_render {t : Table} (h : t.WellFormed) (d : Dialect) :
    compileDiagram (t.render d) d.name = .ok t := by
  rw [compileDiagram_name, compile_eq_ok, h.lines_render d]
  refine ⟨h.allFit d, ?_⟩
  rw [h.arrows_render d]
  exact h.describes

theorem renderAs_name (t : Table) (d : Dialect) : t.renderAs d.name = .ok (t.render d) := by
  cases d <;> rfl

/-- A table comes back from its text in a dialect exactly when it is well formed. A table that
was compiled is well formed, so it comes back from either dialect, and a diagram that is
written in the other dialect and back keeps its table. -/
theorem a_table_comes_back_exactly_when_well_formed (t : Table) :
    (∀ d : Dialect, ∃ text, t.renderAs d.name = .ok text ∧
      (compileDiagram text d.name = .ok t ↔ t.WellFormed)) ∧
    (∀ text name, compileDiagram text name = .ok t →
      t.WellFormed ∧ ∀ d : Dialect, compileDiagram (t.render d) d.name = .ok t) ∧
    (∀ text, ∀ d d' : Dialect, compileDiagram text d.name = .ok t →
      ∃ t', compileDiagram (t.render d') d'.name = .ok t' ∧
        compileDiagram (t'.render d) d.name = .ok t) := by
  refine ⟨?_, ?_, ?_⟩
  · intro d
    exact ⟨t.render d, renderAs_name t d, compiled_wellFormed, fun h => compile_render h d⟩
  · intro text name h
    have hwf := compiled_wellFormed h
    exact ⟨hwf, compile_render hwf⟩
  · intro text d d' h
    have hwf := compiled_wellFormed h
    exact ⟨t, compile_render hwf d', compile_render hwf d⟩

/-- A diagram of two edges, read in one dialect and written in the other. -/
theorem a_small_diagram_changes_its_dialect :
    let t : Table := ⟨"a", [⟨"a", "end", .terminal⟩], ["go"]⟩
    compileDiagram "[*]-->a:go\na-->[*]:end" "plantuml" = .ok t ∧ t.WellFormed ∧
      compileDiagram (t.render .mermaid) "mermaid" = .ok t := by
  intro t
  have h : compileDiagram "[*]-->a:go\na-->[*]:end" "plantuml" = .ok t := by
    decide +kernel
  have hlaw := (a_table_comes_back_exactly_when_well_formed t).2.1 _ _ h
  exact ⟨h, hlaw.1, hlaw.2 .mermaid⟩

end Turnstile

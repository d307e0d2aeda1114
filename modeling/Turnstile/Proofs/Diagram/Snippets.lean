-- What a refused diagram quotes. The number of a line and a snippet that come together belong to
-- one line of the text. The snippet is that line without the blanks around it, but for an edge that
-- enters the diagram only to leave it: such an edge is written anew from its tokens.
import Turnstile.Proofs.Diagram.Located

namespace Turnstile

/-- The arrow that enters a diagram only to leave it. -/
def Arrow.passage (event : String) : Arrow := ⟨.pseudo, event, .pseudo⟩

/-- How an arrow is written anew: its tokens in PlantUML's order, one blank apart. -/
def Arrow.rewritten (a : Arrow) : List Char := [' '].intercalate (a.tokens .plantuml)

variable {d : Dialect} {raw : List Char} {lines : List (List Char)} {first : Bool} {line : Nat}
  {event : String} {fault : DiagramFault}

/-! ## Faults and edges come from lines -/

/-- Lines that cannot be read as edges are refused for one of them. -/
theorem edgesFrom_error (h : d.edgesFrom first line lines = .error fault) :
    ∃ k raw, lines[k]? = some raw ∧ Edge.read d (line + k) raw = .error fault := by
  induction lines generalizing first line with
  | nil => cases h
  | cons raw rest ih =>
    have hbelow : ∀ {first'}, d.edgesFrom first' (line + 1) rest = .error fault →
        ∃ k raw', (raw :: rest)[k]? = some raw' ∧ Edge.read d (line + k) raw' = .error fault := by
      intro first' hrest
      obtain ⟨k, raw', hraw, hread⟩ := ih hrest
      refine ⟨k + 1, raw', hraw, ?_⟩
      rwa [Nat.add_assoc, Nat.add_comm 1 k] at hread
    unfold Dialect.edgesFrom at h
    split at h
    · exact hbelow h
    split at h
    · exact hbelow h
    split at h
    · rename_i hread
      cases h
      exact ⟨0, raw, rfl, hread⟩
    · split at h
      · rename_i hrest
        cases h
        exact hbelow hrest
      · cases h

/-- An edge of some lines is shown by the line whose number it bears. -/
theorem mem_numbered {e : Edge} (h : e ∈ d.numbered line lines) :
    ∃ k raw, lines[k]? = some raw ∧ e.line = line + k ∧ IsEdgeLine d raw e.arrow := by
  induction lines generalizing line with
  | nil => cases h
  | cons raw rest ih =>
    rcases List.mem_append.1 h with hhere | hbelow
    · obtain ⟨a, ha, rfl⟩ := Option.map_eq_some_iff.1 (Option.mem_toList.1 hhere)
      exact ⟨0, raw, rfl, rfl, Dialect.arrow?_eq_some.1 ha⟩
    · obtain ⟨k, raw', hraw, hline, hshows⟩ := ih hbelow
      exact ⟨k + 1, raw', hraw, by omega, hshows⟩

/-! ## What is quoted -/

/-- A fault quotes a line of some lines by its number: as it stands if it shows no passage, and else
as the passage is written anew. -/
structure Quotes (d : Dialect) (lines : List (List Char)) (line : Nat) (snippet : String)
    (raw : List Char) : Prop where
  inside : 1 ≤ line ∧ line ≤ lines.length
  here : lines[line - 1]? = some raw
  trimmed : (∀ event, ¬IsEdgeLine d raw (.passage event)) → snippet = String.ofList (Text.trim raw)
  rewritten : ∀ event, IsEdgeLine d raw (.passage event) →
    snippet = String.ofList (Arrow.passage event).rewritten

theorem inside_of_here {i : Nat} (h : lines[i]? = some raw) : 1 ≤ 1 + i ∧ 1 + i ≤ lines.length := by
  obtain ⟨hlt, -⟩ := List.getElem?_eq_some_iff.1 h
  omega

theorem ofList_rewritten (event : String) :
    String.ofList (Arrow.passage event).rewritten = s!"[*] --> [*] : {event}" := by
  apply String.toList_injective
  simp [Arrow.rewritten, Arrow.passage, Arrow.tokens, Node.token, List.intercalate, toString]

/-- A line that cannot be read is quoted as it stands. -/
theorem quotes_misread {i : Nat} {column : Option Nat} {snippet : String}
    (hraw : lines[i]? = some raw) (hread : Edge.read d (1 + i) raw = .error fault)
    (hkind : fault.report.kind = .diagram (some line) column (some snippet)) :
    Quotes d lines line snippet raw := by
  have hnone : ∀ a, ¬IsEdgeLine d raw a := by
    intro a ha
    rw [Edge.read_eq_ok.2 ⟨a, ha, rfl⟩] at hread
    cases hread
  obtain ⟨left, rest, -, hmalformed⟩ := Edge.read_eq_error (1 + i) hnone
  rw [hread] at hmalformed
  cases hmalformed
  cases hkind
  refine ⟨inside_of_here hraw, ?_, fun _ => rfl, fun event h => absurd h (hnone _)⟩
  rwa [Nat.add_sub_cancel_left]

/-- An edge that enters the diagram only to leave it is quoted as it is written anew. -/
theorem quotes_passage {e : Edge} {i : Nat} (hraw : lines[i]? = some raw) (hline : e.line = 1 + i)
    (hshows : IsEdgeLine d raw e.arrow) (hpasses : e.PassesThrough) :
    Quotes d lines e.line s!"[*] --> [*] : {e.event}" raw := by
  have harrow : e.arrow = .passage e.event := by
    rw [Edge.arrow, hpasses.1, hpasses.2]
    rfl
  rw [harrow] at hshows
  refine ⟨hline ▸ inside_of_here hraw, ?_, fun h => absurd hshows (h _), fun event h => ?_⟩
  · rwa [hline, Nat.add_sub_cancel_left]
  · obtain rfl : event = e.event := congrArg Arrow.event (h.unique hshows)
    exact (ofList_rewritten e.event).symm

/-! ## Lines between bars -/

theorem mem_trim {c : Char} (hc : Text.isBlank c = false) : c ∈ Text.trim raw ↔ c ∈ raw := by
  obtain ⟨gap, gap', hgap, hgap', hraw⟩ := exists_gaps_trim raw
  have hout : ∀ {blanks}, AllBlank blanks → c ∉ blanks := by
    intro blanks hblank hmem
    rw [hblank c hmem] at hc
    cases hc
  conv => rhs; rw [hraw]
  simp [hout hgap, hout hgap']

/-- What stands in a token of an edge line stands in the line. -/
theorem IsEdgeLine.mem_of_token {a : Arrow} {token : List Char} {c : Char} (h : IsEdgeLine d raw a)
    (htoken : token ∈ a.tokens d) (hc : c ∈ token) : c ∈ raw := by
  obtain ⟨cut, hcut⟩ := h
  rw [← hcut.tokens] at htoken
  obtain ⟨piece, hpiece, rfl⟩ := List.mem_map.1 htoken
  rw [← hcut.line, Cut.line]
  exact List.mem_append_left _ (List.mem_flatMap.2 ⟨piece, hpiece, List.mem_append_right _ hc⟩)

theorem isNameChar_of_mem {name : List Char} {c : Char} (h : isName name = true) (hc : c ∈ name) :
    isNameChar c = true := by
  cases name with
  | nil => cases h
  | cons first rest =>
    simp only [isName, Bool.and_eq_true, List.all_eq_true] at h
    rcases List.mem_cons.1 hc with rfl | hrest
    · exact isNameChar_of_isNameStart h.1
    · exact h.2 c hrest

/-- No bar stands in a passage that is written anew. -/
theorem bar_not_mem_rewritten (hnamed : (Arrow.passage event).IsNamed) :
    '|' ∉ (Arrow.passage event).rewritten := by
  have hevent : '|' ∉ event.toList := by
    intro hmem
    exact absurd (isNameChar_of_mem hnamed.event hmem) (by decide)
  simpa [Arrow.rewritten, Arrow.passage, Arrow.tokens, Node.token, List.intercalate] using hevent

/-- A passage that is written with bars is not what it is quoted as. -/
theorem rewritten_ne_trim (h : IsEdgeLine .mermaid raw (.passage event)) :
    String.ofList (Arrow.passage event).rewritten ≠ String.ofList (Text.trim raw) := by
  intro heq
  have htoken : ['|'] ∈ (Arrow.passage event).tokens .mermaid := by simp [Arrow.tokens]
  have hbar : '|' ∈ Text.trim raw := (mem_trim (by decide)).2 (h.mem_of_token htoken (by simp))
  obtain ⟨cut, hcut⟩ := h
  exact bar_not_mem_rewritten hcut.named (String.ofList_injective heq ▸ hbar)

/-! ## The law -/

/-- Whatever the dialect, the text and the rule that it breaks: a line and a snippet that come
together belong to one line of the text. The snippet is that line without the blanks around it,
unless the line shows a passage; then it is the passage in PlantUML's writing, which is never the
line of a Mermaid diagram. -/
theorem a_fault_quotes_its_line_or_its_passage (text dialect : String) (fault : DiagramFault)
    (line : Nat) (column : Option Nat) (snippet : String)
    (h : compileDiagram text dialect = .error fault)
    (hkind : fault.report.kind = .diagram (some line) column (some snippet)) :
    ∃ d raw, Dialect.ofName? dialect = some d ∧
      Quotes d (Text.lines text.toList) line snippet raw ∧
      (d = .mermaid → ∀ event, IsEdgeLine d raw (.passage event) →
        snippet ≠ String.ofList (Text.trim raw)) := by
  have hquoted : ∃ d raw, Dialect.ofName? dialect = some d ∧
      Quotes d (Text.lines text.toList) line snippet raw := by
    unfold compileDiagram at h
    split at h
    · cases h
      cases hkind
    rename_i d hd
    refine ⟨d, ?_⟩
    unfold Dialect.compile at h
    split at h
    · rename_i hedges
      cases h
      obtain ⟨i, raw, hraw, hread⟩ := edgesFrom_error hedges
      exact ⟨raw, hd, quotes_misread hraw hread hkind⟩
    · rename_i edges hedges
      obtain ⟨-, rfl⟩ := Dialect.edges_eq_ok.1 hedges
      cases ofEdges_eq_error.1 h with
      | @passing e before after hsplit hpasses =>
        cases hkind
        obtain ⟨i, raw, hraw, hline, hshows⟩ := mem_numbered (hsplit ▸ List.mem_append_cons_self)
        exact ⟨raw, hd, quotes_passage hraw hline hshows hpasses⟩
      | noEdges => cases hkind
      | noEntry => cases hkind
      | severalEntries => cases hkind
  obtain ⟨d, raw, hd, hquotes⟩ := hquoted
  refine ⟨d, raw, hd, hquotes, ?_⟩
  rintro rfl event hevent
  rw [hquotes.rewritten event hevent]
  exact rewritten_ne_trim hevent

/-- A line with a short arrow is quoted without the blanks around it. -/
theorem a_short_arrow_is_quoted_as_it_stands :
    let text := "[*] --> a : go\n\t x -> y : b "
    ∃ fault d raw, compileDiagram text "plantuml" = .error fault ∧
      fault.report.kind = .diagram (some 2) (some 5) (some "x -> y : b") ∧
      Dialect.ofName? "plantuml" = some d ∧
      Quotes d (Text.lines text.toList) 2 "x -> y : b" raw := by
  intro text
  have hrefused : compileDiagram text "plantuml" = .error (.malformedLine "plantuml" 2 5
      "x -> y : b" "'-->' after the source state") := by decide +kernel
  obtain ⟨d, raw, hd, hquotes, -⟩ :=
    a_fault_quotes_its_line_or_its_passage text "plantuml" _ 2 (some 5) _ hrefused rfl
  exact ⟨_, d, raw, hrefused, rfl, hd, hquotes⟩

/-- The snippet of a passage between bars is no line of its diagram. -/
theorem a_passage_between_bars_is_misquoted :
    let text := "stateDiagram-v2\n[*] --> |go| [*]"
    ∃ fault, compileDiagram text "mermaid" = .error fault ∧
      fault.report.kind = .diagram (some 2) none (some "[*] --> [*] : go") ∧
      (Text.lines text.toList)[1]? = some "[*] --> |go| [*]".toList ∧
      String.ofList (Text.trim "[*] --> |go| [*]".toList) = "[*] --> |go| [*]" ∧
      ∀ raw ∈ Text.lines text.toList, String.ofList (Text.trim raw) ≠ "[*] --> [*] : go" :=
  ⟨.entryToExit 2 "go", by decide +kernel, rfl, by decide, by decide, by decide⟩

end Turnstile

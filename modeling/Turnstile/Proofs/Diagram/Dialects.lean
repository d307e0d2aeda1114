-- The dialects agree: the same edges on the same lines give the same table in either of them, or
-- the same fault at the same place, however the lines are spaced.
import Turnstile.Proofs.Diagram.Meaning

namespace Turnstile

/-! ## Edges without a dialect -/

/-- The edges of some arrows that stand on one line each, of which the first has the given number. -/
def onLines (line : Nat) : List Arrow → List Edge
  | [] => []
  | a :: rest => a.onLine line :: onLines (line + 1) rest

variable {d : Dialect} {lines : List (List Char)} {arrows : List Arrow}

theorem numbered_onLines (h : List.Forall₂ (IsEdgeLine d) lines arrows) (line : Nat) :
    d.numbered line lines = onLines line arrows := by
  induction h generalizing line with
  | nil => rfl
  | cons hraw _ ih =>
    rw [Dialect.numbered, Dialect.arrow?_eq_some.2 hraw, ih]
    rfl

theorem allFit_edgeLines (h : List.Forall₂ (IsEdgeLine d) lines arrows)
    (before : List (List Char)) : d.AllFit before lines := by
  induction h generalizing before with
  | nil => exact trivial
  | cons hraw _ ih => exact ⟨.edge _ hraw, ih _⟩

/-- A text of edge lines is read as its edges. -/
theorem compile_edgeLines {text : String}
    (h : List.Forall₂ (IsEdgeLine d) (Text.lines text.toList) arrows) :
    compileDiagram text d.name = Table.ofEdges d.name (onLines 1 arrows) := by
  have hedges : d.edges text = .ok (onLines 1 arrows) :=
    Dialect.edges_eq_ok.2 ⟨allFit_edgeLines h [], (numbered_onLines h 1).symm⟩
  rw [compileDiagram_name, Dialect.compile, hedges]

/-- A line shows the arrow that is read from it. -/
theorem isEdgeLine_of_read (line : Nat) {raw : List Char} {a : Arrow}
    (h : Edge.read d line raw = .ok (a.onLine line)) : IsEdgeLine d raw a := by
  obtain ⟨b, hb, heq⟩ := Edge.read_eq_ok.1 h
  have hab : a = b := congrArg Edge.arrow heq
  rwa [hab]

/-! ## Faults -/

namespace DiagramFault

/-- Two faults say the same of the same place; only the name of the dialect among their facts may
differ. -/
structure Alike (f f' : DiagramFault) : Prop where
  /-- The line, the column and the snippet. -/
  kind : f.report.kind = f'.report.kind
  what : f.report.what = f'.report.what
  why : f.report.why = f'.report.why
  fix : f.report.fix = f'.report.fix

end DiagramFault

/-- What comes of some edges does not go by the name of the dialect. -/
theorem ofEdges_agree (n n' : String) (es : List Edge) :
    (∃ t, Table.ofEdges n es = .ok t ∧ Table.ofEdges n' es = .ok t) ∨
      ∃ f f', Table.ofEdges n es = .error f ∧ Table.ofEdges n' es = .error f' ∧ f.Alike f' := by
  unfold Table.ofEdges
  split
  · exact .inr ⟨_, _, rfl, rfl, rfl, rfl, rfl, rfl⟩
  · split
    · exact .inr ⟨_, _, rfl, rfl, rfl, rfl, rfl, rfl⟩
    · split
      · exact .inr ⟨_, _, rfl, rfl, rfl, rfl, rfl, rfl⟩
      · exact .inl ⟨_, rfl, rfl⟩
      · exact .inr ⟨_, _, rfl, rfl, rfl, rfl, rfl, rfl⟩

/-! ## The law -/

/-- Texts that show the same arrows on the same lines, each in its dialect and with its own spacing,
have the same table, or are refused with the same words at the same line. -/
theorem the_dialects_agree (d d' : Dialect) (text text' : String) (arrows : List Arrow)
    (h : List.Forall₂ (IsEdgeLine d) (Text.lines text.toList) arrows)
    (h' : List.Forall₂ (IsEdgeLine d') (Text.lines text'.toList) arrows) :
    (∃ t, compileDiagram text d.name = .ok t ∧ compileDiagram text' d'.name = .ok t) ∨
      ∃ f f', compileDiagram text d.name = .error f ∧ compileDiagram text' d'.name = .error f' ∧
        f.Alike f' := by
  rw [compile_edgeLines h, compile_edgeLines h']
  exact ofEdges_agree d.name d'.name (onLines 1 arrows)

/-- Two texts of the same two edges, which enter the diagram at two states. -/
theorem two_entries_are_refused_alike :
    let text := "[*]-->a:go\n[*]  -->\tb : on"
    let text' := " [*] --> |go| a\n[*]-->|on|b\n"
    let arrows : List Arrow := [⟨.pseudo, "go", .state "a"⟩, ⟨.pseudo, "on", .state "b"⟩]
    List.Forall₂ (IsEdgeLine .plantuml) (Text.lines text.toList) arrows ∧
    List.Forall₂ (IsEdgeLine .mermaid) (Text.lines text'.toList) arrows ∧
      ∃ f f', compileDiagram text "plantuml" = .error f ∧
        compileDiagram text' "mermaid" = .error f' ∧ f.Alike f' ∧
        f.report.what = "Diagram has 2 initial states: a, b" ∧
        f.report.kind = .diagram (some 2) none none := by
  intro text text' arrows
  have hread : List.Forall₂ (IsEdgeLine .plantuml) (Text.lines text.toList) arrows := by
    have hlines : Text.lines text.toList = ["[*]-->a:go".toList, "[*]  -->\tb : on".toList] := by
      decide
    rw [hlines]
    exact .cons (isEdgeLine_of_read 1 (by decide +kernel))
      (.cons (isEdgeLine_of_read 2 (by decide +kernel)) .nil)
  have hread' : List.Forall₂ (IsEdgeLine .mermaid) (Text.lines text'.toList) arrows := by
    have hlines : Text.lines text'.toList = [" [*] --> |go| a".toList, "[*]-->|on|b".toList] := by
      decide
    rw [hlines]
    exact .cons (isEdgeLine_of_read 1 (by decide +kernel))
      (.cons (isEdgeLine_of_read 2 (by decide +kernel)) .nil)
  have hrefused : compileDiagram text "plantuml" =
      .error (.severalInitialStates "plantuml" ["a", "b"] (some 2)) := by decide +kernel
  refine ⟨hread, hread', ?_⟩
  rcases the_dialects_agree .plantuml .mermaid text text' arrows hread hread' with
    ⟨t, ht, -⟩ | ⟨f, f', hf, hf', halike⟩
  · cases hrefused.symm.trans ht
  · obtain rfl := Except.error.inj (hf.symm.trans hrefused)
    exact ⟨_, f', hf, hf', halike, by decide +kernel, rfl⟩

end Turnstile

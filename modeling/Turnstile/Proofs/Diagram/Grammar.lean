-- The grammar of edge lines: an edge line is written with the tokens of an arrow in the order
-- of its dialect and with any blanks around them. A line is read exactly when it is an edge
-- line, and it can be cut into tokens in one way only.
import Turnstile.Diagram.Edge
import Mathlib.Data.List.Chain
import Mathlib.Data.List.TakeWhile

namespace Turnstile

/-! ## Arrows and their tokens -/

/-- An edge without the number of its line. -/
structure Arrow where
  source : Node
  event : String
  target : Node
  deriving DecidableEq, Repr

def Edge.arrow (e : Edge) : Arrow := ⟨e.source, e.event, e.target⟩

def Arrow.onLine (a : Arrow) (line : Nat) : Edge := ⟨a.source, a.event, a.target, line⟩

/-- How a node is written. -/
def Node.token : Node → List Char
  | .pseudo => ['[', '*', ']']
  | .state s => s.toList

/-- A node that can be written. -/
def Node.IsNamed : Node → Prop
  | .pseudo => True
  | .state s => isName s.toList = true

/-- An arrow that can be written. -/
structure Arrow.IsNamed (a : Arrow) : Prop where
  source : a.source.IsNamed
  event : isName a.event.toList = true
  target : a.target.IsNamed

/-- The tokens of an arrow in the order of a dialect. -/
def Arrow.tokens (a : Arrow) : Dialect → List (List Char)
  | .plantuml => [a.source.token, ['-', '-', '>'], a.target.token, [':'], a.event.toList]
  | .mermaid =>
    [a.source.token, ['-', '-', '>'], ['|'], a.event.toList, ['|'], a.target.token]

/-! ## Lines that are cut into tokens -/

/-- A text of blanks only. -/
def AllBlank (cs : List Char) : Prop := ∀ c ∈ cs, Text.isBlank c = true

/-- A line in pieces: the tokens, each with the gap before it, and the gap at the end. -/
structure Cut where
  pieces : List (List Char × List Char)
  last : List Char

/-- The line that the pieces make up. -/
def Cut.line (c : Cut) : List Char := c.pieces.flatMap (fun p => p.1 ++ p.2) ++ c.last

/-- A cut of a line whose tokens are those of an arrow and whose gaps are blank. -/
structure CutsInto (d : Dialect) (raw : List Char) (a : Arrow) (c : Cut) : Prop where
  named : a.IsNamed
  tokens : c.pieces.map (·.2) = a.tokens d
  blank : ∀ p ∈ c.pieces, AllBlank p.1
  last : AllBlank c.last
  line : c.line = raw

/-- A line that shows an arrow. -/
def IsEdgeLine (d : Dialect) (raw : List Char) (a : Arrow) : Prop := ∃ c, CutsInto d raw a c

/-! ## Characters -/

theorem isNameChar_bounds {c : Char} (h : isNameChar c = true) :
    46 ≤ c.toNat ∧ c.toNat ≤ 122 := by
  have halpha : c.isAlpha = (decide (65 ≤ c.val ∧ c.val ≤ 90) ||
      decide (97 ≤ c.val) && decide (c.val ≤ 122)) := rfl
  have hdigit : c.isDigit = (decide (48 ≤ c.val) && decide (c.val ≤ 57)) := rfl
  unfold isNameChar at h
  rw [halpha, hdigit] at h
  simp only [Bool.or_eq_true, beq_iff_eq, Bool.and_eq_true, decide_eq_true_eq,
    UInt32.le_iff_toNat_le] at h
  rcases h with (((h | h) | h) | rfl) | rfl
  · exact ⟨Nat.le_trans (by decide) h.1, Nat.le_trans h.2 (by decide)⟩
  · exact ⟨Nat.le_trans (by decide) h.1, Nat.le_trans h.2 (by decide)⟩
  · exact ⟨Nat.le_trans (by decide) h.1, Nat.le_trans h.2 (by decide)⟩
  · decide
  · decide

theorem isBlank_of_isNameChar {c : Char} (h : isNameChar c = true) :
    Text.isBlank c = false := by
  have hb := isNameChar_bounds h
  simp only [Text.isBlank, Bool.or_eq_false_iff, Bool.and_eq_false_iff,
    decide_eq_false_iff_not, beq_eq_false_iff_ne]
  omega

theorem isNameChar_of_isBlank {c : Char} (h : Text.isBlank c = true) : isNameChar c = false := by
  by_contra hc
  rw [isBlank_of_isNameChar (by simpa using hc)] at h
  cases h

theorem isNameChar_of_isNameStart {c : Char} (h : isNameStart c = true) :
    isNameChar c = true := by
  simp only [isNameStart, Bool.or_eq_true] at h
  simp only [isNameChar, Bool.or_eq_true]
  rcases h with h | h
  · exact .inl (.inl (.inl h))
  · exact .inl (.inr h)

/-- A text that no name in front of it goes on into. -/
def StopsName (cs : List Char) : Prop := ∀ c ∈ cs.head?, isNameChar c = false

/-- A text that does not begin with a blank, and is not empty. -/
def StartsTight (cs : List Char) : Prop := ∃ c ∈ cs.head?, Text.isBlank c = false

theorem startsTight_of_isName {cs : List Char} (h : isName cs = true) : StartsTight cs := by
  cases cs with
  | nil => cases h
  | cons c rest =>
    simp only [isName, Bool.and_eq_true] at h
    exact ⟨c, rfl, isBlank_of_isNameChar (isNameChar_of_isNameStart h.1)⟩

theorem trimStart_gap {gap cs : List Char} (hgap : AllBlank gap) (hcs : StartsTight cs) :
    Text.trimStart (gap ++ cs) = cs := by
  obtain ⟨c, hc, hb⟩ := hcs
  unfold Text.trimStart
  rw [List.dropWhile_append_of_pos hgap]
  cases cs with
  | nil => cases hc
  | cons x xs =>
    cases hc
    exact List.dropWhile_cons_of_neg (by simp [hb])

theorem trimStart_eq_nil {gap : List Char} (hgap : AllBlank gap) : Text.trimStart gap = [] :=
  List.dropWhile_eq_nil_iff.2 hgap

/-- What is trimmed off is blank. -/
theorem exists_gap_trimStart (cs : List Char) :
    ∃ gap, AllBlank gap ∧ cs = gap ++ Text.trimStart cs :=
  ⟨cs.takeWhile Text.isBlank, fun _ hc => List.mem_takeWhile_imp hc,
    (List.takeWhile_append_dropWhile).symm⟩

/-! ## Tokens in front of a text -/

theorem splitMark?_eq_some {mark cs rest : List Char} :
    splitMark? mark cs = some rest ↔ cs = mark ++ rest := by
  induction mark generalizing cs with
  | nil => simp [splitMark?]
  | cons m ms ih =>
    cases cs with
    | nil => simp [splitMark?]
    | cons c cs =>
      simp only [splitMark?]
      by_cases h : m = c
      · simp [h, ih]
      · simp [h, Ne.symm h]

/-- The longest name is split off, so no name goes on into the rest. -/
theorem splitName?_eq_some {cs name rest : List Char} :
    splitName? cs = some (name, rest) ↔
      cs = name ++ rest ∧ isName name = true ∧ StopsName rest := by
  constructor
  · intro h
    cases cs with
    | nil => cases h
    | cons c cs =>
      simp only [splitName?] at h
      split at h
      · rename_i hc
        cases h
        refine ⟨?_, ?_, ?_⟩
        · rw [List.cons_append, List.takeWhile_append_dropWhile]
        · simp only [isName, Bool.and_eq_true]
          exact ⟨hc, List.all_takeWhile⟩
        · intro x hx
          have := List.head?_dropWhile_not isNameChar cs
          rw [hx] at this
          exact this
      · cases h
  · rintro ⟨rfl, hname, hstop⟩
    cases name with
    | nil => cases hname
    | cons c name =>
      simp only [isName, Bool.and_eq_true, List.all_eq_true] at hname
      simp only [List.cons_append, splitName?, if_pos hname.1]
      rw [List.takeWhile_append_of_pos hname.2, List.dropWhile_append_of_pos hname.2]
      cases rest with
      | nil => simp
      | cons x rest =>
        have hx : isNameChar x = false := hstop x rfl
        simp [hx]

theorem startsTight_token {n : Node} (h : n.IsNamed) : StartsTight n.token := by
  cases n with
  | pseudo => exact ⟨'[', rfl, by decide⟩
  | state s => exact startsTight_of_isName h

theorem splitNode?_sound {cs rest : List Char} {node : Node} {n : Nat}
    (h : splitNode? cs = some (node, n, rest)) :
    cs = node.token ++ rest ∧ node.IsNamed ∧ n = node.token.length := by
  unfold splitNode? at h
  split at h
  · rename_i rest' hmark
    cases h
    exact ⟨splitMark?_eq_some.1 hmark, trivial, rfl⟩
  · simp only [Option.map_eq_some_iff] at h
    obtain ⟨⟨name, rest'⟩, hname, he⟩ := h
    cases he
    obtain ⟨hcs, hn, -⟩ := splitName?_eq_some.1 hname
    simp only [Node.token, Node.IsNamed, String.toList_ofList]
    exact ⟨hcs, hn, trivial⟩

theorem splitNode?_complete {node : Node} {rest : List Char} (hn : node.IsNamed)
    (hstop : StopsName rest) :
    splitNode? (node.token ++ rest) = some (node, node.token.length, rest) := by
  unfold splitNode?
  cases node with
  | pseudo =>
    rw [show Node.pseudo.token = ['[', '*', ']'] from rfl, splitMark?_eq_some.2 rfl]
    rfl
  | state s =>
    -- A name does not begin with a bracket, so it is not taken for the pseudo-state.
    have hmark : splitMark? ['[', '*', ']'] (s.toList ++ rest) = none := by
      rw [Option.eq_none_iff_forall_ne_some]
      intro r hr
      have hcs := splitMark?_eq_some.1 hr
      cases hs : s.toList with
      | nil => rw [Node.IsNamed, hs] at hn; cases hn
      | cons c cs =>
        rw [hs] at hcs
        simp only [List.cons_append, List.cons.injEq] at hcs
        rw [Node.IsNamed, hs, hcs.1] at hn
        cases hn
    have hname : splitName? (s.toList ++ rest) = some (s.toList, rest) :=
      splitName?_eq_some.2 ⟨rfl, hn, hstop⟩
    simp [Node.token, hmark, hname]

/-! ## Parts of a layout -/

namespace Part

/-- How a part of an arrow is written. -/
def token (a : Arrow) : Part → List Char
  | .source => a.source.token
  | .event => a.event.toList
  | .target => a.target.token
  | .mark text => text

/-- What a part of an arrow must be like to be written. -/
def IsNamed (a : Arrow) : Part → Prop
  | .source => a.source.IsNamed
  | .event => isName a.event.toList = true
  | .target => a.target.IsNamed
  | .mark text => StartsTight text

/-- Puts a part of an arrow into an edge. -/
def put (a : Arrow) (e : Edge) : Part → Edge
  | .source => { e with source := a.source }
  | .event => { e with event := a.event }
  | .target => { e with target := a.target }
  | .mark _ => e

/-- Whether a part is a mark. -/
def isMark : Part → Bool
  | .mark _ => true
  | _ => false

theorem read?_sound {part : Part} {e e' : Edge} {cs rest : List Char} {n : Nat}
    (hmark : ∀ text, part = .mark text → StartsTight text)
    (h : part.read? e cs = some (e', n, rest)) :
    ∃ a, part.IsNamed a ∧ e' = part.put a e ∧ n = (part.token a).length ∧
      cs = part.token a ++ rest := by
  cases part with
  | source =>
    simp only [read?, Option.map_eq_some_iff] at h
    obtain ⟨⟨node, m, r⟩, hnode, he⟩ := h
    cases he
    obtain ⟨hcs, hn, hlen⟩ := splitNode?_sound hnode
    exact ⟨⟨node, e.event, e.target⟩, hn, rfl, hlen, hcs⟩
  | target =>
    simp only [read?, Option.map_eq_some_iff] at h
    obtain ⟨⟨node, m, r⟩, hnode, he⟩ := h
    cases he
    obtain ⟨hcs, hn, hlen⟩ := splitNode?_sound hnode
    exact ⟨⟨e.source, e.event, node⟩, hn, rfl, hlen, hcs⟩
  | event =>
    simp only [read?, Option.map_eq_some_iff] at h
    obtain ⟨⟨name, r⟩, hname, he⟩ := h
    cases he
    obtain ⟨hcs, hn, -⟩ := splitName?_eq_some.1 hname
    refine ⟨⟨e.source, String.ofList name, e.target⟩, ?_, rfl, ?_, ?_⟩
    · simpa [IsNamed] using hn
    · simp [token]
    · simpa [token] using hcs
  | mark text =>
    simp only [read?, Option.map_eq_some_iff] at h
    obtain ⟨r, hr, he⟩ := h
    cases he
    exact ⟨e.arrow, hmark text rfl, rfl, rfl, splitMark?_eq_some.1 hr⟩

theorem read?_complete {part : Part} {a : Arrow} {e : Edge} {rest : List Char}
    (hn : part.IsNamed a) (hstop : part.isMark = true ∨ StopsName rest) :
    part.read? e (part.token a ++ rest) =
      some (part.put a e, (part.token a).length, rest) := by
  cases part with
  | source =>
    have hs : StopsName rest := by simpa [isMark] using hstop
    simp only [read?, token, put, splitNode?_complete hn hs, Option.map_some]
  | target =>
    have hs : StopsName rest := by simpa [isMark] using hstop
    simp only [read?, token, put, splitNode?_complete hn hs, Option.map_some]
  | event =>
    have hs : StopsName rest := by simpa [isMark] using hstop
    have hname : splitName? (a.event.toList ++ rest) = some (a.event.toList, rest) :=
      splitName?_eq_some.2 ⟨rfl, hn, hs⟩
    simp only [read?, token, put, hname, Option.map_some, String.ofList_toList]
  | mark text =>
    have hmark : splitMark? text (text ++ rest) = some rest := splitMark?_eq_some.2 rfl
    simp only [read?, token, put, hmark, Option.map_some]

theorem startsTight_token {part : Part} {a : Arrow} (hn : part.IsNamed a) :
    StartsTight (part.token a) := by
  cases part with
  | source => exact Turnstile.startsTight_token hn
  | target => exact Turnstile.startsTight_token hn
  | event => exact startsTight_of_isName hn
  | mark text => exact hn

end Part

/-! ## Layouts -/

/-- Parts that can be read one by one: a mark begins with what is no blank, a part that is no
mark has a mark that stops names behind it, and no part but a mark comes twice. -/
structure WellSpaced (parts : List Part) : Prop where
  tight : ∀ text, .mark text ∈ parts → StartsTight text
  apart : parts.IsChain fun p q => p.isMark = true ∨ ∃ text, q = .mark text ∧ StopsName text
  once : parts.Pairwise fun p q => p = q → p.isMark = true

theorem WellSpaced.tail {p : Part} {parts : List Part} (h : WellSpaced (p :: parts)) :
    WellSpaced parts where
  tight text ht := h.tight text (List.mem_cons_of_mem _ ht)
  apart := h.apart.tail
  once := (List.pairwise_cons.1 h.once).2

theorem stopsName_of_ne {c : Char} {rest : List Char} (h : isNameChar c = false) :
    StopsName (c :: rest) := by
  intro x hx
  cases hx
  exact h

theorem startsTight_cons {c : Char} {rest : List Char} (h : Text.isBlank c = false) :
    StartsTight (c :: rest) := ⟨c, rfl, h⟩

theorem wellSpaced_layout (d : Dialect) : WellSpaced (d.layout.map (·.1)) := by
  have harrow : StartsTight ['-', '-', '>'] := startsTight_cons (by decide)
  have hcolon : StartsTight [':'] := startsTight_cons (by decide)
  have hpipe : StartsTight ['|'] := startsTight_cons (by decide)
  have harrow' : StopsName ['-', '-', '>'] := stopsName_of_ne (by decide)
  have hcolon' : StopsName [':'] := stopsName_of_ne (by decide)
  have hpipe' : StopsName ['|'] := stopsName_of_ne (by decide)
  cases d with
  | plantuml =>
    refine ⟨?_, ?_, ?_⟩
    · simp [Dialect.layout, harrow, hcolon]
    · simp [Dialect.layout, Part.isMark, harrow', hcolon']
    · simp [Dialect.layout, Part.isMark]
  | mermaid =>
    refine ⟨?_, ?_, ?_⟩
    · simp [Dialect.layout, harrow, hpipe]
    · simp [Dialect.layout, Part.isMark, harrow', hpipe']
    · simp [Dialect.layout, Part.isMark]

theorem tokens_eq_layout (a : Arrow) (d : Dialect) :
    a.tokens d = d.layout.map fun p => p.1.token a := by
  cases d <;> rfl

/-! ## Reading a line -/

theorem Cut.line_cons (gap token : List Char) (pieces : List (List Char × List Char))
    (last : List Char) :
    (Cut.mk ((gap, token) :: pieces) last).line =
      gap ++ (token ++ (Cut.mk pieces last).line) := by
  simp [Cut.line]

theorem stopsName_gap {gap rest : List Char} (hgap : AllBlank gap) (hrest : StopsName rest) :
    StopsName (gap ++ rest) := by
  cases gap with
  | nil => exact hrest
  | cons x xs => exact stopsName_of_ne (isNameChar_of_isBlank (hgap x (by simp)))

/-- What follows a name begins with a gap, with a mark, or not at all. -/
theorem stopsName_line {c : Cut} (hblank : ∀ p ∈ c.pieces, AllBlank p.1)
    (hlast : AllBlank c.last)
    (hhead : ∀ p ∈ c.pieces.head?, StartsTight p.2 ∧ StopsName p.2) : StopsName c.line := by
  obtain ⟨pieces, last⟩ := c
  cases pieces with
  | nil =>
    have hnil : StopsName [] := fun c hc => by cases hc
    simpa [Cut.line] using stopsName_gap hlast hnil
  | cons p pieces =>
    obtain ⟨gap, token⟩ := p
    rw [Cut.line_cons]
    apply stopsName_gap (hblank (gap, token) (by simp))
    obtain ⟨⟨c, hc, -⟩, hs⟩ := hhead _ rfl
    cases token with
    | nil => cases hc
    | cons x xs => exact stopsName_of_ne (hs x rfl)

/-- Behind a part that is no mark no name goes on. -/
theorem stopsName_behind {a : Arrow} {part : Part} {parts : List Part} {c : Cut}
    (hparts : WellSpaced (part :: parts))
    (htokens : c.pieces.map (·.2) = parts.map (Part.token a))
    (hblank : ∀ p ∈ c.pieces, AllBlank p.1) (hlast : AllBlank c.last) :
    part.isMark = true ∨ StopsName c.line := by
  rw [or_iff_not_imp_left]
  intro hmark
  apply stopsName_line hblank hlast
  intro p hp
  cases parts with
  | nil => simp_all
  | cons q parts =>
    obtain ⟨text, rfl, hs⟩ := hparts.apart.rel.resolve_left hmark
    have ht : StartsTight text := hparts.tight text (by simp)
    obtain ⟨pieces, last⟩ := c
    cases pieces with
    | nil => cases hp
    | cons p' pieces =>
      cases hp
      simp only [List.map_cons, List.cons.injEq] at htokens
      rw [htokens.1]
      exact ⟨ht, hs⟩

theorem StartsTight.append {cs : List Char} (h : StartsTight cs) (rest : List Char) :
    StartsTight (cs ++ rest) := by
  obtain ⟨c, hc, hb⟩ := h
  cases cs with
  | nil => cases hc
  | cons x xs => exact ⟨c, hc, hb⟩

/-- A line with the tokens of an arrow is read as that arrow. -/
theorem readParts_complete {a : Arrow} {parts : List (Part × String)} {e : Edge}
    {offset : Nat} {c : Cut} (hparts : WellSpaced (parts.map (·.1)))
    (hnamed : ∀ p ∈ parts, p.1.IsNamed a)
    (htokens : c.pieces.map (·.2) = parts.map fun p => p.1.token a)
    (hblank : ∀ p ∈ c.pieces, AllBlank p.1) (hlast : AllBlank c.last) :
    readParts e offset c.line parts = .ok (parts.foldl (fun e p => p.1.put a e) e) := by
  induction parts generalizing e offset c with
  | nil =>
    obtain ⟨pieces, last⟩ := c
    have hp : pieces = [] := by simpa using htokens
    subst hp
    have ht : Text.trimStart last = [] := trimStart_eq_nil hlast
    simp [readParts, Cut.line, ht]
  | cons head parts ih =>
    obtain ⟨part, expected⟩ := head
    obtain ⟨pieces, last⟩ := c
    cases pieces with
    | nil => simp at htokens
    | cons p pieces =>
      obtain ⟨gap, token⟩ := p
      simp only [List.map_cons, List.cons.injEq] at htokens
      obtain ⟨rfl, htokens⟩ := htokens
      have hn : part.IsNamed a := hnamed (part, expected) (by simp)
      have hb : ∀ p ∈ pieces, AllBlank p.1 := fun p hp => hblank p (by simp [hp])
      have hstop : part.isMark = true ∨ StopsName (Cut.mk pieces last).line :=
        stopsName_behind hparts (by rw [List.map_map]; exact htokens) hb hlast
      have htrim : Text.trimStart (gap ++ (part.token a ++ (Cut.mk pieces last).line)) =
          part.token a ++ (Cut.mk pieces last).line :=
        trimStart_gap (hblank (gap, part.token a) (by simp))
          ((Part.startsTight_token hn).append _)
      have hread : part.read? e (part.token a ++ (Cut.mk pieces last).line) =
          some (part.put a e, (part.token a).length, (Cut.mk pieces last).line) :=
        Part.read?_complete hn hstop
      simp only [readParts, Cut.line_cons, htrim, hread, List.foldl_cons]
      exact ih hparts.tail (fun p hp => hnamed p (by simp [hp])) htokens hb hlast

/-- Whether two arrows have the same for a part. -/
def Part.Same (a b : Arrow) : Part → Prop
  | .source => a.source = b.source
  | .event => a.event = b.event
  | .target => a.target = b.target
  | .mark _ => True

namespace Part

theorem Same.trans {a b c : Arrow} {p : Part} (h : p.Same a b) (h' : p.Same b c) :
    p.Same a c := by
  cases p with
  | mark text => trivial
  | _ => exact Eq.trans h h'

theorem Same.token_eq {a b : Arrow} {p : Part} (h : p.Same a b) : p.token a = p.token b := by
  cases p <;> simp_all [Same, token]

theorem Same.isNamed {a b : Arrow} {p : Part} (h : p.Same a b) (hn : p.IsNamed b) :
    p.IsNamed a := by
  cases p <;> simp_all [Same, IsNamed]

theorem same_put (a : Arrow) (e : Edge) (p : Part) : p.Same (p.put a e).arrow a := by
  cases p <;> simp [Same, put, Edge.arrow]

theorem same_put_of_ne {a : Arrow} {e : Edge} {p q : Part} (h : q ≠ p) :
    q.Same (p.put a e).arrow e.arrow := by
  cases p <;> cases q <;> simp_all [Same, put, Edge.arrow]

theorem put_line (a : Arrow) (e : Edge) (p : Part) : (p.put a e).line = e.line := by
  cases p <;> rfl

end Part

/-- A line that is read has the tokens of the arrow that it is read as. -/
theorem readParts_sound {parts : List (Part × String)} {e e' : Edge} {offset : Nat}
    {cs : List Char} (hparts : WellSpaced (parts.map (·.1)))
    (h : readParts e offset cs parts = .ok e') :
    (∃ c : Cut, c.pieces.map (·.2) = parts.map (fun p => p.1.token e'.arrow) ∧
      (∀ p ∈ c.pieces, AllBlank p.1) ∧ AllBlank c.last ∧ c.line = cs) ∧
    (∀ p ∈ parts, p.1.IsNamed e'.arrow) ∧
    (∀ p, p ∉ parts.map (·.1) → p.Same e'.arrow e.arrow) ∧ e'.line = e.line := by
  induction parts generalizing e offset cs with
  | nil =>
    simp only [readParts] at h
    split at h
    · rename_i hrest
      cases h
      refine ⟨⟨⟨[], cs⟩, rfl, by simp, ?_, by simp [Cut.line]⟩, by simp, ?_, rfl⟩
      · exact List.dropWhile_eq_nil_iff.1 (List.isEmpty_iff.1 hrest)
      · intro p _
        cases p <;> simp [Part.Same]
    · cases h
  | cons head parts ih =>
    obtain ⟨part, expected⟩ := head
    simp only [readParts] at h
    split at h
    · cases h
    · rename_i e₁ n rest hread
      have htight : ∀ text, part = .mark text → StartsTight text := fun text ht =>
        hparts.tight text (by simp [ht])
      obtain ⟨a, hn, rfl, -, hcs⟩ := Part.read?_sound htight hread
      obtain ⟨⟨c, htokens, hblank, hlast, hline⟩, hnamed, hkept, heline⟩ := ih hparts.tail h
      -- The parts to come leave this one alone, unless it is a mark.
      have hsame : part.Same e'.arrow a := by
        by_cases hmem : part ∈ parts.map (·.1)
        · have hmark := (List.pairwise_cons.1 hparts.once).1 part hmem rfl
          cases part with
          | mark text => trivial
          | _ => cases hmark
        · exact (hkept part hmem).trans (Part.same_put a e part)
      obtain ⟨gap, hgap, hcs'⟩ := exists_gap_trimStart cs
      refine ⟨⟨⟨(gap, part.token e'.arrow) :: c.pieces, c.last⟩, ?_, ?_, hlast, ?_⟩, ?_, ?_, ?_⟩
      · simp [htokens]
      · intro p hp
        rcases List.mem_cons.1 hp with rfl | hp
        · exact hgap
        · exact hblank p hp
      · rw [Cut.line_cons, hsame.token_eq, hline, ← hcs, ← hcs']
      · intro p hp
        rcases List.mem_cons.1 hp with rfl | hp
        · exact hsame.isNamed hn
        · exact hnamed p hp
      · intro p hp
        simp only [List.map_cons, List.mem_cons, not_or] at hp
        exact (hkept p hp.2).trans (Part.same_put_of_ne hp.1)
      · rw [heline, Part.put_line]

theorem foldl_put_layout (a : Arrow) (e : Edge) (d : Dialect) :
    d.layout.foldl (fun e p => p.1.put a e) e = a.onLine e.line := by
  cases d <;> rfl

theorem Arrow.IsNamed.parts {a : Arrow} (h : a.IsNamed) (d : Dialect) :
    ∀ p ∈ d.layout, p.1.IsNamed a := by
  intro p hp
  have hmem : p.1 ∈ d.layout.map (·.1) := List.mem_map_of_mem hp
  cases hpart : p.1 with
  | source => exact h.source
  | event => exact h.event
  | target => exact h.target
  | mark text => exact (wellSpaced_layout d).tight text (hpart ▸ hmem)

theorem Arrow.isNamed_of_parts {a : Arrow} {d : Dialect} (h : ∀ p ∈ d.layout, p.1.IsNamed a) :
    a.IsNamed := by
  cases d with
  | plantuml =>
    simp only [Dialect.layout, List.forall_mem_cons] at h
    exact ⟨h.1, h.2.2.2.2.1, h.2.2.1⟩
  | mermaid =>
    simp only [Dialect.layout, List.forall_mem_cons] at h
    exact ⟨h.1, h.2.2.2.1, h.2.2.2.2.2.1⟩

/-- A line is read as an edge exactly when it shows the arrow of the edge. -/
theorem Edge.read_eq_ok {d : Dialect} {line : Nat} {raw : List Char} {e : Edge} :
    Edge.read d line raw = .ok e ↔ ∃ a, IsEdgeLine d raw a ∧ e = a.onLine line := by
  constructor
  · intro h
    unfold Edge.read at h
    split at h
    · rename_i e' hparts
      cases h
      obtain ⟨⟨c, htokens, hblank, hlast, hline⟩, hnamed, -, heline⟩ :=
        readParts_sound (wellSpaced_layout d) hparts
      refine ⟨e.arrow, ⟨c, Arrow.isNamed_of_parts hnamed, ?_, hblank, hlast, hline⟩, ?_⟩
      · rw [tokens_eq_layout, htokens]
      · have hl : e.line = line := heline
        rw [← hl]
        rfl
    · cases h
  · rintro ⟨a, ⟨c, hnamed, htokens, hblank, hlast, hline⟩, rfl⟩
    rw [tokens_eq_layout] at htokens
    have hread : readParts ⟨.pseudo, "", .pseudo, line⟩ 0 c.line d.layout =
        .ok (d.layout.foldl (fun e p => p.1.put a e) ⟨.pseudo, "", .pseudo, line⟩) :=
      readParts_complete (wellSpaced_layout d) (hnamed.parts d) htokens hblank hlast
    rw [hline, foldl_put_layout] at hread
    unfold Edge.read
    rw [hread]

/-! ## One way to cut a line -/

theorem eq_of_gap_eq {gap gap' cs cs' : List Char} (hgap : AllBlank gap) (hgap' : AllBlank gap')
    (hcs : StartsTight cs) (hcs' : StartsTight cs') (h : gap ++ cs = gap' ++ cs') :
    gap = gap' ∧ cs = cs' := by
  have hrest : cs = cs' := by
    rw [← trimStart_gap hgap hcs, h, trimStart_gap hgap' hcs']
  exact ⟨List.append_cancel_right (hrest ▸ h), hrest⟩

/-- The gaps of a line are known from its tokens. -/
theorem Cut.eq_of_tokens {c c' : Cut} (htokens : c.pieces.map (·.2) = c'.pieces.map (·.2))
    (htight : ∀ p ∈ c.pieces, StartsTight p.2)
    (hblank : ∀ p ∈ c.pieces, AllBlank p.1) (hblank' : ∀ p ∈ c'.pieces, AllBlank p.1)
    (hline : c.line = c'.line) : c = c' := by
  obtain ⟨pieces, last⟩ := c
  obtain ⟨pieces', last'⟩ := c'
  dsimp only at htokens htight hblank hblank'
  induction pieces generalizing pieces' with
  | nil =>
    have hp : pieces' = [] := by simpa using htokens.symm
    subst hp
    simpa [Cut.line] using hline
  | cons p pieces ih =>
    cases pieces' with
    | nil => simp at htokens
    | cons p' pieces' =>
      obtain ⟨gap, token⟩ := p
      obtain ⟨gap', token'⟩ := p'
      simp only [List.map_cons, List.cons.injEq] at htokens
      obtain ⟨rfl, htokens⟩ := htokens
      have ht : StartsTight token := htight (gap, token) (by simp)
      rw [Cut.line_cons, Cut.line_cons] at hline
      obtain ⟨rfl, hrest⟩ := eq_of_gap_eq (hblank (gap, token) (by simp))
        (hblank' (gap', token) (by simp)) (ht.append _) (ht.append _) hline
      have hcut := ih (fun p hp => htight p (by simp [hp])) (fun p hp => hblank p (by simp [hp]))
        pieces' (fun p hp => hblank' p (by simp [hp])) htokens (List.append_cancel_left hrest)
      simpa using hcut

theorem startsTight_of_mem_tokens {a : Arrow} (h : a.IsNamed) {d : Dialect} {token : List Char}
    (hmem : token ∈ a.tokens d) : StartsTight token := by
  rw [tokens_eq_layout] at hmem
  obtain ⟨p, hp, rfl⟩ := List.mem_map.1 hmem
  exact Part.startsTight_token (h.parts d p hp)

theorem IsEdgeLine.unique {d : Dialect} {raw : List Char} {a b : Arrow}
    (ha : IsEdgeLine d raw a) (hb : IsEdgeLine d raw b) : a = b := by
  have hra : Edge.read d 0 raw = .ok (a.onLine 0) := Edge.read_eq_ok.2 ⟨a, ha, rfl⟩
  rw [Edge.read_eq_ok.2 ⟨b, hb, rfl⟩] at hra
  simp only [Arrow.onLine, Except.ok.injEq, Edge.mk.injEq] at hra
  obtain ⟨⟩ := a
  obtain ⟨⟩ := b
  simp_all

/-- A line is cut into the tokens of an arrow in one way. -/
theorem CutsInto.unique {d : Dialect} {raw : List Char} {a b : Arrow} {c c' : Cut}
    (h : CutsInto d raw a c) (h' : CutsInto d raw b c') : a = b ∧ c = c' := by
  have hab : a = b := IsEdgeLine.unique ⟨c, h⟩ ⟨c', h'⟩
  subst hab
  refine ⟨rfl, Cut.eq_of_tokens (h.tokens.trans h'.tokens.symm) ?_ h.blank h'.blank
    (h.line.trans h'.line.symm)⟩
  intro p hp
  exact startsTight_of_mem_tokens h.named (h.tokens ▸ List.mem_map_of_mem hp)

end Turnstile

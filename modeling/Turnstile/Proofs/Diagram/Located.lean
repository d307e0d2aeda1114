-- Where a diagram is refused: at the first line that has to be an edge line and is none, behind the
-- tokens that can be read of it; and if every line can be read, for the first fault of its edges.
import Turnstile.Proofs.Diagram.Dialects

namespace Turnstile

/-! ## Tokens in front of a text -/

/-- A token of a part stands in front of a text. A name goes on as long as it can. -/
inductive Part.Takes : Part → List Char → List Char → Prop where
  | mark (text rest : List Char) : Takes (.mark text) (text ++ rest) rest
  | pseudo {part : Part} (hnode : part = .source ∨ part = .target) (rest : List Char) :
    Takes part (Node.pseudo.token ++ rest) rest
  | name {part : Part} {name rest : List Char} (hpart : part.isMark = false)
    (hname : isName name = true) (hstop : StopsName rest) : Takes part (name ++ rest) rest

/-- What stands in front of a text: blanks, then the first tokens of a layout with blanks behind
each of them. The parts `left` are still to come, and `rest` does not begin with a blank. -/
inductive Leading : List (Part × String) → List Char → List (Part × String) → List Char → Prop where
  | stop {parts : List (Part × String)} {gap rest : List Char} (hgap : AllBlank gap)
    (hrest : ∀ c ∈ rest.head?, Text.isBlank c = false) : Leading parts (gap ++ rest) parts rest
  | token {part : Part} {expected : String} {parts left : List (Part × String)}
    {gap cs cs' rest : List Char} (hgap : AllBlank gap) (htakes : part.Takes cs cs')
    (hmore : Leading parts cs' left rest) : Leading ((part, expected) :: parts) (gap ++ cs) left rest

/-- The most tokens of an edge line of a dialect that stand in front of a line. -/
structure Dialect.Furthest (d : Dialect) (raw : List Char) (left : List (Part × String))
    (rest : List Char) : Prop where
  leading : Leading d.layout raw left rest
  longest : ∀ left' rest', Leading d.layout raw left' rest' → left.length ≤ left'.length

/-- What should stand next in an edge line. -/
def wanted : List (Part × String) → String
  | [] => "end of line"
  | (_, expected) :: _ => expected

/-- The next token stands in front of what is left. -/
def Advances (left : List (Part × String)) (rest : List Char) : Prop :=
  ∃ p ∈ left.head?, ∃ rest', p.1.Takes rest rest'

variable {d : Dialect} {part : Part} {parts left left' : List (Part × String)}
  {cs cs' raw rest rest' : List Char}

theorem splitNode?_iff : (∃ node n, splitNode? cs = some (node, n, rest)) ↔
    cs = Node.pseudo.token ++ rest ∨
      ∃ name, cs = name ++ rest ∧ isName name = true ∧ StopsName rest := by
  constructor
  · rintro ⟨node, n, h⟩
    unfold splitNode? at h
    split at h
    · rename_i rest' hmark
      cases h
      exact .inl (splitMark?_eq_some.1 hmark)
    · obtain ⟨⟨name, rest'⟩, hname, heq⟩ := Option.map_eq_some_iff.1 h
      cases heq
      exact .inr ⟨name, splitName?_eq_some.1 hname⟩
  · rintro (rfl | ⟨name, rfl, hname, hstop⟩)
    · have hmark : splitMark? ['[', '*', ']'] (Node.pseudo.token ++ rest) = some rest :=
        splitMark?_eq_some.2 rfl
      exact ⟨.pseudo, 3, by simp [splitNode?, hmark]⟩
    · have hnamed : (Node.state (String.ofList name)).IsNamed := by
        simpa [Node.IsNamed] using hname
      have hnode := splitNode?_complete hnamed hstop
      simp only [Node.token, String.toList_ofList] at hnode
      exact ⟨_, _, hnode⟩

theorem Part.read?_node (hnode : part = .source ∨ part = .target) (e : Edge) (cs : List Char) :
    ∃ f : Node → Edge,
      part.read? e cs = (splitNode? cs).map fun x => (f x.1, x.2.1, x.2.2) := by
  rcases hnode with rfl | rfl
  · exact ⟨fun node => { e with source := node }, rfl⟩
  · exact ⟨fun node => { e with target := node }, rfl⟩

theorem Part.takes_node (hnode : part = .source ∨ part = .target) : part.Takes cs rest ↔
    cs = Node.pseudo.token ++ rest ∨
      ∃ name, cs = name ++ rest ∧ isName name = true ∧ StopsName rest := by
  constructor
  · intro h
    cases h with
    | mark text => rcases hnode with h | h <;> cases h
    | pseudo => exact .inl rfl
    | name _ hname hstop => exact .inr ⟨_, rfl, hname, hstop⟩
  · rintro (rfl | ⟨name, rfl, hname, hstop⟩)
    · exact .pseudo hnode rest
    · exact .name (by rcases hnode with rfl | rfl <;> rfl) hname hstop

theorem Part.takes_iff_of_node (hnode : part = .source ∨ part = .target) (e : Edge) :
    part.Takes cs rest ↔ ∃ e' n, part.read? e cs = some (e', n, rest) := by
  obtain ⟨f, hread⟩ := Part.read?_node hnode e cs
  rw [takes_node hnode, ← splitNode?_iff, hread]
  constructor
  · rintro ⟨node, n, h⟩
    exact ⟨f node, n, by rw [h]; rfl⟩
  · rintro ⟨e', n, h⟩
    obtain ⟨⟨node, m, rest'⟩, hsplit, heq⟩ := Option.map_eq_some_iff.1 h
    cases heq
    exact ⟨node, m, hsplit⟩

/-- A part is read exactly if a token of it stands in front of the text. -/
theorem Part.takes_iff (e : Edge) :
    part.Takes cs rest ↔ ∃ e' n, part.read? e cs = some (e', n, rest) := by
  cases part with
  | source => exact takes_iff_of_node (.inl rfl) e
  | target => exact takes_iff_of_node (.inr rfl) e
  | event =>
    constructor
    · intro h
      cases h with
      | pseudo hnode => rcases hnode with h | h <;> cases h
      | @name _ name _ _ hname hstop =>
        have hsplit : splitName? (name ++ rest) = some (name, rest) :=
          splitName?_eq_some.2 ⟨rfl, hname, hstop⟩
        exact ⟨_, _, by rw [Part.read?, hsplit]; rfl⟩
    · rintro ⟨e', n, h⟩
      obtain ⟨⟨name, rest'⟩, hsplit, heq⟩ := Option.map_eq_some_iff.1 h
      cases heq
      obtain ⟨rfl, hname, hstop⟩ := splitName?_eq_some.1 hsplit
      exact .name rfl hname hstop
  | mark text =>
    constructor
    · intro h
      cases h with
      | mark =>
        have hsplit : splitMark? text (text ++ rest) = some rest := splitMark?_eq_some.2 rfl
        exact ⟨_, _, by rw [Part.read?, hsplit]; rfl⟩
      | pseudo hnode => rcases hnode with h | h <;> cases h
      | name hpart => cases hpart
    · rintro ⟨e', n, h⟩
      obtain ⟨rest', hsplit, heq⟩ := Option.map_eq_some_iff.1 h
      cases heq
      rw [splitMark?_eq_some.1 hsplit]
      exact .mark text rest

/-- Only one token of a part stands in front of a text. -/
theorem Part.Takes.unique (h : part.Takes cs rest) (h' : part.Takes cs rest') : rest = rest' := by
  obtain ⟨e, n, hread⟩ := (Part.takes_iff default).1 h
  obtain ⟨e', n', hread'⟩ := (Part.takes_iff default).1 h'
  rw [hread] at hread'
  cases hread'
  rfl

theorem Part.Takes.startsTight (h : part.Takes cs rest)
    (hmark : ∀ text, part = .mark text → StartsTight text) : StartsTight cs := by
  cases h with
  | mark text => exact (hmark text rfl).append rest
  | pseudo => exact (startsTight_cons (by decide) : StartsTight ('[' :: _))
  | name _ hname => exact (startsTight_of_isName hname).append rest

theorem Part.Takes.suffix (h : part.Takes cs rest) : rest <:+ cs := by
  cases h with
  | mark text => exact ⟨text, rfl⟩
  | pseudo => exact ⟨_, rfl⟩
  | name => exact ⟨_, rfl⟩

/-- The length of a token that is read is the length that is missing behind it. -/
theorem Part.length_of_read? {e e' : Edge} {n : Nat}
    (h : part.read? e cs = some (e', n, rest)) : n + rest.length = cs.length := by
  have hnode : part = .source ∨ part = .target → n + rest.length = cs.length := by
    intro hnode
    obtain ⟨f, hread⟩ := Part.read?_node hnode e cs
    rw [hread] at h
    obtain ⟨⟨node, m, rest'⟩, hsplit, heq⟩ := Option.map_eq_some_iff.1 h
    cases heq
    obtain ⟨rfl, -, rfl⟩ := splitNode?_sound hsplit
    exact List.length_append.symm
  cases part with
  | source => exact hnode (.inl rfl)
  | target => exact hnode (.inr rfl)
  | event =>
    obtain ⟨⟨name, rest'⟩, hsplit, heq⟩ := Option.map_eq_some_iff.1 h
    cases heq
    rw [(splitName?_eq_some.1 hsplit).1, List.length_append]
  | mark text =>
    obtain ⟨rest', hsplit, heq⟩ := Option.map_eq_some_iff.1 h
    cases heq
    rw [splitMark?_eq_some.1 hsplit, List.length_append]

/-! ## Leading tokens -/

theorem trimStart_front {gap : List Char} (hgap : AllBlank gap)
    (hrest : ∀ c ∈ rest.head?, Text.isBlank c = false) : Text.trimStart (gap ++ rest) = rest := by
  cases rest with
  | nil => rw [List.append_nil, trimStart_eq_nil hgap]
  | cons c rest => exact trimStart_gap hgap (startsTight_cons (hrest c rfl))

theorem head_trimStart (cs : List Char) : ∀ c ∈ (Text.trimStart cs).head?, Text.isBlank c = false := by
  intro c hc
  have hnot := List.head?_dropWhile_not Text.isBlank cs
  rw [show (cs.dropWhile Text.isBlank).head? = some c from hc] at hnot
  exact hnot

theorem Leading.suffix (h : Leading parts cs left rest) : rest <:+ cs := by
  induction h with
  | stop => exact List.suffix_append _ _
  | token _ htakes _ ih => exact (ih.trans htakes.suffix).trans (List.suffix_append _ _)

theorem Leading.length_le (h : Leading parts cs left rest) : left.length ≤ parts.length := by
  induction h with
  | stop => exact Nat.le_refl _
  | token _ _ _ ih => exact Nat.le_succ_of_le ih

theorem Leading.head (h : Leading parts cs left rest) :
    ∀ c ∈ rest.head?, Text.isBlank c = false := by
  induction h with
  | stop _ hrest => exact hrest
  | token _ _ _ ih => exact ih

/-- Of two ways to read the first tokens of a layout, the shorter one can go on. -/
theorem Leading.compare (hparts : WellSpaced (parts.map (·.1))) (h : Leading parts cs left rest)
    (h' : Leading parts cs left' rest') :
    left = left' ∧ rest = rest' ∨ Advances left rest ∧ left'.length < left.length ∨
      Advances left' rest' ∧ left.length < left'.length := by
  -- What follows the gap is a token, so it is what remains of the text without its first blanks.
  have hgoes : ∀ {part : Part} {expected : String} {parts left' : List (Part × String)}
      {gap gap' rest cs cs' rest' : List Char}, WellSpaced (((part, expected) :: parts).map (·.1)) →
      AllBlank gap → (∀ c ∈ rest.head?, Text.isBlank c = false) → AllBlank gap' →
      gap ++ rest = gap' ++ cs → part.Takes cs cs' → Leading parts cs' left' rest' →
      Advances ((part, expected) :: parts) rest ∧
        left'.length < ((part, expected) :: parts).length := by
    intro part expected parts left' gap gap' rest cs cs' rest' hparts hgap hrest hgap' heq htakes
      hmore
    have htight := htakes.startsTight fun text ht => hparts.tight text (by simp [ht])
    have hsame : rest = cs := by
      rw [← trimStart_front hgap hrest, heq, trimStart_gap hgap' htight]
    exact ⟨⟨_, rfl, cs', hsame ▸ htakes⟩, Nat.lt_succ_of_le hmore.length_le⟩
  induction h generalizing left' rest' with
  | @stop parts gap rest hgap hrest =>
    generalize hcs : gap ++ rest = cs at h'
    cases h' with
    | stop hgap' hrest' =>
      refine .inl ⟨rfl, ?_⟩
      rw [← trimStart_front hgap hrest, hcs, trimStart_front hgap' hrest']
    | token hgap' htakes hmore =>
      exact .inr (.inl (hgoes hparts hgap hrest hgap' hcs htakes hmore))
  | @token part expected parts left gap cs cs' rest hgap htakes hmore ih =>
    generalize hcs : gap ++ cs = whole at h'
    cases h' with
    | stop hgap' hrest' =>
      exact .inr (.inr (hgoes hparts hgap' hrest' hgap hcs.symm htakes hmore))
    | token hgap' htakes' hmore' =>
      have hmark : ∀ text, part = .mark text → StartsTight text := fun text ht =>
        hparts.tight text (by simp [ht])
      obtain ⟨-, rfl⟩ := eq_of_gap_eq hgap hgap' (htakes.startsTight hmark)
        (htakes'.startsTight hmark) hcs
      obtain rfl := htakes.unique htakes'
      exact ih hparts.tail hmore'

/-- The most tokens are read where the next one does not follow. -/
theorem furthest_of_stuck (h : Leading d.layout raw left rest) (hstuck : ¬Advances left rest) :
    d.Furthest raw left rest := by
  refine ⟨h, fun left' rest' h' => ?_⟩
  rcases h.compare (wellSpaced_layout d) h' with ⟨rfl, -⟩ | ⟨hadvances, -⟩ | ⟨-, hlt⟩
  · exact Nat.le_refl _
  · exact absurd hadvances hstuck
  · exact Nat.le_of_lt hlt

theorem Dialect.Furthest.unique (h : d.Furthest raw left rest) (h' : d.Furthest raw left' rest') :
    left = left' ∧ rest = rest' := by
  have hlength := Nat.le_antisymm (h.longest _ _ h'.leading) (h'.longest _ _ h.leading)
  rcases h.leading.compare (wellSpaced_layout d) h'.leading with heq | ⟨-, hlt⟩ | ⟨-, hlt⟩
  · exact heq
  · omega
  · omega

/-! ## Lines that cannot be read -/

/-- A line is refused behind the tokens that could be read of it. -/
theorem readParts_error {e : Edge} {offset : Nat} {m : Mismatch}
    (h : readParts e offset cs parts = .error m) : ∃ left rest, Leading parts cs left rest ∧
      ¬Advances left rest ∧ m = ⟨offset + (cs.length - rest.length), wanted left⟩ := by
  induction parts generalizing e offset cs with
  | nil =>
    simp only [readParts] at h
    split at h
    · cases h
    · obtain ⟨gap, hgap, hcs⟩ := exists_gap_trimStart cs
      refine ⟨[], Text.trimStart cs, ?_, ?_, (Except.error.inj h).symm⟩
      · conv => arg 2; rw [hcs]
        exact .stop hgap (head_trimStart cs)
      · rintro ⟨p, hp, -⟩
        cases hp
  | cons head parts ih =>
    obtain ⟨part, expected⟩ := head
    obtain ⟨gap, hgap, hcs⟩ := exists_gap_trimStart cs
    simp only [readParts] at h
    split at h
    · rename_i hnone
      refine ⟨(part, expected) :: parts, Text.trimStart cs, ?_, ?_, (Except.error.inj h).symm⟩
      · conv => arg 2; rw [hcs]
        exact .stop hgap (head_trimStart cs)
      · rintro ⟨p, hp, rest', htakes⟩
        obtain rfl := Option.some.inj hp
        obtain ⟨e', n, hread⟩ := (Part.takes_iff e).1 htakes
        rw [hnone] at hread
        cases hread
    · rename_i e' n rest' hread
      obtain ⟨left, rest, hleading, hstuck, rfl⟩ := ih h
      refine ⟨left, rest, ?_, hstuck, ?_⟩
      · conv => arg 2; rw [hcs]
        exact .token hgap ((Part.takes_iff e).2 ⟨e', n, hread⟩) hleading
      · have hlength := Part.length_of_read? hread
        have htrimmed : cs.length = gap.length + (Text.trimStart cs).length := by
          conv => lhs; rw [hcs]
          exact List.length_append
        have hrest := hleading.suffix.length_le
        congr 1
        omega

/-- A line that is no edge line is refused where the most tokens have been read of it. -/
theorem Edge.read_eq_error (line : Nat) (hraw : ∀ a, ¬IsEdgeLine d raw a) :
    ∃ left rest, d.Furthest raw left rest ∧ Edge.read d line raw =
      .error (.malformedLine d.name line (raw.length - rest.length + 1)
        (String.ofList (Text.trim raw)) (wanted left)) := by
  cases hread : Edge.read d line raw with
  | ok e =>
    obtain ⟨a, ha, -⟩ := Edge.read_eq_ok.1 hread
    exact absurd ha (hraw a)
  | error fault =>
    unfold Edge.read at hread
    split at hread
    · cases hread
    · rename_i m hparts
      obtain ⟨left, rest, hleading, hstuck, rfl⟩ := readParts_error hparts
      refine ⟨left, rest, furthest_of_stuck hleading hstuck, ?_⟩
      rw [← hread, Nat.zero_add]

/-! ## The first line that cannot be read -/

/-- A line that says something: it is neither blank nor a comment, a directive, or a header at the
top. -/
structure Significant (d : Dialect) (before : List (List Char)) (raw : List Char) : Prop where
  notBlank : ¬AllBlank raw
  notComment : ¬IsComment d raw
  notDirective : d = .plantuml → ¬IsDirective raw
  notHeader : d = .mermaid → d.OnlyRemarks before → ¬IsHeader raw

variable {first : Bool} {before lines : List (List Char)}

theorem fits_iff : Fits d before raw ↔ (Significant d before raw → ∃ a, IsEdgeLine d raw a) := by
  constructor
  · intro h hsignificant
    cases h with
    | blank h => exact absurd h hsignificant.notBlank
    | comment h => exact absurd h hsignificant.notComment
    | directive hd h => exact absurd h (hsignificant.notDirective hd)
    | header hd h hbefore => exact absurd h (hsignificant.notHeader hd hbefore)
    | edge a h => exact ⟨a, h⟩
  · intro h
    by_cases hblank : AllBlank raw
    · exact .blank hblank
    by_cases hcomment : IsComment d raw
    · exact .comment hcomment
    by_cases hdirective : d = .plantuml ∧ IsDirective raw
    · exact .directive hdirective.1 hdirective.2
    by_cases hheader : d = .mermaid ∧ d.OnlyRemarks before ∧ IsHeader raw
    · exact .header hheader.1 hheader.2.2 hheader.2.1
    obtain ⟨a, ha⟩ := h ⟨hblank, hcomment, fun hd h => hdirective ⟨hd, h⟩,
      fun hd hbefore h => hheader ⟨hd, hbefore, h⟩⟩
    exact .edge a ha

/-- A line fits if it is left out or read as an edge. -/
theorem fits_iff_read (line : Nat) (hfirst : first = true ↔ d.OnlyRemarks before) :
    Fits d before raw ↔ d.isRemark raw = true ∨ d.isPreamble first raw = true ∨
      ∃ e, Edge.read d line raw = .ok e := by
  rw [isRemark_iff, Dialect.isPreamble_iff]
  constructor
  · intro h
    cases h with
    | blank h => exact .inl (.inl h)
    | comment h => exact .inl (.inr h)
    | directive hd h => exact .inr (.inl (.inl ⟨hd, h⟩))
    | header hd h hbefore => exact .inr (.inl (.inr ⟨hd, hfirst.2 hbefore, h⟩))
    | edge a h => exact .inr (.inr ⟨_, Edge.read_eq_ok.2 ⟨a, h, rfl⟩⟩)
  · rintro ((h | h) | (⟨hd, h⟩ | ⟨hd, hf, h⟩) | ⟨e, h⟩)
    · exact .blank h
    · exact .comment h
    · exact .directive hd h
    · exact .header hd h (hfirst.1 hf)
    · obtain ⟨a, ha, -⟩ := Edge.read_eq_ok.1 h
      exact .edge a ha

/-- Behind a line only a remark leaves the way open for a header. -/
theorem onlyRemarks_behind (hfirst : first = true ↔ d.OnlyRemarks before) (raw : List Char) :
    (first && d.isRemark raw) = true ↔ d.OnlyRemarks (before ++ [raw]) := by
  rw [Bool.and_eq_true, hfirst, isRemark_iff, Dialect.OnlyRemarks, Dialect.OnlyRemarks,
    List.forall_mem_append, List.forall_mem_singleton]

/-- The lines in front of the first one that does not fit make no difference. -/
theorem edgesFrom_misfit (line : Nat) (rest : List (List Char))
    (hfirst : first = true ↔ d.OnlyRemarks before) (hall : d.AllFit before lines)
    (hmisfit : ¬Fits d (before ++ lines) raw) :
    ∃ fault, Edge.read d (line + lines.length) raw = .error fault ∧
      d.edgesFrom first line (lines ++ raw :: rest) = .error fault := by
  induction lines generalizing before first line with
  | nil =>
    rw [List.append_nil, fits_iff_read line hfirst] at hmisfit
    obtain ⟨hremark, hpreamble, hread⟩ := by simpa only [not_or] using hmisfit
    cases hfault : Edge.read d line raw with
    | ok e => exact absurd ⟨e, hfault⟩ hread
    | error fault =>
      refine ⟨fault, rfl, ?_⟩
      simp only [List.nil_append, Dialect.edgesFrom, if_neg hremark, if_neg hpreamble, hfault]
  | cons head lines ih =>
    have hbehind := onlyRemarks_behind hfirst head
    rw [show before ++ head :: lines = before ++ [head] ++ lines by simp] at hmisfit
    obtain ⟨fault, hfault, hlater⟩ := ih (line + 1) hbehind hall.2 hmisfit
    refine ⟨fault, ?_, ?_⟩
    · rw [← hfault, List.length_cons]
      congr 1
      omega
    · rw [List.cons_append, Dialect.edgesFrom]
      rcases Bool.eq_false_or_eq_true (d.isRemark head) with hremark | hremark
      · rw [hremark, Bool.and_true] at hlater
        rw [if_pos hremark, hlater]
      · rw [hremark, Bool.and_false] at hlater
        rw [if_neg (by simp [hremark])]
        split
        · exact hlater
        · rename_i hpreamble
          rcases (fits_iff_read line hfirst).1 hall.1 with h | h | ⟨e, hread⟩
          · simp [h] at hremark
          · exact absurd h hpreamble
          · simp only [hread, hlater]

/-! ## The edges as a whole -/

/-- An edge enters the diagram only to leave it. -/
def Edge.PassesThrough (e : Edge) : Prop := e.source = .pseudo ∧ e.target = .pseudo

/-- The states that the entry edges lead to, each once, in the order of their first appearance. -/
def initialStates (edges : List Edge) : List String := distinct (edges.filterMap (·.entryState?))

/-- What is wrong with some edges as a whole, the first of: there are none; one passes through; none
enters the diagram; two enter it at different states. -/
inductive Faulty (dialect : String) (edges : List Edge) : DiagramFault → Prop where
  | noEdges (hnone : edges = []) : Faulty dialect edges (.noEdges dialect)
  | passing {e : Edge} {before after : List Edge} (hedges : edges = before ++ e :: after)
    (hpasses : e.PassesThrough) (hfirst : ∀ x ∈ before, ¬x.PassesThrough) :
    Faulty dialect edges (.entryToExit e.line e.event)
  | noEntry (hsome : edges ≠ []) (hnone : ∀ e ∈ edges, e.source ≠ .pseudo) :
    Faulty dialect edges (.noInitialState dialect)
  | severalEntries {e e' : Edge} {before between after : List Edge}
    (hedges : edges = before ++ e :: (between ++ e' :: after))
    (hpasses : ∀ x ∈ edges, ¬x.PassesThrough) (hentry : e.source = .pseudo)
    (hfirst : ∀ x ∈ before, x.source ≠ .pseudo) (hentry' : e'.source = .pseudo)
    (hother : e'.target ≠ e.target)
    (hnext : ∀ x ∈ between, x.source = .pseudo → x.target = e.target) :
    Faulty dialect edges
      (.severalInitialStates dialect (initialStates edges) (some e'.line))

namespace Edge

variable {e : Edge} {edges : List Edge} {s : String}

theorem isEntryToExit_iff : e.isEntryToExit = true ↔ e.PassesThrough := by
  simp [isEntryToExit, PassesThrough]

theorem entryState?_eq_some : e.entryState? = some s ↔ e.source = .pseudo ∧ e.target = .state s := by
  obtain ⟨source, event, target, line⟩ := e
  cases source <;> cases target <;> simp [entryState?]

theorem entryState?_eq_none (hpasses : ¬e.PassesThrough) :
    e.entryState? = none ↔ e.source ≠ .pseudo := by
  obtain ⟨source, event, target, line⟩ := e
  cases source <;> cases target <;> simp_all [entryState?, PassesThrough]

theorem find?_passing_eq_none :
    edges.find? (·.isEntryToExit) = none ↔ ∀ x ∈ edges, ¬x.PassesThrough := by
  simp [List.find?_eq_none, isEntryToExit_iff]

end Edge

theorem distinct_head (s : String) (states : List String) :
    ∃ others, distinct (s :: states) = s :: others := by
  induction states using List.reverseRecOn with
  | nil => exact ⟨[], rfl⟩
  | append_singleton states x ih =>
    obtain ⟨others, hothers⟩ := ih
    rw [← List.cons_append, distinct_snoc, hothers]
    split
    · exact ⟨others, rfl⟩
    · exact ⟨others ++ [x], rfl⟩

/-- What comes first without repetitions comes first. -/
theorem eq_cons_of_distinct {s : String} {states others : List String}
    (h : distinct states = s :: others) : ∃ rest, states = s :: rest := by
  cases states with
  | nil => cases h
  | cons x rest =>
    obtain ⟨others', hothers⟩ := distinct_head x rest
    rw [hothers] at h
    exact ⟨rest, by rw [(List.cons.inj h).1]⟩

/-- Edges of which none passes through, and of which none enters the diagram. -/
theorem faulty_of_no_entry {dialect : String} {edges : List Edge} (hsome : edges ≠ [])
    (hpasses : ∀ x ∈ edges, ¬x.PassesThrough) (hnone : initialStates edges = []) :
    Faulty dialect edges (.noInitialState dialect) := by
  refine .noEntry hsome fun e he => ?_
  have hstate := List.filterMap_eq_nil_iff.1 (distinct_eq_nil.1 hnone) e he
  exact (Edge.entryState?_eq_none (hpasses e he)).1 hstate

/-- Edges that enter the diagram at two states at least: the first of them at `s`. -/
theorem faulty_of_several {dialect : String} {edges : List Edge} {s : String} {others : List String}
    (hpasses : ∀ x ∈ edges, ¬x.PassesThrough) (hstates : initialStates edges = s :: others)
    (hothers : others ≠ []) :
    Faulty dialect edges (.severalInitialStates dialect (s :: others)
      ((edges.find? fun e => e.isEntry && e.target ≠ .state s).map (·.line))) := by
  obtain ⟨states, hall⟩ := eq_cons_of_distinct hstates
  obtain ⟨before, e, after, rfl, hbefore, he, -⟩ := List.filterMap_eq_cons_iff.1 hall
  obtain ⟨hentry, htarget⟩ := Edge.entryState?_eq_some.1 he
  have hfirst : ∀ x ∈ before, x.source ≠ .pseudo := fun x hx =>
    (Edge.entryState?_eq_none (hpasses x (List.mem_append_left _ hx))).1 (hbefore x hx)
  -- Neither the edges in front nor the first entry edge leads to another state.
  have hskipped : (before ++ e :: after).find? (fun e => e.isEntry && e.target ≠ .state s) =
      after.find? fun e => e.isEntry && e.target ≠ .state s := by
    rw [List.find?_append, List.find?_eq_none.2, Option.none_or, List.find?_cons_of_neg]
    · simp [htarget]
    · intro x hx
      simp [Edge.isEntry, hfirst x hx]
  rw [hskipped, ← hstates]
  cases hfind : after.find? fun e => e.isEntry && e.target ≠ .state s with
  | some e' =>
    obtain ⟨he', between, behind, rfl, hbetween⟩ := List.find?_eq_some_iff_append.1 hfind
    simp only [Edge.isEntry, Bool.and_eq_true, decide_eq_true_eq] at he'
    refine .severalEntries (e := e) rfl hpasses hentry hfirst he'.1 (htarget ▸ he'.2) ?_
    intro x hx hsource
    have hx' := hbetween x hx
    rw [htarget]
    simpa [Edge.isEntry, hsource] using hx'
  | none =>
    -- No entry edge leads elsewhere, so there is one state only.
    exfalso
    apply hothers
    have hone : initialStates (before ++ e :: after) = [s] := by
      refine distinct_eq_singleton.2 ⟨by simp [he], ?_⟩
      intro y hy
      obtain ⟨x, hx, hstate⟩ := List.mem_filterMap.1 hy
      obtain ⟨hsource, hx'⟩ := Edge.entryState?_eq_some.1 hstate
      rcases List.mem_append.1 hx with hmem | hmem
      · exact absurd hsource (hfirst x hmem)
      rcases List.mem_cons.1 hmem with rfl | hmem
      · rw [htarget] at hx'
        cases hx'
        rfl
      · have hnot := List.find?_eq_none.1 hfind x hmem
        simp only [Edge.isEntry, hsource, hx', decide_true, Bool.true_and, decide_eq_true_eq,
          ne_eq, not_not, Node.state.injEq] at hnot
        exact hnot
    rw [hstates] at hone
    exact (List.cons.inj hone).2

/-- Edges whose first two entry edges with different targets are `e` and `e'`. -/
theorem refused_of_several {dialect : String} {edges before between after : List Edge} {e e' : Edge}
    (hedges : edges = before ++ e :: (between ++ e' :: after))
    (hpasses : ∀ x ∈ edges, ¬x.PassesThrough) (hentry : e.source = .pseudo)
    (hfirst : ∀ x ∈ before, x.source ≠ .pseudo) (hentry' : e'.source = .pseudo)
    (hother : e'.target ≠ e.target)
    (hnext : ∀ x ∈ between, x.source = .pseudo → x.target = e.target) :
    Table.ofEdges dialect edges =
      .error (.severalInitialStates dialect (initialStates edges) (some e'.line)) := by
  have hnamed : ∀ x ∈ edges, x.source = .pseudo → ∃ s, x.target = .state s := by
    intro x hx hsource
    cases htarget : x.target with
    | pseudo => exact absurd ⟨hsource, htarget⟩ (hpasses x hx)
    | state s => exact ⟨s, rfl⟩
  obtain ⟨s, hs⟩ := hnamed e (by simp [hedges]) hentry
  obtain ⟨s', hs'⟩ := hnamed e' (by simp [hedges]) hentry'
  obtain ⟨others, hstates⟩ : ∃ others, initialStates edges = s :: others := by
    have hskipped : before.filterMap (·.entryState?) = [] :=
      List.filterMap_eq_nil_iff.2 fun x hx =>
        (Edge.entryState?_eq_none (hpasses x (by simp [hedges, hx]))).2 (hfirst x hx)
    rw [initialStates, hedges, List.filterMap_append, hskipped, List.nil_append,
      List.filterMap_cons_some (Edge.entryState?_eq_some.2 ⟨hentry, hs⟩)]
    exact distinct_head s _
  have hothers : others ≠ [] := by
    rintro rfl
    have hmem : s' ∈ edges.filterMap (·.entryState?) :=
      List.mem_filterMap.2 ⟨e', by simp [hedges], Edge.entryState?_eq_some.2 ⟨hentry', hs'⟩⟩
    exact hother (by rw [hs, hs', (distinct_eq_singleton.1 hstates).2 s' hmem])
  have hsecond : edges.find? (fun x => x.isEntry && x.target ≠ .state s) = some e' := by
    refine List.find?_eq_some_iff_append.2 ⟨?_, before ++ e :: between, after, by simp [hedges],
      fun x hx => ?_⟩
    · simp [Edge.isEntry, hentry', ← hs, hother]
    · rcases List.mem_append.1 hx with hx | hx
      · simp [Edge.isEntry, hfirst x hx]
      rcases List.mem_cons.1 hx with rfl | hx
      · simp [hs]
      · by_cases hsource : x.source = .pseudo
        · simp [hnext x hx hsource, hs]
        · simp [Edge.isEntry, hsource]
  rw [Table.ofEdges, if_neg (by simp [hedges]), Edge.find?_passing_eq_none.2 hpasses, hstates]
  rw [initialStates] at hstates
  simp only [hstates, hsecond, Option.map_some]

/-- Edges have no table exactly if something is wrong with them as a whole, and they are refused for
the first thing that is. -/
theorem ofEdges_eq_error {dialect : String} {edges : List Edge} {f : DiagramFault} :
    Table.ofEdges dialect edges = .error f ↔ Faulty dialect edges f := by
  constructor
  · intro h
    unfold Table.ofEdges at h
    split at h
    · rename_i hempty
      cases h
      exact .noEdges (List.isEmpty_iff.1 hempty)
    rename_i hempty
    have hsome : edges ≠ [] := fun hnil => hempty (List.isEmpty_iff.2 hnil)
    split at h
    · rename_i e hfind
      cases h
      obtain ⟨hpasses, before, after, hedges, hfirst⟩ := List.find?_eq_some_iff_append.1 hfind
      exact .passing hedges (Edge.isEntryToExit_iff.1 hpasses) fun x hx hx' => by
        simpa [Edge.isEntryToExit_iff.2 hx'] using hfirst x hx
    · rename_i hfind
      have hpasses := Edge.find?_passing_eq_none.1 hfind
      split at h
      · rename_i hstates
        cases h
        exact faulty_of_no_entry hsome hpasses hstates
      · cases h
      · rename_i s others hmany hstates
        cases h
        exact faulty_of_several hpasses hstates hmany
  · intro h
    cases h with
    | noEdges hnone =>
      subst hnone
      rfl
    | @passing e before after hedges hpasses hfirst =>
      have hfind : edges.find? (·.isEntryToExit) = some e :=
        List.find?_eq_some_iff_append.2 ⟨Edge.isEntryToExit_iff.2 hpasses, before, after, hedges,
          fun x hx => by simpa [← Edge.isEntryToExit_iff] using hfirst x hx⟩
      rw [Table.ofEdges, if_neg (by simp [hedges]), hfind]
    | noEntry hsome hnone =>
      have hpasses : ∀ x ∈ edges, ¬x.PassesThrough := fun x hx h => hnone x hx h.1
      have hstates : distinct (edges.filterMap (·.entryState?)) = [] :=
        distinct_eq_nil.2 (List.filterMap_eq_nil_iff.2 fun x hx =>
          (Edge.entryState?_eq_none (hpasses x hx)).2 (hnone x hx))
      rw [Table.ofEdges, if_neg (by simp [hsome]), Edge.find?_passing_eq_none.2 hpasses, hstates]
    | severalEntries hedges hpasses hentry hfirst hentry' hother hnext =>
      exact refused_of_several hedges hpasses hentry hfirst hentry' hother hnext

/-! ## The law -/

/-- The first line of some that says something and is no edge line. -/
structure Dialect.FirstMisfit (d : Dialect) (lines : List (List Char)) (i : Nat)
    (raw : List Char) : Prop where
  here : lines[i]? = some raw
  significant : Significant d (lines.take i) raw
  noEdge : ∀ a, ¬IsEdgeLine d raw a
  earlier : ∀ j < i, ∀ line, lines[j]? = some line → Significant d (lines.take j) line →
    ∃ a, IsEdgeLine d line a

/-- A text is refused where its first misfit stops to be an edge line. -/
theorem compile_misfit {text : String} {i : Nat}
    (h : d.FirstMisfit (Text.lines text.toList) i raw) :
    ∃ left rest, d.Furthest raw left rest ∧ compileDiagram text d.name =
      .error (.malformedLine d.name (i + 1) (raw.length - rest.length + 1)
        (String.ofList (Text.trim raw)) (wanted left)) := by
  obtain ⟨hlt, hget⟩ := List.getElem?_eq_some_iff.1 h.here
  have hsplit : Text.lines text.toList =
      (Text.lines text.toList).take i ++ raw :: (Text.lines text.toList).drop (i + 1) := by
    rw [← hget, List.getElem_cons_drop, List.take_append_drop]
  have hall : d.AllFit [] ((Text.lines text.toList).take i) := by
    refine Dialect.allFit_iff.2 fun j line hj => fits_iff.2 fun hsignificant => ?_
    have hji : j < i := lt_of_lt_of_le (List.getElem?_eq_some_iff.1 hj).1 (List.length_take_le _ _)
    rw [List.getElem?_take_of_lt hji] at hj
    rw [List.nil_append, List.take_take, Nat.min_eq_left hji.le] at hsignificant
    exact h.earlier j hji line hj hsignificant
  have hmisfit : ¬Fits d ([] ++ (Text.lines text.toList).take i) raw := fun hfits =>
    (fits_iff.1 hfits h.significant).elim h.noEdge
  obtain ⟨fault, hfault, hedges⟩ := edgesFrom_misfit 1
    ((Text.lines text.toList).drop (i + 1)) (iff_of_true rfl (by simp [Dialect.OnlyRemarks])) hall
    hmisfit
  obtain ⟨left, rest, hfurthest, hread⟩ :=
    Edge.read_eq_error (1 + ((Text.lines text.toList).take i).length) h.noEdge
  rw [hread] at hfault
  cases hfault
  refine ⟨left, rest, hfurthest, ?_⟩
  rw [← hsplit] at hedges
  rw [compileDiagram_name, Dialect.compile, Dialect.edges, hedges, List.length_take,
    Nat.min_eq_left hlt.le, Nat.add_comm 1 i]

/-- If a line of a text that says something is no edge line, the text is refused at the first such
line: behind its longest start of tokens, at the end of the line or at what is no blank, for want of
the token that comes next. Otherwise it is refused exactly for the first fault of its edges. -/
theorem a_refused_diagram_is_located (d : Dialect) (text : String) :
    let lines := Text.lines text.toList
    (∀ i raw, d.FirstMisfit lines i raw → ∃ left rest, d.Furthest raw left rest ∧
      (∀ left' rest', d.Furthest raw left' rest' → left' = left ∧ rest' = rest) ∧
      ∃ column fault, column = raw.length - rest.length + 1 ∧
        1 ≤ column ∧ column ≤ raw.length + 1 ∧
        (∀ c, raw[column - 1]? = some c → Text.isBlank c = false) ∧
        compileDiagram text d.name = .error fault ∧
        fault.report.kind =
          .diagram (some (i + 1)) (some column) (some (String.ofList (Text.trim raw))) ∧
        fault.report.why = some ("Expected " ++ wanted left ++ ".")) ∧
    ((∀ i raw, lines[i]? = some raw → Significant d (lines.take i) raw → ∃ a, IsEdgeLine d raw a) →
      ∀ fault, compileDiagram text d.name = .error fault ↔
        Faulty d.name (d.numbered 1 lines) fault) := by
  intro lines
  constructor
  · intro i raw hmisfit
    obtain ⟨left, rest, hfurthest, hcompile⟩ := compile_misfit hmisfit
    refine ⟨left, rest, hfurthest, fun left' rest' h => h.unique hfurthest, _, _, rfl,
      Nat.le_add_left _ _, by omega, ?_, hcompile, rfl, rfl⟩
    intro c hc
    obtain ⟨read, rfl⟩ := hfurthest.leading.suffix
    rw [Nat.add_sub_cancel, List.length_append, Nat.add_sub_cancel,
      List.getElem?_append_right (Nat.le_refl _), Nat.sub_self] at hc
    exact hfurthest.leading.head c (by rw [List.head?_eq_getElem?]; exact hc)
  · intro hedges fault
    have hall : d.AllFit [] lines := Dialect.allFit_iff.2 fun i raw hi =>
      fits_iff.2 (hedges i raw hi)
    rw [compileDiagram_name, Dialect.compile, Dialect.edges_eq_ok.2 ⟨hall, rfl⟩]
    exact ofEdges_eq_error

/-- A line with a short arrow is refused at the arrow, though an edge in front of it passes through.
Without such a line, the second initial state is refused. -/
theorem a_short_arrow_is_refused_first :
    let text := "[*] --> [*] : a\n\t x -> y : b"
    let text' := "stateDiagram\n[*] -->|a| s\n[*]-->|b| t"
    let lines' := Text.lines text'.toList
    Dialect.plantuml.FirstMisfit (Text.lines text.toList) 1 "\t x -> y : b".toList ∧
    (∃ left rest, Dialect.plantuml.Furthest "\t x -> y : b".toList left rest ∧ rest.length = 8) ∧
    (∀ i raw, lines'[i]? = some raw → Significant .mermaid (lines'.take i) raw →
      ∃ a, IsEdgeLine .mermaid raw a) ∧
    Faulty "mermaid" (Dialect.mermaid.numbered 1 lines')
      (.severalInitialStates "mermaid" ["s", "t"] (some 3)) := by
  intro text text' lines'
  have hlines : Text.lines text.toList =
      ["[*] --> [*] : a".toList, "\t x -> y : b".toList] := by decide
  have hlines' : lines' = ["stateDiagram".toList, "[*] -->|a| s".toList, "[*]-->|b| t".toList] := by
    decide
  have hfirst : Dialect.plantuml.FirstMisfit (Text.lines text.toList) 1
      "\t x -> y : b".toList := by
    rw [hlines]
    refine ⟨rfl, ⟨?_, ?_, ?_, fun h => by cases h⟩, ?_, ?_⟩
    · exact fun h => absurd ((isRemark_iff (d := .plantuml)).2 (.inl h)) (by decide)
    · exact fun h => absurd (isRemark_iff.2 (.inr h)) (by decide)
    · exact fun _ h => absurd (isDirective_iff.2 h) (by decide)
    · intro a ha
      have hread : Edge.read .plantuml 1 "\t x -> y : b".toList = .ok (a.onLine 1) :=
        Edge.read_eq_ok.2 ⟨a, ha, rfl⟩
      have hnone : (Edge.read .plantuml 1 "\t x -> y : b".toList).isOk = false := by decide
      rw [hread] at hnone
      cases hnone
    · intro j hj line hline _
      obtain rfl : j = 0 := by omega
      cases hline
      exact ⟨⟨.pseudo, "a", .pseudo⟩, isEdgeLine_of_read 1 (by decide +kernel)⟩
  have hfits : Dialect.mermaid.AllFit [] lines' := by
    rw [hlines']
    refine ⟨.header rfl (isHeader_iff.1 (by decide)) (by simp), ?_, ?_, trivial⟩
    · exact .edge ⟨.pseudo, "a", .state "s"⟩ (isEdgeLine_of_read 1 (by decide +kernel))
    · exact .edge ⟨.pseudo, "b", .state "t"⟩ (isEdgeLine_of_read 1 (by decide +kernel))
  have hedges : ∀ i raw, lines'[i]? = some raw → Significant .mermaid (lines'.take i) raw →
      ∃ a, IsEdgeLine .mermaid raw a := fun i raw hi =>
    fits_iff.1 (by simpa using Dialect.allFit_iff.1 hfits i raw hi)
  refine ⟨hfirst, ?_, hedges, ?_⟩
  · obtain ⟨left, rest, hfurthest, -, column, fault, hcolumn, -, -, -, hcompile, hkind, -⟩ :=
      (a_refused_diagram_is_located .plantuml text).1 1 _ hfirst
    have hrefused : compileDiagram text "plantuml" = .error (.malformedLine "plantuml" 2 5
        "x -> y : b" "'-->' after the source state") := by decide +kernel
    obtain rfl := Except.error.inj (hcompile.symm.trans hrefused)
    cases hkind
    have hlength := hfurthest.leading.suffix.length_le
    exact ⟨left, rest, hfurthest, by simp at hcolumn hlength; omega⟩
  · exact ((a_refused_diagram_is_located .mermaid text').2 hedges _).1 (by decide +kernel)

end Turnstile

-- The lines of a diagram: a line is blank, a comment, a directive, a header at the top, or an
-- edge line, and no edge line is any of the others. Reading a diagram finds a fault exactly
-- when some line is none of these, and otherwise gives the edges of its edge lines.
import Turnstile.Diagram.Compile
import Turnstile.Proofs.Diagram.Grammar

namespace Turnstile

/-! ## What a line may be -/

/-- A comment: the mark of a dialect, with any blanks before it. -/
def IsComment (d : Dialect) (raw : List Char) : Prop :=
  ∃ gap rest, AllBlank gap ∧ raw = gap ++ (d.commentMark ++ rest)

/-- How a directive of PlantUML begins: `@startuml|@enduml|hide\s+empty\s|skinparam\s+\w`. -/
inductive DirectiveStart : List Char → Prop where
  | start : DirectiveStart "@startuml".toList
  | finish : DirectiveStart "@enduml".toList
  | hideEmpty {sep : List Char} {c : Char} (hne : sep ≠ []) (hsep : AllBlank sep)
      (hc : Text.isBlank c = true) :
      DirectiveStart ("hide".toList ++ (sep ++ ("empty".toList ++ [c])))
  | skinparam {sep : List Char} {c : Char} (hne : sep ≠ []) (hsep : AllBlank sep)
      (hc : Text.isWord c = true) : DirectiveStart ("skinparam".toList ++ (sep ++ [c]))

def IsDirective (raw : List Char) : Prop :=
  ∃ gap body rest, AllBlank gap ∧ DirectiveStart body ∧ raw = gap ++ (body ++ rest)

/-- A header of Mermaid:
`stateDiagram|stateDiagram-v2|graph|graph\s+\w+|flowchart|flowchart\s+\w+`. -/
inductive HeaderBody : List Char → Prop where
  | states : HeaderBody "stateDiagram".toList
  | statesV2 : HeaderBody "stateDiagram-v2".toList
  | alone {word : String} (hword : word = "graph" ∨ word = "flowchart") :
      HeaderBody word.toList
  | labelled {word : String} {sep label : List Char}
      (hword : word = "graph" ∨ word = "flowchart") (hne : sep ≠ []) (hsep : AllBlank sep)
      (hlabel : label ≠ []) (hall : ∀ c ∈ label, Text.isWord c = true) :
      HeaderBody (word.toList ++ (sep ++ label))

def IsHeader (raw : List Char) : Prop :=
  ∃ gap body gap', AllBlank gap ∧ HeaderBody body ∧ AllBlank gap' ∧ raw = gap ++ (body ++ gap')

/-- What a line may be, given the lines before it. -/
inductive Fits (d : Dialect) (before : List (List Char)) (raw : List Char) : Prop where
  | blank (h : AllBlank raw)
  | comment (h : IsComment d raw)
  | directive (hd : d = .plantuml) (h : IsDirective raw)
  | header (hd : d = .mermaid) (h : IsHeader raw)
      (hfirst : ∀ line ∈ before, AllBlank line ∨ IsComment d line)
  | edge (a : Arrow) (h : IsEdgeLine d raw a)

/-! ## Trimmed texts -/

theorem trimStart_eq_iff {raw cs : List Char} (hcs : StartsTight cs) :
    Text.trimStart raw = cs ↔ ∃ gap, AllBlank gap ∧ raw = gap ++ cs := by
  constructor
  · rintro rfl
    exact exists_gap_trimStart raw
  · rintro ⟨gap, hgap, rfl⟩
    exact trimStart_gap hgap hcs

theorem AllBlank.reverse {cs : List Char} (h : AllBlank cs) : AllBlank cs.reverse :=
  fun c hc => h c (List.mem_reverse.1 hc)

/-- A text is its trimmed form with a gap at either end. -/
theorem exists_gaps_trim (raw : List Char) :
    ∃ gap gap', AllBlank gap ∧ AllBlank gap' ∧ raw = gap ++ (Text.trim raw ++ gap') := by
  obtain ⟨gap, hgap, hraw⟩ := exists_gap_trimStart raw
  obtain ⟨gap', hgap', hrev⟩ := exists_gap_trimStart (Text.trimStart raw).reverse
  refine ⟨gap, gap'.reverse, hgap, hgap'.reverse, ?_⟩
  have h : Text.trimStart raw = Text.trim raw ++ gap'.reverse := by
    rw [← List.reverse_inj, hrev, Text.trim]
    simp
  rw [← h]
  exact hraw

theorem trim_gaps {gap core gap' : List Char} (hgap : AllBlank gap) (hgap' : AllBlank gap')
    (hstart : StartsTight core) (hend : StartsTight core.reverse) :
    Text.trim (gap ++ (core ++ gap')) = core := by
  unfold Text.trim
  rw [trimStart_gap hgap (hstart.append _), List.reverse_append,
    trimStart_gap hgap'.reverse hend, List.reverse_reverse]

theorem trim_eq_nil {raw : List Char} : Text.trim raw = [] ↔ AllBlank raw := by
  constructor
  · intro h
    obtain ⟨gap, gap', hgap, hgap', hraw⟩ := exists_gaps_trim raw
    rw [hraw, h]
    intro c hc
    rcases List.mem_append.1 hc with hc | hc
    · exact hgap c hc
    · exact hgap' c hc
  · intro h
    unfold Text.trim
    rw [trimStart_eq_nil h]
    rfl

/-- A text in front of a trimmed line is in front of the line. -/
theorem splitMark?_trim {mark raw : List Char} (hstart : StartsTight mark)
    (hend : StartsTight mark.reverse) :
    (splitMark? mark (Text.trim raw)).isSome = true ↔
      ∃ gap rest, AllBlank gap ∧ raw = gap ++ (mark ++ rest) := by
  rw [Option.isSome_iff_exists]
  constructor
  · rintro ⟨rest, h⟩
    obtain ⟨gap, gap', hgap, -, hraw⟩ := exists_gaps_trim raw
    rw [splitMark?_eq_some.1 h, List.append_assoc] at hraw
    exact ⟨gap, rest ++ gap', hgap, hraw⟩
  · rintro ⟨gap, rest, hgap, rfl⟩
    obtain ⟨gap', hgap', hrest⟩ := exists_gap_trimStart rest.reverse
    -- The mark ends with what is no blank, so only the rest is cut at its end.
    have htrim : Text.trim (gap ++ (mark ++ rest)) =
        mark ++ (Text.trimStart rest.reverse).reverse := by
      have hsplit : rest = (Text.trimStart rest.reverse).reverse ++ gap'.reverse := by
        rw [← List.reverse_append, ← hrest, List.reverse_reverse]
      have hcore : StartsTight (mark ++ (Text.trimStart rest.reverse).reverse).reverse := by
        rw [List.reverse_append, List.reverse_reverse]
        cases h : Text.trimStart rest.reverse with
        | nil => exact hend
        | cons c cs =>
          have hc := List.head?_dropWhile_not Text.isBlank rest.reverse
          rw [show rest.reverse.dropWhile Text.isBlank = c :: cs from h] at hc
          exact startsTight_cons hc
      conv_lhs => rw [hsplit, ← List.append_assoc mark]
      exact trim_gaps hgap hgap'.reverse (hstart.append _) hcore
    exact ⟨_, splitMark?_eq_some.2 htrim⟩

/-! ## Remarks -/

theorem commentMark_tight (d : Dialect) :
    StartsTight d.commentMark ∧ StartsTight d.commentMark.reverse := by
  cases d with
  | plantuml => exact ⟨startsTight_cons (by decide), startsTight_cons (by decide)⟩
  | mermaid => exact ⟨startsTight_cons (by decide), startsTight_cons (by decide)⟩

theorem isRemark_iff {d : Dialect} {raw : List Char} :
    d.isRemark raw = true ↔ AllBlank raw ∨ IsComment d raw := by
  simp only [Dialect.isRemark, Bool.or_eq_true, List.isEmpty_iff, trim_eq_nil]
  rw [splitMark?_trim (commentMark_tight d).1 (commentMark_tight d).2]
  rfl

/-! ## Directives and headers -/

/-- A blank belongs to no word. -/
theorem isWord_of_isBlank {c : Char} (h : Text.isBlank c = true) : Text.isWord c = false := by
  have hn : c.toNat ∈ [9, 10, 11, 12, 13, 28, 29, 30, 31, 32, 0x85, 0xa0, 0x1680, 0x2000,
      0x2001, 0x2002, 0x2003, 0x2004, 0x2005, 0x2006, 0x2007, 0x2008, 0x2009, 0x200a, 0x2028,
      0x2029, 0x202f, 0x205f, 0x3000] := by
    simp only [Text.isBlank, Bool.or_eq_true, Bool.and_eq_true, decide_eq_true_eq,
      beq_iff_eq] at h
    simp only [List.mem_cons, List.not_mem_nil, or_false]
    omega
  have hall : ∀ n ∈ [9, 10, 11, 12, 13, 28, 29, 30, 31, 32, 0x85, 0xa0, 0x1680, 0x2000,
      0x2001, 0x2002, 0x2003, 0x2004, 0x2005, 0x2006, 0x2007, 0x2008, 0x2009, 0x200a, 0x2028,
      0x2029, 0x202f, 0x205f, 0x3000], Text.inRanges Text.wordRanges n = false := by
    decide +kernel
  exact hall _ hn

theorem isBlank_of_isWord {c : Char} (h : Text.isWord c = true) : Text.isBlank c = false := by
  by_contra hb
  rw [isWord_of_isBlank (by simpa using hb)] at h
  cases h

theorem afterWordAndBlank?_eq_some {word : String} {cs rest : List Char} :
    afterWordAndBlank? word cs = some rest ↔
      ∃ c cs', Text.isBlank c = true ∧ cs = word.toList ++ c :: cs' ∧
        Text.trimStart cs' = rest := by
  constructor
  · intro h
    unfold afterWordAndBlank? at h
    split at h
    · rename_i c cs' hmark
      split at h
      · rename_i hc
        cases h
        exact ⟨c, cs', hc, splitMark?_eq_some.1 hmark, rfl⟩
      · cases h
    · cases h
  · rintro ⟨c, cs', hc, rfl, rfl⟩
    have hmark : splitMark? word.toList (word.toList ++ c :: cs') = some (c :: cs') :=
      splitMark?_eq_some.2 rfl
    simp [afterWordAndBlank?, hmark, hc]

/-- What stands behind a word and some blanks. -/
theorem afterWordAndBlank?_tight {word : String} {cs rest : List Char} (hrest : StartsTight rest) :
    afterWordAndBlank? word cs = some rest ↔
      ∃ sep, sep ≠ [] ∧ AllBlank sep ∧ cs = word.toList ++ (sep ++ rest) := by
  rw [afterWordAndBlank?_eq_some]
  constructor
  · rintro ⟨c, cs', hc, rfl, ht⟩
    obtain ⟨gap, hgap, rfl⟩ := (trimStart_eq_iff hrest).1 ht
    refine ⟨c :: gap, by simp, ?_, rfl⟩
    intro x hx
    rcases List.mem_cons.1 hx with rfl | hx
    · exact hc
    · exact hgap x hx
  · rintro ⟨sep, hne, hsep, rfl⟩
    cases sep with
    | nil => exact absurd rfl hne
    | cons c gap =>
      refine ⟨c, gap ++ rest, hsep c (by simp), rfl, ?_⟩
      exact trimStart_gap (fun x hx => hsep x (by simp [hx])) hrest

theorem startsTight_word {c : Char} (h : Text.isWord c = true) (rest : List Char) :
    StartsTight (c :: rest) := startsTight_cons (isBlank_of_isWord h)

theorem directiveStart_tight {body : List Char} (h : DirectiveStart body) :
    StartsTight body := by
  cases h with
  | start => exact ⟨'@', by decide, by decide⟩
  | finish => exact ⟨'@', by decide, by decide⟩
  | hideEmpty =>
    have hhide : StartsTight "hide".toList := ⟨'h', by decide, by decide⟩
    exact hhide.append _
  | skinparam =>
    have hskin : StartsTight "skinparam".toList := ⟨'s', by decide, by decide⟩
    exact hskin.append _

theorem isDirective_trimmed {cs : List Char} :
    ((splitMark? "@startuml".toList cs).isSome || (splitMark? "@enduml".toList cs).isSome ||
      (match afterWordAndBlank? "hide" cs with
        | some rest => (afterWordAndBlank? "empty" rest).isSome
        | none => false) ||
      (match afterWordAndBlank? "skinparam" cs with
        | some (c :: _) => Text.isWord c
        | _ => false)) = true ↔
    ∃ body rest, DirectiveStart body ∧ cs = body ++ rest := by
  have hempty : StartsTight "empty".toList := ⟨'e', by decide, by decide⟩
  simp only [Bool.or_eq_true, Option.isSome_iff_exists]
  constructor
  · rintro (((⟨rest, h⟩ | ⟨rest, h⟩) | h) | h)
    · exact ⟨_, rest, .start, splitMark?_eq_some.1 h⟩
    · exact ⟨_, rest, .finish, splitMark?_eq_some.1 h⟩
    · split at h
      · rename_i rest hrest
        obtain ⟨rest', h'⟩ := Option.isSome_iff_exists.1 h
        obtain ⟨c, cs', hc, rfl, -⟩ := afterWordAndBlank?_eq_some.1 h'
        obtain ⟨sep, hne, hsep, rfl⟩ :=
          (afterWordAndBlank?_tight (hempty.append (c :: cs'))).1 hrest
        exact ⟨_, cs', .hideEmpty hne hsep hc, by simp⟩
      · cases h
    · split at h
      · rename_i c rest hrest
        obtain ⟨sep, hne, hsep, rfl⟩ := (afterWordAndBlank?_tight
          (startsTight_word h rest)).1 hrest
        exact ⟨_, rest, .skinparam hne hsep h, by simp⟩
      · cases h
  · rintro ⟨body, rest, hbody, rfl⟩
    cases hbody with
    | start => exact .inl (.inl (.inl ⟨rest, splitMark?_eq_some.2 rfl⟩))
    | finish => exact .inl (.inl (.inr ⟨rest, splitMark?_eq_some.2 rfl⟩))
    | @hideEmpty sep c hne hsep hc =>
      refine .inl (.inr ?_)
      have hlast : afterWordAndBlank? "empty" ("empty".toList ++ c :: rest) =
          some (Text.trimStart rest) := afterWordAndBlank?_eq_some.2 ⟨c, rest, hc, rfl, rfl⟩
      have hhide : afterWordAndBlank? "hide"
          ("hide".toList ++ (sep ++ ("empty".toList ++ [c])) ++ rest) =
          some ("empty".toList ++ c :: rest) :=
        (afterWordAndBlank?_tight (hempty.append (c :: rest))).2 ⟨sep, hne, hsep, by simp⟩
      rw [hhide]
      simp only [hlast, Option.isSome_some]
    | @skinparam sep c hne hsep hc =>
      right
      have hskin : afterWordAndBlank? "skinparam"
          ("skinparam".toList ++ (sep ++ [c]) ++ rest) = some (c :: rest) :=
        (afterWordAndBlank?_tight (startsTight_word hc rest)).2 ⟨sep, hne, hsep, by simp⟩
      rw [hskin]
      exact hc

theorem isDirective_iff {raw : List Char} : isDirective raw = true ↔ IsDirective raw := by
  refine Iff.trans (@isDirective_trimmed (Text.trimStart raw)) ?_
  constructor
  · rintro ⟨body, rest, hbody, h⟩
    obtain ⟨gap, hgap, hraw⟩ := (trimStart_eq_iff ((directiveStart_tight hbody).append rest)).1 h
    exact ⟨gap, body, rest, hgap, hbody, hraw⟩
  · rintro ⟨gap, body, rest, hgap, hbody, rfl⟩
    exact ⟨body, rest, hbody, trimStart_gap hgap ((directiveStart_tight hbody).append rest)⟩

theorem isLabelled_iff {word : String} {cs : List Char} :
    isLabelled word cs = true ↔ cs = word.toList ∨ ∃ sep label, sep ≠ [] ∧ AllBlank sep ∧
      label ≠ [] ∧ (∀ c ∈ label, Text.isWord c = true) ∧ cs = word.toList ++ (sep ++ label) := by
  have hword : ∀ {label : List Char}, label ≠ [] → (∀ c ∈ label, Text.isWord c = true) →
      StartsTight label := by
    intro label hne hall
    cases label with
    | nil => exact absurd rfl hne
    | cons c label => exact startsTight_word (hall c (by simp)) label
  simp only [isLabelled, Bool.or_eq_true, beq_iff_eq]
  apply or_congr_right
  constructor
  · intro h
    split at h
    · rename_i label hlabel
      simp only [Bool.and_eq_true, Bool.not_eq_true', List.isEmpty_eq_false_iff,
        List.all_eq_true] at h
      obtain ⟨sep, hne, hsep, hcs⟩ := (afterWordAndBlank?_tight (hword h.1 h.2)).1 hlabel
      exact ⟨sep, label, hne, hsep, h.1, h.2, hcs⟩
    · cases h
  · rintro ⟨sep, label, hne, hsep, hl, hall, rfl⟩
    rw [(afterWordAndBlank?_tight (hword hl hall)).2 ⟨sep, hne, hsep, rfl⟩]
    simpa [hl] using hall

theorem headerBody_tight {body : List Char} (h : HeaderBody body) :
    StartsTight body ∧ StartsTight body.reverse := by
  have hend : ∀ {cs label : List Char}, label ≠ [] →
      (∀ c ∈ label, Text.isWord c = true) → StartsTight (cs ++ label).reverse := by
    intro cs label hne hall
    rw [List.reverse_append]
    cases h : label.reverse with
    | nil => exact absurd (List.reverse_eq_nil_iff.1 h) hne
    | cons c rest =>
      have hc : c ∈ label := List.mem_reverse.1 (h ▸ List.mem_cons_self)
      exact startsTight_word (hall c hc) _
  have hgraph : StartsTight "graph".toList := ⟨'g', by decide, by decide⟩
  have hflow : StartsTight "flowchart".toList := ⟨'f', by decide, by decide⟩
  cases h with
  | states => exact ⟨⟨'s', by decide, by decide⟩, 'm', by decide, by decide⟩
  | statesV2 => exact ⟨⟨'s', by decide, by decide⟩, '2', by decide, by decide⟩
  | alone hword =>
    rcases hword with rfl | rfl
    · exact ⟨hgraph, 'h', by decide, by decide⟩
    · exact ⟨hflow, 't', by decide, by decide⟩
  | labelled hword hne hsep hlabel hall =>
    rw [← List.append_assoc]
    refine ⟨?_, hend hlabel hall⟩
    rcases hword with rfl | rfl
    · exact (hgraph.append _).append _
    · exact (hflow.append _).append _

theorem isHeader_trimmed {cs : List Char} :
    (cs == "stateDiagram".toList || cs == "stateDiagram-v2".toList || isLabelled "graph" cs ||
      isLabelled "flowchart" cs) = true ↔ HeaderBody cs := by
  simp only [Bool.or_eq_true, beq_iff_eq, isLabelled_iff]
  constructor
  · rintro (((rfl | rfl) | (rfl | ⟨sep, label, hne, hsep, hl, hall, rfl⟩)) |
      (rfl | ⟨sep, label, hne, hsep, hl, hall, rfl⟩))
    · exact .states
    · exact .statesV2
    · exact .alone (.inl rfl)
    · exact .labelled (.inl rfl) hne hsep hl hall
    · exact .alone (.inr rfl)
    · exact .labelled (.inr rfl) hne hsep hl hall
  · intro h
    cases h with
    | states => exact .inl (.inl (.inl rfl))
    | statesV2 => exact .inl (.inl (.inr rfl))
    | alone hword =>
      rcases hword with rfl | rfl
      · exact .inl (.inr (.inl rfl))
      · exact .inr (.inl rfl)
    | @labelled _ sep label hword hne hsep hl hall =>
      rcases hword with rfl | rfl
      · exact .inl (.inr (.inr ⟨sep, label, hne, hsep, hl, hall, rfl⟩))
      · exact .inr (.inr ⟨sep, label, hne, hsep, hl, hall, rfl⟩)

theorem isHeader_iff {raw : List Char} : isHeader raw = true ↔ IsHeader raw := by
  refine Iff.trans (@isHeader_trimmed (Text.trim raw)) ?_
  constructor
  · intro h
    obtain ⟨gap, gap', hgap, hgap', hraw⟩ := exists_gaps_trim raw
    exact ⟨gap, Text.trim raw, gap', hgap, h, hgap', hraw⟩
  · rintro ⟨gap, body, gap', hgap, hbody, hgap', rfl⟩
    rwa [trim_gaps hgap hgap' (headerBody_tight hbody).1 (headerBody_tight hbody).2]

/-! ## Edge lines are nothing else -/

/-- An edge line has an arrow behind its source. -/
theorem IsEdgeLine.head {d : Dialect} {raw : List Char} {a : Arrow} (h : IsEdgeLine d raw a) :
    ∃ gap gap' rest, AllBlank gap ∧ AllBlank gap' ∧ a.source.IsNamed ∧
      raw = gap ++ (a.source.token ++ (gap' ++ (['-', '-', '>'] ++ rest))) := by
  obtain ⟨⟨pieces, last⟩, hnamed, htokens, hblank, -, rfl⟩ := h
  obtain ⟨tail, htail⟩ : ∃ tail, a.tokens d = a.source.token :: ['-', '-', '>'] :: tail := by
    cases d with
    | plantuml => exact ⟨_, rfl⟩
    | mermaid => exact ⟨_, rfl⟩
  rw [htail] at htokens
  match pieces with
  | [] => simp at htokens
  | [p] => simp at htokens
  | (gap, token) :: (gap', token') :: pieces =>
    simp only [List.map_cons, List.cons.injEq] at htokens
    obtain ⟨rfl, rfl, -⟩ := htokens
    refine ⟨gap, gap', (Cut.mk pieces last).line, hblank (gap, a.source.token) (by simp),
      hblank (gap', ['-', '-', '>']) (by simp), hnamed.source, ?_⟩
    rw [Cut.line_cons, Cut.line_cons]

theorem IsEdgeLine.trimStart {d : Dialect} {raw : List Char} {a : Arrow}
    (h : IsEdgeLine d raw a) :
    ∃ gap' rest, AllBlank gap' ∧ a.source.IsNamed ∧
      Text.trimStart raw = a.source.token ++ (gap' ++ (['-', '-', '>'] ++ rest)) := by
  obtain ⟨gap, gap', rest, hgap, hgap', hn, rfl⟩ := h.head
  exact ⟨gap', rest, hgap', hn, trimStart_gap hgap ((startsTight_token hn).append _)⟩

/-- A line that begins with what begins no node is no edge line. -/
theorem not_isEdgeLine_of_head {d : Dialect} {raw : List Char} {a : Arrow} {c : Char}
    (hraw : (Text.trimStart raw).head? = some c) (hc : isNameStart c = false)
    (hbracket : c ≠ '[') : ¬ IsEdgeLine d raw a := by
  intro h
  obtain ⟨gap', rest, -, hn, ht⟩ := h.trimStart
  rw [ht] at hraw
  cases hs : a.source with
  | pseudo =>
    simp only [hs, Node.token, List.cons_append, List.head?_cons, Option.some.injEq] at hraw
    exact hbracket hraw.symm
  | state s =>
    simp only [hs, Node.token, Node.IsNamed] at hraw hn
    cases hl : s.toList with
    | nil => rw [hl] at hn; cases hn
    | cons x xs =>
      rw [hl] at hn hraw
      simp only [List.cons_append, List.head?_cons, Option.some.injEq] at hraw
      simp only [isName, Bool.and_eq_true] at hn
      rw [← hraw, hn.1] at hc
      cases hc

theorem IsEdgeLine.not_allBlank {d : Dialect} {raw : List Char} {a : Arrow}
    (h : IsEdgeLine d raw a) : ¬ AllBlank raw := by
  intro hb
  obtain ⟨gap', rest, -, -, ht⟩ := h.trimStart
  rw [trimStart_eq_nil hb] at ht
  simp at ht

theorem IsEdgeLine.not_isComment {d : Dialect} {raw : List Char} {a : Arrow}
    (h : IsEdgeLine d raw a) : ¬ IsComment d raw := by
  rintro ⟨gap, rest, hgap, hraw⟩
  have ht : Text.trimStart raw = d.commentMark ++ rest := by
    rw [hraw]
    exact trimStart_gap hgap ((commentMark_tight d).1.append rest)
  cases d with
  | plantuml =>
    have hc : (Text.trimStart raw).head? = some '\'' := by rw [ht]; rfl
    exact not_isEdgeLine_of_head hc (by decide) (by decide) h
  | mermaid =>
    have hc : (Text.trimStart raw).head? = some '%' := by rw [ht]; rfl
    exact not_isEdgeLine_of_head hc (by decide) (by decide) h

/-- Behind the first name of an edge line and its blanks stands an arrow. -/
theorem IsEdgeLine.behind_word {d : Dialect} {raw : List Char} {a : Arrow} {word : List Char}
    {sep rest : List Char} (h : IsEdgeLine d raw a) (hword : isName word = true)
    (hne : sep ≠ []) (hsep : AllBlank sep) (hrest : StartsTight rest)
    (ht : Text.trimStart raw = word ++ (sep ++ rest)) : rest.head? = some '-' := by
  obtain ⟨gap', tail, hgap', hn, ht'⟩ := h.trimStart
  have hstop : StopsName (sep ++ rest) := by
    cases sep with
    | nil => exact absurd rfl hne
    | cons c sep => exact stopsName_of_ne (isNameChar_of_isBlank (hsep c (by simp)))
  have hstop' : StopsName (gap' ++ (['-', '-', '>'] ++ tail)) :=
    stopsName_gap hgap' (stopsName_of_ne (by decide))
  -- Both readings of the line split the same node off.
  have hnode : splitNode? (Text.trimStart raw) =
      some (.state (String.ofList word), word.length, sep ++ rest) := by
    have hw : (Node.state (String.ofList word)).IsNamed := by simpa [Node.IsNamed] using hword
    have := splitNode?_complete hw hstop
    simpa [Node.token, ht] using this
  rw [ht', splitNode?_complete hn hstop'] at hnode
  simp only [Option.some.injEq, Prod.mk.injEq] at hnode
  have harrow : StartsTight (['-', '-', '>'] ++ tail) := startsTight_cons (by decide)
  rw [← (eq_of_gap_eq hgap' hsep harrow hrest hnode.2.2).2]
  rfl

theorem IsEdgeLine.not_isDirective {d : Dialect} {raw : List Char} {a : Arrow}
    (h : IsEdgeLine d raw a) : ¬ IsDirective raw := by
  rintro ⟨gap, body, rest, hgap, hbody, hraw⟩
  have ht : Text.trimStart raw = body ++ rest := by
    rw [hraw]
    exact trimStart_gap hgap ((directiveStart_tight hbody).append rest)
  cases hbody with
  | start =>
    have hc : (Text.trimStart raw).head? = some '@' := by rw [ht]; rfl
    exact not_isEdgeLine_of_head hc (by decide) (by decide) h
  | finish =>
    have hc : (Text.trimStart raw).head? = some '@' := by rw [ht]; rfl
    exact not_isEdgeLine_of_head hc (by decide) (by decide) h
  | @hideEmpty sep c hne hsep hc =>
    have hempty : StartsTight "empty".toList := ⟨'e', by decide, by decide⟩
    have hhead := h.behind_word (by decide : isName "hide".toList = true) hne hsep
      (hempty.append (c :: rest)) (by rw [ht]; simp)
    have he : ("empty".toList ++ c :: rest).head? = some 'e' := rfl
    rw [he] at hhead
    cases hhead
  | @skinparam sep c hne hsep hc =>
    have hhead := h.behind_word (by decide : isName "skinparam".toList = true) hne hsep
      (startsTight_word hc rest) (by rw [ht]; simp)
    simp only [List.head?_cons, Option.some.injEq] at hhead
    rw [hhead] at hc
    exact absurd hc (by decide +kernel)

/-- No header has the tip of an arrow. -/
theorem HeaderBody.not_mem {body : List Char} (h : HeaderBody body) : '>' ∉ body := by
  have hsep : ∀ {sep : List Char}, AllBlank sep → '>' ∉ sep := fun hs hm =>
    absurd (hs _ hm) (by decide)
  have hlabel : ∀ {label : List Char}, (∀ c ∈ label, Text.isWord c = true) → '>' ∉ label :=
    fun hl hm => absurd (hl _ hm) (by decide +kernel)
  have hword : ∀ {word : String}, word = "graph" ∨ word = "flowchart" → '>' ∉ word.toList := by
    rintro word (rfl | rfl)
    · decide
    · decide
  cases h with
  | states => decide
  | statesV2 => decide
  | alone hw => exact hword hw
  | labelled hw hne hs hl hall =>
    simp only [List.mem_append, not_or]
    exact ⟨hword hw, hsep hs, hlabel hall⟩

theorem IsEdgeLine.not_isHeader {d : Dialect} {raw : List Char} {a : Arrow}
    (h : IsEdgeLine d raw a) : ¬ IsHeader raw := by
  rintro ⟨gap, body, gap', hgap, hbody, hgap', hraw⟩
  have hsep : ∀ {sep : List Char}, AllBlank sep → '>' ∉ sep := fun hs hm =>
    absurd (hs _ hm) (by decide)
  have hnot : '>' ∉ raw := by
    rw [hraw]
    simp only [List.mem_append, not_or]
    exact ⟨hsep hgap, hbody.not_mem, hsep hgap'⟩
  obtain ⟨_, _, rest, -, -, -, rfl⟩ := h.head
  exact hnot (by simp)

/-! ## The walk over the lines -/

namespace Dialect

open Classical in
/-- The arrow that a line shows, if it is an edge line. -/
noncomputable def arrow? (d : Dialect) (raw : List Char) : Option Arrow :=
  if h : ∃ a, IsEdgeLine d raw a then some h.choose else none

theorem arrow?_eq_some {d : Dialect} {raw : List Char} {a : Arrow} :
    d.arrow? raw = some a ↔ IsEdgeLine d raw a := by
  unfold arrow?
  constructor
  · intro h
    split at h
    · rename_i hex
      cases h
      exact hex.choose_spec
    · cases h
  · intro h
    have hex : ∃ a, IsEdgeLine d raw a := ⟨a, h⟩
    rw [dif_pos hex, hex.choose_spec.unique h]

theorem arrow?_eq_none {d : Dialect} {raw : List Char} (h : ∀ a, ¬ IsEdgeLine d raw a) :
    d.arrow? raw = none := by
  rw [Option.eq_none_iff_forall_ne_some]
  exact fun a ha => h a (arrow?_eq_some.1 ha)

/-- The arrows of some lines, in their order. -/
noncomputable def arrows (d : Dialect) (lines : List (List Char)) : List Arrow :=
  lines.filterMap d.arrow?

/-- The edges of some lines, of which the first has the given number. -/
noncomputable def numbered (d : Dialect) (line : Nat) : List (List Char) → List Edge
  | [] => []
  | raw :: rest =>
    ((d.arrow? raw).map (·.onLine line)).toList ++ d.numbered (line + 1) rest

theorem numbered_arrows (d : Dialect) (line : Nat) (lines : List (List Char)) :
    (d.numbered line lines).map Edge.arrow = d.arrows lines := by
  induction lines generalizing line with
  | nil => rfl
  | cons raw rest ih =>
    simp only [numbered, arrows, List.map_append, ih, List.filterMap_cons]
    cases d.arrow? raw <;> rfl

/-- Each line fits behind those before it. -/
def AllFit (d : Dialect) (before : List (List Char)) : List (List Char) → Prop
  | [] => True
  | raw :: rest => Fits d before raw ∧ d.AllFit (before ++ [raw]) rest

theorem allFit_iff {d : Dialect} {before lines : List (List Char)} :
    d.AllFit before lines ↔
      ∀ i raw, lines[i]? = some raw → Fits d (before ++ lines.take i) raw := by
  induction lines generalizing before with
  | nil => simp [AllFit]
  | cons line rest ih =>
    rw [AllFit, ih]
    constructor
    · rintro ⟨h, hrest⟩ i raw hi
      cases i with
      | zero =>
        cases hi
        simpa using h
      | succ i => simpa using hrest i raw hi
    · intro h
      refine ⟨by simpa using h 0 line rfl, ?_⟩
      intro i raw hi
      simpa using h (i + 1) raw hi

/-- Only remarks stand before a line that may still be a header. -/
def OnlyRemarks (d : Dialect) (before : List (List Char)) : Prop :=
  ∀ line ∈ before, AllBlank line ∨ IsComment d line

theorem isPreamble_iff {d : Dialect} {first : Bool} {raw : List Char} :
    d.isPreamble first raw = true ↔ (d = .plantuml ∧ IsDirective raw) ∨
      (d = .mermaid ∧ first = true ∧ IsHeader raw) := by
  cases d with
  | plantuml => simp [isPreamble, isDirective_iff]
  | mermaid => simp [isPreamble, isHeader_iff]

theorem edgesFrom_eq_ok {d : Dialect} {first : Bool} {before lines : List (List Char)}
    {line : Nat} {es : List Edge} (hfirst : first = true ↔ d.OnlyRemarks before) :
    d.edgesFrom first line lines = .ok es ↔
      d.AllFit before lines ∧ es = d.numbered line lines := by
  induction lines generalizing before first line es with
  | nil => simp [edgesFrom, AllFit, numbered, eq_comm]
  | cons raw rest ih =>
    simp only [edgesFrom, AllFit, numbered]
    by_cases hremark : d.isRemark raw = true
    · have hraw := isRemark_iff.1 hremark
      have hnone : d.arrow? raw = none := arrow?_eq_none fun a ha =>
        hraw.elim ha.not_allBlank ha.not_isComment
      have hfit : Fits d before raw := hraw.elim .blank .comment
      have hfirst' : first = true ↔ d.OnlyRemarks (before ++ [raw]) := by
        simp only [hfirst, OnlyRemarks, List.forall_mem_append, List.forall_mem_singleton, hraw,
          and_true]
      simp [hremark, hnone, hfit, ih hfirst']
    · have hraw : ¬ (AllBlank raw ∨ IsComment d raw) := fun h => hremark (isRemark_iff.2 h)
      have hfirst' : false = true ↔ d.OnlyRemarks (before ++ [raw]) := by
        simp only [OnlyRemarks, List.forall_mem_append, List.forall_mem_singleton, hraw,
          and_false, Bool.false_eq_true]
      by_cases hpre : d.isPreamble first raw = true
      · have hpre' := isPreamble_iff.1 hpre
        have hnone : d.arrow? raw = none := arrow?_eq_none fun a ha =>
          hpre'.elim (fun h => ha.not_isDirective h.2) (fun h => ha.not_isHeader h.2.2)
        have hfit : Fits d before raw := hpre'.elim (fun h => .directive h.1 h.2)
          (fun h => .header h.1 h.2.2 (hfirst.1 h.2.1))
        simp [hremark, hpre, hnone, hfit, ih hfirst']
      · -- The line is neither left out as a remark nor as a preamble, so it is read.
        have hfit : Fits d before raw ↔ ∃ a, IsEdgeLine d raw a := by
          constructor
          · intro h
            cases h with
            | blank h => exact absurd (.inl h) hraw
            | comment h => exact absurd (.inr h) hraw
            | directive hd h => exact absurd (isPreamble_iff.2 (.inl ⟨hd, h⟩)) hpre
            | header hd h hf =>
              exact absurd (isPreamble_iff.2 (.inr ⟨hd, hfirst.2 hf, h⟩)) hpre
            | edge a h => exact ⟨a, h⟩
          · rintro ⟨a, h⟩
            exact .edge a h
        simp only [hremark, hpre, Bool.false_eq_true, if_false, hfit]
        cases hread : Edge.read d line raw with
        | error fault =>
          have hno : ∀ a, ¬ IsEdgeLine d raw a := by
            intro a ha
            rw [Edge.read_eq_ok.2 ⟨a, ha, rfl⟩] at hread
            cases hread
          simp [hno]
        | ok edge =>
          obtain ⟨a, ha, rfl⟩ := Edge.read_eq_ok.1 hread
          have hex : ∃ a, IsEdgeLine d raw a := ⟨a, ha⟩
          cases hrest : d.edgesFrom false (line + 1) rest with
          | error fault =>
            have hno : ¬ d.AllFit (before ++ [raw]) rest := by
              intro hall
              rw [(ih hfirst').2 ⟨hall, rfl⟩] at hrest
              cases hrest
            simp [hno]
          | ok es' =>
            obtain ⟨hall, rfl⟩ := (ih hfirst').1 hrest
            simp [hex, hall, arrow?_eq_some.2 ha, eq_comm]

/-- A diagram has edges exactly when all its lines fit, and then they are those of its edge
lines. -/
theorem edges_eq_ok {d : Dialect} {text : String} {es : List Edge} :
    d.edges text = .ok es ↔ d.AllFit [] (Text.lines text.toList) ∧
      es = d.numbered 1 (Text.lines text.toList) :=
  edgesFrom_eq_ok (by simp [OnlyRemarks])

end Dialect

end Turnstile

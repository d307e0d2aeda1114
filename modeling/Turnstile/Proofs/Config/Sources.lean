-- A diagram may stand in the configuration itself or in a file of its own. The two are read in
-- different ways, since only a file has its line ends made one, and yet they come to the same: the
-- lines of a text are those of the text with its line ends made one, and nothing else of a text
-- shows in its table or in what is wrong with it.
import Turnstile.Proofs.Config.Mapping

namespace Turnstile

/-! ## Line ends -/

namespace Text

variable {c : Char} {line rest : List Char}

/-- A line goes on to its first line end. A carriage return with a line feed behind it is one. -/
theorem linesFrom_cons (hpair : ∀ tail, c = '\r' → rest = '\n' :: tail → False) :
    linesFrom line (c :: rest) =
      if isLineEnd c then line.reverse :: linesFrom [] rest else linesFrom (c :: line) rest := by
  rw [linesFrom]
  exact hpair

/-- Making the line ends one leaves the lines as they are, in the middle of a line too. -/
theorem linesFrom_unifyLineEnds (cs line : List Char) :
    linesFrom line (unifyLineEnds cs) = linesFrom line cs := by
  have hfeed : isLineEnd '\n' = true := by decide
  have hreturn : isLineEnd '\r' = true := by decide
  have hone : ∀ line rest, linesFrom line ('\n' :: rest) = line.reverse :: linesFrom [] rest :=
    fun line rest => by simp [linesFrom_cons, hfeed]
  fun_induction unifyLineEnds cs generalizing line with
  | case1 => rfl
  | case2 rest ih =>
    rw [hone, ih, linesFrom]
  | case3 c rest hpair ih =>
    rw [linesFrom_cons hpair]
    split_ifs with hc hend hend
    · rw [hone, ih]
    · rw [hc] at hend
      exact absurd hreturn hend
    · rw [linesFrom_cons (by simp [hc]), if_pos hend, ih]
    · rw [linesFrom_cons (by simp [hc]), if_neg hend, ih]

/-- A text with its line ends made one. -/
def unified (text : String) : String := String.ofList (unifyLineEnds text.toList)

theorem lines_unified (text : String) : lines (unified text).toList = lines text.toList := by
  unfold unified lines
  rw [String.toList_ofList, linesFrom_unifyLineEnds]

end Text

/-- The table of a diagram, or what is wrong with it, goes by its lines alone. -/
theorem compileDiagram_unified (text dialect : String) :
    compileDiagram (Text.unified text) dialect = compileDiagram text dialect := by
  unfold compileDiagram
  cases Dialect.ofName? dialect with
  | none => rfl
  | some d =>
    show d.compile (Text.unified text) = d.compile text
    unfold Dialect.compile Dialect.edges
    rw [Text.lines_unified]

namespace Config

variable {read other : Reader} {p : Path} {inline filed : List (String × Value)}
  {text file : String}

/-! ## Where the text of a diagram comes from -/

/-- Reads the files whose bytes are given. -/
def readerOf (bytes : Path → Except Fault ByteArray) : Reader := fun p => bytes p >>= FileTree.decode

theorem read_eq (t : FileTree) : t.read = readerOf t.bytes := rfl

/-- A file that holds a text is read as the text with its line ends made one. -/
theorem readerOf_text {bytes : Path → Except Fault ByteArray} {path : Path}
    (hcontent : bytes path = .ok text.toUTF8) :
    readerOf bytes path = .ok (Text.unified text) := by
  have hutf8 : String.fromUTF8? text.toUTF8 = some text := dif_pos text.isValidUTF8
  unfold readerOf FileTree.decode
  rw [hcontent]
  simp only [bind, Except.bind, hutf8]
  rfl

/-- Two mappings hold the same beside the diagram. -/
def AgreeBeside (fields other : List (String × Value)) : Prop :=
  ∀ key, key ≠ "diagram" → key ≠ "diagram_file" → fields.lookup key = other.lookup key

/-- The diagram of a mapping is a text that stands in it. -/
structure Inline (fields : List (String × Value)) (text : String) : Prop where
  diagram : get fields "diagram" = .text text
  file : get fields "diagram_file" = .null

/-- The diagram of a mapping stands in a file that it names. -/
structure Filed (fields : List (String × Value)) (file : String) : Prop where
  diagram : get fields "diagram" = .null
  file : get fields "diagram_file" = .text file

theorem Inline.source (h : Inline inline text) : diagramSource p inline = .ok (.inline text) := by
  unfold diagramSource
  rw [h.diagram, h.file]

theorem Filed.source (h : Filed filed file) :
    diagramSource p filed = .ok (.file ((Path.ofText file).under p.parent)) := by
  unfold diagramSource
  rw [h.diagram, h.file]

/-- A configuration with the line ends of its diagram made one. -/
def unify (c : Config) : Config := { c with diagram := Text.unified c.diagram }

/-- The configuration with its diagram in a file is the one with the diagram inline, but for the line
ends; and where there is none, the same is wrong with both. -/
theorem ofFields_filed (hbeside : AgreeBeside inline filed) (hinline : Inline inline text)
    (hfiled : Filed filed file)
    (hread : other ((Path.ofText file).under p.parent) = .ok (Text.unified text)) :
    ofFields other p filed = (ofFields read p inline).map unify := by
  have hget : ∀ key, key ≠ "diagram" → key ≠ "diagram_file" → get filed key = get inline key :=
    fun key h h' => by simp only [get, hbeside key h h']
  have hname : nameOf p filed = nameOf p inline := by
    simp only [nameOf, hget "name" (by decide) (by decide)]
  have hdialect : dialectOf p filed = dialectOf p inline := by
    simp only [dialectOf, hbeside "syntax" (by decide) (by decide)]
  have hhooks : hooksOf p filed = hooksOf p inline := by
    simp only [hooksOf, hget "callbacks" (by decide) (by decide)]
  unfold ofFields
  simp only [hname, hdialect, hhooks, hinline.source, hfiled.source,
    hget "runtime" (by decide) (by decide), readDiagram, hread, bind, Except.bind]
  cases nameOf p inline with
  | error fault => rfl
  | ok name =>
    cases dialectOf p inline with
    | error fault => rfl
    | ok dialect =>
      cases hooksOf p inline with
      | error fault => rfl
      | ok hooks =>
        cases runtime p.text (get inline "runtime") with
        | error fault => rfl
        | ok settings => rfl

/-- The machine of a configuration does not go by the line ends of its diagram. -/
theorem build_unify (c : Config) (catalogue : Catalogue) :
    c.unify.build catalogue = c.build catalogue := by
  unfold build unify
  simp only [compileDiagram_unified]

/-- Whether a diagram stands in the mapping itself or in a UTF-8 file that the mapping names, the
same machine comes of it, or the same is reported: the text may have any line ends in any mix,
although they are made one in a file and left as they are in a mapping. -/
theorem a_diagram_may_stand_in_a_file_of_its_own (p : Path) (catalogue : Catalogue)
    (bytes bytes' : Path → Except Fault ByteArray) (inline filed : List (String × Value))
    (text file : String) (hbeside : AgreeBeside inline filed) (hinline : Inline inline text)
    (hfiled : Filed filed file)
    (hcontent : bytes' ((Path.ofText file).under p.parent) = .ok text.toUTF8) :
    (ofFields (readerOf bytes) p inline >>= fun c => c.build catalogue) =
        (ofFields (readerOf bytes') p filed >>= fun c => c.build catalogue) ∧
      (Config.fields (readerOf bytes) p = .ok inline →
        Config.fields (readerOf bytes') p = .ok filed →
        (load (readerOf bytes) p >>= fun c => c.build catalogue) =
          (load (readerOf bytes') p >>= fun c => c.build catalogue)) := by
  have hbuild : (ofFields (readerOf bytes) p inline >>= fun c => c.build catalogue) =
      (ofFields (readerOf bytes') p filed >>= fun c => c.build catalogue) := by
    have hsame : ofFields (readerOf bytes') p filed = (ofFields (readerOf bytes) p inline).map unify :=
      ofFields_filed hbeside hinline hfiled (readerOf_text hcontent)
    rw [hsame]
    cases ofFields (readerOf bytes) p inline with
    | error fault => rfl
    | ok c => exact (build_unify c catalogue).symm
  refine ⟨hbuild, fun hfields hfields' => ?_⟩
  rw [load_eq, load_eq, hfields, hfields']
  exact hbuild

/-- A text with line ends of three kinds is refused at its fourth line, in a file as in a mapping. -/
theorem mixed_line_ends_are_counted_alike :
    let text := "[*] --> a : go\r\n\r\n\ra --> b"
    let inline : List (String × Value) := [("name", .text "m"), ("diagram", .text text)]
    let filed : List (String × Value) := [("name", .text "m"), ("diagram_file", .text "d")]
    let t := ({} : FileTree).insert (.ofText "d") (.file text.toUTF8)
    let refused : Except Fault Machine := .error (.reported (DiagramFault.malformedLine "plantuml" 4 8
      "a --> b" "':' followed by the event name").report)
    AgreeBeside inline filed ∧ Inline inline text ∧ Filed filed "d" ∧
      t.bytes ((Path.ofText "d").under (Path.ofText "c").parent) = .ok text.toUTF8 ∧
      (ofFields (readerOf ({} : FileTree).bytes) (.ofText "c") inline >>= fun c => c.build []) =
        refused ∧
      (ofFields (readerOf t.bytes) (.ofText "c") filed >>= fun c => c.build []) = refused := by
  intro text inline filed t refused
  have hbeside : AgreeBeside inline filed := fun key hdiagram hfile => by
    have hdiagram' : (key == "diagram") = false := beq_false_of_ne hdiagram
    have hfile' : (key == "diagram_file") = false := beq_false_of_ne hfile
    simp only [inline, filed, List.lookup, hdiagram', hfile']
  have hcontent : t.bytes ((Path.ofText "d").under (Path.ofText "c").parent) = .ok text.toUTF8 := by
    cbv
  have hcompile : compileDiagram text "plantuml" = .error (.malformedLine "plantuml" 4 8 "a --> b"
      "':' followed by the event name") := by
    decide +kernel
  have hrefused : (ofFields (readerOf ({} : FileTree).bytes) (.ofText "c") inline >>=
      fun c => c.build []) = refused := by
    show (⟨"m", text, "plantuml", none, {}, "c"⟩ : Config).build [] = refused
    unfold build
    simp only [hcompile]
    rfl
  have hlaw := a_diagram_may_stand_in_a_file_of_its_own (.ofText "c") []
    ({} : FileTree).bytes t.bytes inline filed text "d" hbeside ⟨rfl, rfl⟩ ⟨rfl, rfl⟩ hcontent
  exact ⟨hbeside, ⟨rfl, rfl⟩, ⟨rfl, rfl⟩, hcontent, hrefused, hlaw.1.symm.trans hrefused⟩

end Config
end Turnstile

-- Names in paths: a name without a slash may be spelled with any of its characters escaped, and every
-- spelling leads to the routes of just this name. No path leads to a name with a slash in it.
import Mathlib
import Turnstile.Http.Route
import Turnstile.Http.Target
import Turnstile.Proofs.Text.Split
import Turnstile.Proofs.Text.Utf8

namespace Turnstile.Http

/-! ## Parts of a path -/

/-- The parts of a text are those of its list of characters. -/
theorem splitOn_slash (s : String) : s.splitOn "/" = (s.toList.splitOn '/').map String.ofList :=
  Text.splitOn_single '/' s

theorem not_mem_of_mem_splitOn {c : Char} {l part : List Char} (hpart : part ∈ l.splitOn c) :
    c ∉ part := by
  induction l generalizing part with
  | nil =>
    rw [List.splitOn_nil, List.mem_singleton] at hpart
    rw [hpart]
    exact List.not_mem_nil
  | cons d l ih =>
    rw [List.splitOn_cons_eq_if_modifyHead] at hpart
    split at hpart
    · rcases List.mem_cons.1 hpart with rfl | hpart
      · exact List.not_mem_nil
      · exact ih hpart
    · rename_i hd
      obtain ⟨first, parts, hparts⟩ := List.exists_cons_of_ne_nil (List.splitOn_ne_nil c l)
      rw [hparts] at ih hpart
      rcases List.mem_cons.1 hpart with rfl | hpart
      · have hfirst := ih List.mem_cons_self
        simp only [beq_iff_eq] at hd
        simp [hfirst, Ne.symm hd]
      · exact ih (List.mem_cons_of_mem _ hpart)

/-- Parts without slashes are got back from the path that they make. -/
theorem splitOn_intercalate {parts : List String} (hslash : ∀ part ∈ parts, '/' ∉ part.toList)
    (hne : parts ≠ []) : ("/".intercalate parts).splitOn "/" = parts := by
  have hparts : ("/".intercalate parts).toList.splitOn '/' = parts.map String.toList := by
    rw [String.toList_intercalate]
    refine List.splitOn_intercalate '/' ?_ (by simpa using hne)
    intro chars hchars
    obtain ⟨part, hpart, rfl⟩ := List.mem_map.1 hchars
    exact hslash part hpart
  rw [splitOn_slash, hparts, List.map_map]
  simp

theorem slash_not_mem_of_splitOn {s part : String} (hpart : part ∈ s.splitOn "/") :
    '/' ∉ part.toList := by
  rw [splitOn_slash] at hpart
  obtain ⟨chars, hchars, rfl⟩ := List.mem_map.1 hpart
  rw [String.toList_ofList]
  exact not_mem_of_mem_splitOn hchars

/-! ## Spellings -/

/-- A character that may stand in a path as it is. -/
def isUnreserved (c : Char) : Bool := c.isAlphanum || c ∈ ['-', '.', '_', '~']

theorem isUnreserved_ne {c : Char} (hc : isUnreserved c = true) :
    c ≠ '%' ∧ c ≠ '/' ∧ c ≠ '?' ∧ c ≠ '#' := by
  refine ⟨?_, ?_, ?_, ?_⟩ <;> rintro rfl <;> cases hc

theorem isUnreserved_of_digit {c : Char} (hc : isHexDigit c = true) : isUnreserved c = true := by
  have hlow : 'a' ≤ c ∧ c ≤ 'f' → c.isLower = true := fun ⟨ha, hf⟩ => by
    simpa [Char.isLower] using ⟨ha, le_trans hf (by decide : 'f' ≤ 'z')⟩
  have hup : 'A' ≤ c ∧ c ≤ 'F' → c.isUpper = true := fun ⟨ha, hf⟩ => by
    simpa [Char.isUpper] using ⟨ha, le_trans hf (by decide : 'F' ≤ 'Z')⟩
  simp only [isHexDigit, Bool.or_eq_true, Bool.and_eq_true, decide_eq_true_eq] at hc
  simp only [isUnreserved, Char.isAlphanum, Char.isAlpha, Bool.or_eq_true]
  tauto

/-- Escapes of some bytes, with digits of either case. -/
inductive Escapes : List Char → List UInt8 → Prop where
  | nil : Escapes [] []
  | cons {a b : Char} (ha : isHexDigit a = true) (hb : isHexDigit b = true) {cs : List Char}
    {bytes : List UInt8} (h : Escapes cs bytes) :
    Escapes ('%' :: a :: b :: cs) (UInt8.ofNat (16 * hexValue a + hexValue b) :: bytes)

/-- A text is spelled in a path: the bytes of each character are escaped, unless it may stand there as
it is. -/
inductive Spells : List Char → List Char → Prop where
  | nil : Spells [] []
  | kept {c : Char} (hc : isUnreserved c = true) {cs text : List Char} (h : Spells cs text) :
    Spells (c :: cs) (c :: text)
  | escaped {c : Char} {escape : List Char} (hescape : Escapes escape (String.utf8EncodeChar c))
    {cs text : List Char} (h : Spells cs text) : Spells (escape ++ cs) (c :: text)

theorem bytesOf_escapes {cs : List Char} {bytes : List UInt8} (h : Escapes cs bytes)
    (rest : List Char) : bytesOf (cs ++ rest) = bytes ++ bytesOf rest := by
  induction h with
  | nil => rfl
  | cons ha hb _ ih =>
    simp only [List.cons_append, bytesOf, ha, hb, Bool.and_self, if_true, ih]

theorem bytesOf_kept {c : Char} (hc : c ≠ '%') (rest : List Char) :
    bytesOf (c :: rest) = String.utf8EncodeChar c ++ bytesOf rest := by
  have hbytes : (String.singleton c).toUTF8.toList = String.utf8EncodeChar c := by
    rw [String.toUTF8_eq_toByteArray, String.toByteArray_singleton, List.utf8Encode,
      List.flatMap_singleton, toList_toByteArray]
  rw [bytesOf.eq_2, hbytes]
  rintro a b tail rfl
  exact absurd rfl hc

/-- The bytes of a spelling are those of the text. -/
theorem bytesOf_spells {cs text : List Char} (h : Spells cs text) (rest : List Char) :
    bytesOf (cs ++ rest) = text.flatMap String.utf8EncodeChar ++ bytesOf rest := by
  induction h with
  | nil => rfl
  | kept hc _ ih =>
    rw [List.cons_append, bytesOf_kept (isUnreserved_ne hc).1, ih, List.flatMap_cons,
      List.append_assoc]
  | escaped hescape _ ih =>
    rw [List.append_assoc, bytesOf_escapes hescape, ih, List.flatMap_cons, List.append_assoc]

theorem mem_of_escapes {cs : List Char} {bytes : List UInt8} (h : Escapes cs bytes) :
    ∀ c ∈ cs, c = '%' ∨ isHexDigit c = true := by
  induction h with
  | nil => simp
  | cons ha hb _ ih =>
    rintro c (_ | ⟨_, _ | ⟨_, _ | ⟨_, hc⟩⟩⟩)
    · exact .inl rfl
    · exact .inr ha
    · exact .inr hb
    · exact ih c hc

theorem mem_of_spells {cs text : List Char} (h : Spells cs text) :
    ∀ c ∈ cs, c = '%' ∨ isUnreserved c = true := by
  induction h with
  | nil => simp
  | kept hc _ ih => exact List.forall_mem_cons.2 ⟨.inr hc, ih⟩
  | escaped hescape _ ih =>
    exact List.forall_mem_append.2
      ⟨fun c hc => (mem_of_escapes hescape c hc).imp_right isUnreserved_of_digit, ih⟩

/-- Nothing in a spelling divides a path or ends it. -/
theorem ne_of_mem_spells {cs text : List Char} (h : Spells cs text) {c : Char} (hc : c ∈ cs) :
    c ≠ '/' ∧ c ≠ '?' ∧ c ≠ '#' := by
  rcases mem_of_spells h c hc with rfl | hc
  · decide
  · exact (isUnreserved_ne hc).2

/-- A byte with its digits. -/
def escapeOf (byte : UInt8) : List Char :=
  ['%', Nat.digitChar (byte.toNat / 16), Nat.digitChar (byte.toNat % 16)]

theorem escapes_escapeOf (bytes : List UInt8) : Escapes (bytes.flatMap escapeOf) bytes := by
  have hdigit : ∀ n < 16, isHexDigit n.digitChar = true ∧ hexValue n.digitChar = n := by decide
  induction bytes with
  | nil => exact .nil
  | cons byte bytes ih =>
    obtain ⟨hhigh, hhighValue⟩ := hdigit (byte.toNat / 16) (by have := byte.toNat_lt; omega)
    obtain ⟨hlow, hlowValue⟩ := hdigit (byte.toNat % 16) (by omega)
    have hescape := Escapes.cons hhigh hlow ih
    rwa [hhighValue, hlowValue, Nat.div_add_mod, UInt8.ofNat_toNat] at hescape

/-- A text with all of its bytes escaped. -/
def escaped (text : List Char) : List Char :=
  text.flatMap fun c => (String.utf8EncodeChar c).flatMap escapeOf

theorem spells_escaped (text : List Char) : Spells (escaped text) text := by
  induction text with
  | nil => exact .nil
  | cons c text ih => exact .escaped (escapes_escapeOf _) ih

/-! ## Names in paths -/

/-- A spelling of a name that may stand as a part of a path, where a single dot and two dots mean
something else. -/
structure Spelling (name s : String) : Prop where
  spells : Spells s.toList name.toList
  notHere : s ≠ "."
  notUp : s ≠ ".."

/-- Every name has such a spelling. -/
theorem exists_spelling (name : String) : ∃ s, Spelling name s := by
  have hdot : '.' ∉ escaped name.toList := by
    unfold escaped
    simp only [List.mem_flatMap, not_exists, not_and]
    intro c _ byte _ hmem
    have hchars := mem_of_escapes (escapes_escapeOf [byte]) '.' (by simpa using hmem)
    revert hchars
    decide
  have hne : ∀ s : String, '.' ∈ s.toList → String.ofList (escaped name.toList) ≠ s := by
    rintro s hs rfl
    exact hdot (by simpa using hs)
  refine ⟨.ofList (escaped name.toList), ?_, hne "." (by decide), hne ".." (by decide)⟩
  rw [String.toList_ofList]
  exact spells_escaped _

/-- A name of characters that may stand in a path as they are. -/
theorem spelling_self {name : String} (hchars : name.toList.all isUnreserved = true)
    (hhere : name ≠ ".") (hup : name ≠ "..") : Spelling name name := by
  refine ⟨?_, hhere, hup⟩
  generalize name.toList = text at hchars
  induction text with
  | nil => exact .nil
  | cons c text ih =>
    obtain ⟨hc, hrest⟩ := Bool.and_eq_true_iff.1 hchars
    exact .kept hc (ih hrest)

theorem resolveDots_of_plain {parts : List String} (hplain : ∀ part ∈ parts, part ≠ "." ∧ part ≠ "..")
    (kept : List String) : resolveDots kept parts = kept.reverse ++ parts := by
  induction parts generalizing kept with
  | nil => simp [resolveDots]
  | cons part parts ih =>
    obtain ⟨⟨hhere, hup⟩, hrest⟩ := List.forall_mem_cons.1 hplain
    rw [resolveDots.eq_4 _ _ _ hhere hup, ih hrest, List.reverse_cons, List.append_assoc]
    rfl

/-- The path with some parts, with a slash in front of each. -/
theorem toList_path (parts : List String) :
    ("/".intercalate ("" :: parts)).toList = parts.flatMap fun part => '/' :: part.toList := by
  rw [String.toList_intercalate]
  have hcons : ∀ first : List Char, ("/".toList.intercalate (first :: parts.map String.toList)) =
      first ++ parts.flatMap fun part => '/' :: part.toList := by
    induction parts with
    | nil => simp
    | cons part parts ih =>
      intro first
      rw [List.map_cons, List.intercalate_cons_cons, ih, List.flatMap_cons]
      simp
  exact hcons []

theorem spelled_of_forall₂ {names spelled : List String} (h : List.Forall₂ Spelling names spelled) :
    ∀ s ∈ spelled, ∃ name, Spelling name s := by
  induction h with
  | nil => simp
  | cons hspelling _ ih => exact List.forall_mem_cons.2 ⟨⟨_, hspelling⟩, ih⟩

/-- A path in which names are spelled ends with the last of them. -/
theorem pathOf_spelled {spelled : List String} (h : ∀ s ∈ spelled, ∃ name, Spelling name s) :
    pathOf ("/".intercalate ("" :: spelled)).toList = ("/".intercalate ("" :: spelled)).toList := by
  refine List.takeWhile_eq_self_iff.2 fun c hc => ?_
  rw [toList_path] at hc
  obtain ⟨s, hs, hc⟩ := List.mem_flatMap.1 hc
  rcases List.mem_cons.1 hc with rfl | hc
  · rfl
  · obtain ⟨name, hspelling⟩ := h s hs
    simpa using (ne_of_mem_spells hspelling.spells hc).2

/-- Its parts are the spellings. -/
theorem parts_spelled {spelled : List String} (h : ∀ s ∈ spelled, ∃ name, Spelling name s) :
    ∀ part ∈ "" :: spelled, '/' ∉ part.toList ∧ part ≠ "." ∧ part ≠ ".." := by
  refine List.forall_mem_cons.2 ⟨by decide, fun s hs => ?_⟩
  obtain ⟨name, hspelling⟩ := h s hs
  exact ⟨fun hmem => (ne_of_mem_spells hspelling.spells hmem).1 rfl, hspelling.notHere,
    hspelling.notUp⟩

/-- Its bytes are those of the path with the names themselves. -/
theorem bytesOf_spelled {names spelled : List String} (h : List.Forall₂ Spelling names spelled) :
    bytesOf (spelled.flatMap fun part => '/' :: part.toList) =
      (names.flatMap fun part => '/' :: part.toList).flatMap String.utf8EncodeChar := by
  induction h with
  | nil => rfl
  | cons hspelling _ ih =>
    rw [List.flatMap_cons, List.flatMap_cons, List.cons_append, bytesOf_kept (by decide),
      bytesOf_spells hspelling.spells, ih, List.cons_append, List.flatMap_cons, List.flatMap_append]

theorem path_isEmpty {parts : List String} (hne : parts ≠ []) :
    ("/".intercalate ("" :: parts)).isEmpty = false := by
  rw [← Bool.not_eq_true, String.isEmpty_iff]
  intro hempty
  have hchars := congrArg String.toList hempty
  rw [toList_path] at hchars
  cases parts with
  | nil => exact hne rfl
  | cons part parts => simp at hchars

/-- A path in which names are spelled means the path with the names themselves. -/
theorem decodeTarget_spelled {names spelled : List String}
    (h : List.Forall₂ Spelling names spelled) (hne : spelled ≠ []) :
    decodeTarget ("/".intercalate ("" :: spelled)) = "/".intercalate ("" :: names) := by
  have hspelled := spelled_of_forall₂ h
  have hparts := parts_spelled hspelled
  have hsplit := splitOn_intercalate (fun part hpart => (hparts part hpart).1) (List.cons_ne_nil _ _)
  have hplain := resolveDots_of_plain (fun part hpart => (hparts part hpart).2) []
  unfold decodeTarget
  simp only [pathOf_spelled hspelled, String.ofList_toList, hsplit, hplain, List.reverse_nil,
    List.nil_append, path_isEmpty hne, Bool.false_eq_true, if_false]
  rw [toList_path, bytesOf_spelled h, Text.decodeLossy_encode, ← toList_path, String.ofList_toList]

/-! ## Routes -/

theorem path_of_name (part : String) :
    "/".intercalate ["", "instances", part] = "/instances/" ++ part := by
  rw [← String.toList_inj, toList_path, String.toList_append]
  simp

theorem path_of_events (part : String) :
    "/".intercalate ["", "instances", part, "events"] = "/instances/" ++ part ++ "/events" := by
  rw [← String.toList_inj, toList_path, String.toList_append, String.toList_append]
  simp

theorem decodeTarget_name {name s : String} (hspelling : Spelling name s) :
    decodeTarget ("/instances/" ++ s) = "/instances/" ++ name := by
  have hinstances : Spelling "instances" "instances" :=
    spelling_self (by decide) (by decide) (by decide)
  rw [← path_of_name, ← path_of_name]
  exact decodeTarget_spelled (.cons hinstances (.cons hspelling .nil)) (List.cons_ne_nil _ _)

theorem decodeTarget_events {name s : String} (hspelling : Spelling name s) :
    decodeTarget ("/instances/" ++ s ++ "/events") = "/instances/" ++ name ++ "/events" := by
  have hinstances : Spelling "instances" "instances" :=
    spelling_self (by decide) (by decide) (by decide)
  have hevents : Spelling "events" "events" := spelling_self (by decide) (by decide) (by decide)
  rw [← path_of_events, ← path_of_events]
  exact decodeTarget_spelled (.cons hinstances (.cons hspelling (.cons hevents .nil)))
    (List.cons_ne_nil _ _)

section
variable {name s : String} (hname : name ≠ "") (hslash : '/' ∉ name.toList)
  (hspelling : Spelling name s)
include hname hslash hspelling

theorem routesAt_spelled : routesAt (decodeTarget ("/instances/" ++ s)) =
    [("GET", .state name), ("DELETE", .stop name)] := by
  have hparts : ("/".intercalate ["", "instances", name]).splitOn "/" = ["", "instances", name] :=
    splitOn_intercalate (by simp [hslash]) (List.cons_ne_nil _ _)
  rw [decodeTarget_name hspelling, ← path_of_name]
  unfold routesAt
  simp only [hparts]
  simp [hname]

theorem routesAt_events : routesAt (decodeTarget ("/instances/" ++ s ++ "/events")) =
    [("POST", .send name)] := by
  have hparts : ("/".intercalate ["", "instances", name, "events"]).splitOn "/" =
      ["", "instances", name, "events"] :=
    splitOn_intercalate (by simp [hslash]) (List.cons_ne_nil _ _)
  rw [decodeTarget_events hspelling, ← path_of_events]
  unfold routesAt
  simp only [hparts]
  simp [hname]

/-- The requests whose paths spell a name lead to the routes of just this name. -/
theorem findRoute_spelled :
    findRoute "GET" (decodeTarget ("/instances/" ++ s)) = .found (.state name) ∧
    findRoute "POST" (decodeTarget ("/instances/" ++ s ++ "/events")) = .found (.send name) ∧
    findRoute "DELETE" (decodeTarget ("/instances/" ++ s)) = .found (.stop name) := by
  unfold findRoute
  rw [routesAt_spelled hname hslash hspelling, routesAt_events hname hslash hspelling]
  exact ⟨rfl, rfl, rfl⟩

end

/-- The name of the instance that a request is about. -/
def Route.name? : Route → Option String
  | .health | .start => none
  | .send name | .state name | .stop name | .allowed name _ | .responds name _ => some name

/-- The name that a request is about is a part of its path. -/
theorem mem_splitOn_of_route (path : String) :
    ∀ r ∈ routesAt path, ∀ name ∈ r.2.name?, name ∈ path.splitOn "/" := by
  unfold routesAt routesAt.single
  split
  -- A part that is no name; a name; a name, and what is asked of it.
  · split_ifs <;> simp [Route.name?]
  all_goals
    rename_i hparts
    first
      | rw [hparts]; split_ifs <;> simp [Route.name?]
      | simp

/-- No request is about a name with a slash in it. -/
theorem slash_not_mem_of_found {path method name : String} {route : Route}
    (hroute : findRoute method path = .found route) (hname : route.name? = some name) :
    '/' ∉ name.toList := by
  unfold findRoute at hroute
  split at hroute
  · split at hroute <;> cases hroute
  · split at hroute
    · rename_i hfound
      cases hroute
      obtain ⟨before, behind, hroutes, -⟩ := List.lookup_eq_some_iff.1 hfound
      have hmem : (method, route) ∈ routesAt path := by simp [hroutes]
      exact slash_not_mem_of_splitOn (mem_splitOn_of_route path _ hmem name hname)
    · cases hroute

end Turnstile.Http

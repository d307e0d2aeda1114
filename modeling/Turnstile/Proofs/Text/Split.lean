-- Texts that are split at a character: the parts are those of the list of characters, and texts
-- that are joined by the character have the parts of either.
import Mathlib

namespace Turnstile.Text

open String

/-- The splitting of a text that is read up to `l`, with `m` of the part that has begun. -/
theorem splitOnAux_single (c : Char) (l m r : List Char) (parts : List String) :
    (ofList (l ++ m ++ r)).splitOnAux (singleton c) ⟨utf8Len l⟩ ⟨utf8Len l + utf8Len m⟩ 0 parts =
      parts.reverse ++ (List.splitOnPPrepend (· == c) r m.reverse).map ofList := by
  have hget : Pos.Raw.get (singleton c) 0 = c := by
    simpa using get_of_valid [] [c]
  have hnext : Pos.Raw.next (singleton c) 0 = ⟨c.utf8Size⟩ := by
    simpa using next_of_valid [] c []
  have hend : Pos.Raw.atEnd (singleton c) ⟨c.utf8Size⟩ = true := by
    simpa using (atEnd_of_valid [c] []).2 rfl
  induction r generalizing l m parts with
  | nil =>
    have hatEnd := (atEnd_of_valid (l ++ m) []).2 rfl
    rw [utf8Len_append] at hatEnd
    rw [splitOnAux.eq_def, if_pos hatEnd, extract_of_valid]
    simp
  | cons d r ih =>
    have hatEnd := (atEnd_of_valid (l ++ m) (d :: r)).not.2 (List.cons_ne_nil d r)
    have hchar := get_of_valid (l ++ m) (d :: r)
    have hthen := next_of_valid (l ++ m) d r
    rw [utf8Len_append, List.append_assoc] at hatEnd hchar hthen
    rw [List.append_assoc, splitOnAux.eq_def, if_neg hatEnd, hchar, hget, hnext,
      List.splitOnPPrepend_cons_eq_if, List.headD_cons]
    by_cases hd : d = c
    · subst hd
      have hpart := extract_of_valid l m (d :: r)
      have hback : Pos.Raw.unoffsetBy ⟨utf8Len l + utf8Len m + d.utf8Size⟩ ⟨d.utf8Size⟩ =
          ⟨utf8Len l + utf8Len m⟩ := by
        simp [Pos.Raw.unoffsetBy]
      have hmore := ih (l ++ m ++ [d]) [] (ofList m :: parts)
      simp only [utf8Len_append, utf8Len_cons, utf8Len_nil, Nat.add_zero, Nat.zero_add,
        List.append_nil, List.append_assoc, List.singleton_append] at hmore hpart
      rw [← Nat.add_assoc] at hmore
      simp only [beq_self_eq_true, if_true, hend, hback, hpart, hthen]
      rw [hmore, List.reverse_nil, List.splitOnPPrepend_nil_right, List.reverse_reverse,
        List.reverse_cons, List.map_cons, List.append_assoc, List.singleton_append]
    · have hno : (d == c) = false := beq_false_of_ne hd
      have hback : Pos.Raw.unoffsetBy ⟨utf8Len l + utf8Len m⟩ 0 = ⟨utf8Len l + utf8Len m⟩ := rfl
      have hmore := ih l (m ++ [d]) parts
      simp only [utf8Len_append, utf8Len_cons, utf8Len_nil, Nat.zero_add, List.append_assoc,
        List.singleton_append] at hmore
      rw [← Nat.add_assoc] at hmore
      simp only [hno, Bool.false_eq_true, if_false, hback, hthen]
      rw [hmore, List.reverse_append, List.reverse_singleton, List.singleton_append]

/-- The parts of a text are those of its list of characters. -/
theorem splitOn_single (c : Char) (s : String) :
    s.splitOn (singleton c) = (s.toList.splitOn c).map ofList := by
  have hsep : singleton c ≠ "" := by simp [← toList_inj]
  have h := splitOnAux_single c [] [] s.toList []
  rw [List.splitOn_eq_splitOnP, List.splitOnP_eq_splitOnPPrepend]
  simpa [splitOn, hsep] using h

/-- Texts that are joined by a character have the parts of either. -/
theorem splitOn_join (c : Char) (s t : String) : (s ++ singleton c ++ t).splitOn (singleton c) =
    s.splitOn (singleton c) ++ t.splitOn (singleton c) := by
  have hchars : (s ++ singleton c ++ t).toList = s.toList ++ c :: t.toList := by simp
  have hsplit := List.splitOnP_append_cons (p := (· == c)) s.toList t.toList (beq_self_eq_true c)
  rw [splitOn_single, splitOn_single, splitOn_single, hchars, List.splitOn_eq_splitOnP, hsplit,
    List.map_append]
  rfl

end Turnstile.Text

-- Decoding is lenient only with what is broken: the encoding of a text is read back as it was.
import Mathlib
import Turnstile.Text.Utf8

namespace Turnstile

/-! ## Bytes as lists -/

theorem toList_loop (bytes : ByteArray) (i : Nat) (read : List UInt8) :
    ByteArray.toList.loop bytes i read = read.reverse ++ bytes.data.toList.drop i := by
  fun_induction ByteArray.toList.loop bytes i read with
  | case1 i read hlt ih =>
    have hlt' : i < bytes.data.toList.length := by simpa using hlt
    rw [ih, List.drop_eq_getElem_cons hlt']
    simp [ByteArray.get!, hlt]
  | case2 i read hend =>
    rw [List.drop_eq_nil_of_le (by simpa using Nat.le_of_not_lt hend)]
    simp

theorem toList_toByteArray (bytes : List UInt8) : bytes.toByteArray.toList = bytes := by
  unfold ByteArray.toList
  rw [toList_loop, List.toList_data_toByteArray]
  rfl

namespace Text

variable {n bits low high : Nat} {bound : Nat × Nat} {bounds : List (Nat × Nat)}

/-! ## Bytes that go together -/

theorem toNat_ofNat (hn : n < 256) : (UInt8.ofNat n).toNat = n := by
  simp [Nat.mod_eq_of_lt hn]

theorem decodeFrom_single (hn : n < 256) (h : begin? n = some ⟨bits, []⟩) (rest : List UInt8) :
    decodeFrom none (UInt8.ofNat n :: rest) = Char.ofNat bits :: decodeFrom none rest := by
  simp only [decodeFrom, afterByte, toNat_ofNat hn, h, List.singleton_append]

theorem decodeFrom_first (hn : n < 256) (h : begin? n = some ⟨bits, bound :: bounds⟩)
    (rest : List UInt8) :
    decodeFrom none (UInt8.ofNat n :: rest) = decodeFrom (some ⟨bits, bound :: bounds⟩) rest := by
  simp only [decodeFrom, afterByte, toNat_ofNat hn, h, List.nil_append]

theorem decodeFrom_next (hn : n < 64) (hlow : low ≤ n + 128) (hhigh : n + 128 ≤ high)
    (rest : List UInt8) :
    decodeFrom (some ⟨bits, (low, high) :: bound :: bounds⟩) (UInt8.ofNat (n + 128) :: rest) =
      decodeFrom (some ⟨64 * bits + n, bound :: bounds⟩) rest := by
  have hbyte : (UInt8.ofNat (n + 128)).toNat = n + 128 := toNat_ofNat (by omega)
  simp only [decodeFrom, hbyte, hlow, hhigh, decide_true, Bool.and_self, if_true,
    List.isEmpty_cons, Bool.false_eq_true, if_false, Nat.add_sub_cancel]

theorem decodeFrom_last (hn : n < 64) (rest : List UInt8) :
    decodeFrom (some ⟨bits, [(0x80, 0xbf)]⟩) (UInt8.ofNat (n + 128) :: rest) =
      Char.ofNat (64 * bits + n) :: decodeFrom none rest := by
  have hbyte : (UInt8.ofNat (n + 128)).toNat = n + 128 := toNat_ofNat (by omega)
  have hlow : 0x80 ≤ n + 128 := by omega
  have hhigh : n + 128 ≤ 0xbf := by omega
  simp only [decodeFrom, hbyte, hlow, hhigh, decide_true, Bool.and_self, if_true,
    List.isEmpty_nil, Nat.add_sub_cancel]

/-! ## First bytes -/

theorem begin?_two (hlow : 0xc2 ≤ n) (hhigh : n ≤ 0xdf) :
    begin? n = some ⟨n - 0xc0, [(0x80, 0xbf)]⟩ := by
  interval_cases n <;> rfl

/-- What would fit into fewer bytes, and the surrogates, have no second byte. -/
theorem begin?_three (hlow : 0xe0 ≤ n) (hhigh : n ≤ 0xef) : begin? n = some ⟨n - 0xe0,
    [(if n = 0xe0 then 0xa0 else 0x80, if n = 0xed then 0x9f else 0xbf), (0x80, 0xbf)]⟩ := by
  interval_cases n <;> rfl

theorem begin?_four (hlow : 0xf0 ≤ n) (hhigh : n ≤ 0xf4) : begin? n = some ⟨n - 0xf0,
    [(if n = 0xf0 then 0x90 else 0x80, if n = 0xf4 then 0x8f else 0xbf), (0x80, 0xbf),
      (0x80, 0xbf)]⟩ := by
  interval_cases n <;> rfl

/-! ## Characters -/

/-- No character is a surrogate. -/
theorem toNat_bounds (c : Char) : c.toNat < 0xd800 ∨ 0xdfff < c.toNat ∧ c.toNat < 0x110000 := by
  have hvalid := c.valid
  simpa [UInt32.isValidChar, Nat.isValidChar] using hvalid

/-- The encoding of a character is read back, whatever comes after it. -/
theorem decodeFrom_encode (c : Char) (rest : List UInt8) :
    decodeFrom none (String.utf8EncodeChar c ++ rest) = c :: decodeFrom none rest := by
  have hbounds := toNat_bounds c
  have hchar : Char.ofNat c.toNat = c := Char.ofNat_toNat c
  unfold String.utf8EncodeChar
  simp only [show c.val.toNat = c.toNat from rfl]
  generalize c.toNat = v at *
  split_ifs with hone htwo hthree <;> simp only [List.cons_append, List.nil_append]
  · have hbegin : begin? v = some ⟨v, []⟩ := if_pos (by omega)
    rw [decodeFrom_single (by omega) hbegin, hchar]
  · have hbegin := begin?_two (n := v / 64 % 32 + 192) (by omega) (by omega)
    have hbits : 64 * (v / 64 % 32 + 192 - 0xc0) + v % 64 = v := by omega
    rw [decodeFrom_first (by omega) hbegin, decodeFrom_last (by omega), hbits, hchar]
  · have hbegin := begin?_three (n := v / 4096 % 16 + 224) (by omega) (by omega)
    have hbits : 64 * (64 * (v / 4096 % 16 + 224 - 0xe0) + v / 64 % 64) + v % 64 = v := by omega
    rw [decodeFrom_first (by omega) hbegin, decodeFrom_next (by omega) (by split_ifs <;> omega)
      (by split_ifs <;> omega), decodeFrom_last (by omega), hbits, hchar]
  · have hbegin := begin?_four (n := v / 262144 % 8 + 240) (by omega) (by omega)
    have hbits : 64 * (64 * (64 * (v / 262144 % 8 + 240 - 0xf0) + v / 4096 % 64) + v / 64 % 64) +
        v % 64 = v := by omega
    rw [decodeFrom_first (by omega) hbegin, decodeFrom_next (by omega) (by split_ifs <;> omega)
      (by split_ifs <;> omega), decodeFrom_next (by omega) (by omega) (by omega),
      decodeFrom_last (by omega), hbits, hchar]

/-- A text is read back from its encoding. -/
theorem decodeLossy_encode (cs : List Char) :
    decodeLossy (cs.flatMap String.utf8EncodeChar) = cs := by
  unfold decodeLossy
  induction cs with
  | nil => rfl
  | cons c cs ih => rw [List.flatMap_cons, decodeFrom_encode, ih]

end Text
end Turnstile

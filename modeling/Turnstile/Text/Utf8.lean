-- Texts from bytes that may be broken: each broken piece of an encoded character shows as
-- one replacement character.

namespace Turnstile.Text

/-- A character that has begun: the bits read so far, and the bounds of each byte to come. -/
structure Begun where
  bits : Nat
  bounds : List (Nat × Nat)

/-- What a first byte begins; a single byte stands for itself. -/
def begin? (b : Nat) : Option Begun :=
  let rest : Nat × Nat := (0x80, 0xbf)
  if b < 0x80 then some ⟨b, []⟩
  else if 0xc2 ≤ b && b ≤ 0xdf then some ⟨b - 0xc0, [rest]⟩
  else if b = 0xe0 then some ⟨0, [(0xa0, 0xbf), rest]⟩
  else if b = 0xed then some ⟨0xd, [(0x80, 0x9f), rest]⟩
  else if 0xe1 ≤ b && b ≤ 0xef then some ⟨b - 0xe0, [rest, rest]⟩
  else if b = 0xf0 then some ⟨0, [(0x90, 0xbf), rest, rest]⟩
  else if 0xf1 ≤ b && b ≤ 0xf3 then some ⟨b - 0xf0, [rest, rest, rest]⟩
  else if b = 0xf4 then some ⟨4, [(0x80, 0x8f), rest, rest]⟩
  else none

def replacement : Char := '\ufffd'

/-- What a byte gives on its own: a character, the beginning of one, or a replacement. -/
def afterByte (b : Nat) : List Char × Option Begun :=
  match begin? b with
  | none => ([replacement], none)
  | some ⟨bits, []⟩ => ([Char.ofNat bits], none)
  | some begun => ([], some begun)

/-- Reads on, perhaps inside a character. A byte that does not fit there begins anew. -/
def decodeFrom : Option Begun → List UInt8 → List Char
  | none, [] => []
  | some _, [] => [replacement]
  | none, byte :: rest =>
    let (cs, begun) := afterByte byte.toNat
    cs ++ decodeFrom begun rest
  | some ⟨bits, bounds⟩, byte :: rest =>
    let b := byte.toNat
    match bounds with
    | (low, high) :: more =>
      if low ≤ b && b ≤ high then
        let bits := 64 * bits + (b - 0x80)
        if more.isEmpty then Char.ofNat bits :: decodeFrom none rest
        else decodeFrom (some ⟨bits, more⟩) rest
      else
        let (cs, begun) := afterByte b
        replacement :: cs ++ decodeFrom begun rest
    | [] => decodeFrom none rest

/-- The text of some bytes. -/
def decodeLossy (bytes : List UInt8) : List Char := decodeFrom none bytes

end Turnstile.Text

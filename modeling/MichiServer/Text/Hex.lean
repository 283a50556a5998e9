import Mathlib.Data.Nat.Notation
import Mathlib.Data.List.Basic

/-!
# Hexadecimal

Bytes as pairs of hexadecimal digits. Reading takes digits of either case and fails on an odd number
of characters and on any other character; what is written reads back.
-/

namespace MichiServer.Text.Hex

def digit (c : Char) : Option ℕ :=
  if '0' ≤ c ∧ c ≤ '9' then some (c.toNat - '0'.toNat)
  else if 'a' ≤ c ∧ c ≤ 'f' then some (c.toNat - 'a'.toNat + 10)
  else if 'A' ≤ c ∧ c ≤ 'F' then some (c.toNat - 'A'.toNat + 10)
  else none

def decodeChars : List Char → Option (List UInt8)
  | [] => some []
  | [_] => none
  | hi :: lo :: rest =>
    match digit hi, digit lo, decodeChars rest with
    | some h, some l, some bytes => some (UInt8.ofNat (16 * h + l) :: bytes)
    | _, _, _ => none

def encodeByte (b : UInt8) : List Char :=
  [(b.toNat / 16).digitChar, (b.toNat % 16).digitChar]

def encode (bytes : List UInt8) : String := String.ofList (bytes.flatMap encodeByte)

def decode (s : String) : Option (List UInt8) := decodeChars s.toList

theorem digit_digitChar {n : ℕ} (h : n < 16) : digit n.digitChar = some n := by
  revert n
  decide

theorem decodeChars_encode (bytes : List UInt8) :
    decodeChars (bytes.flatMap encodeByte) = some bytes := by
  induction bytes with
  | nil => rfl
  | cons b rest ih =>
    have hlt : b.toNat < 256 := b.toNat_lt
    have hhi : digit (b.toNat / 16).digitChar = some (b.toNat / 16) := digit_digitChar (by omega)
    have hlo : digit (b.toNat % 16).digitChar = some (b.toNat % 16) := digit_digitChar (by omega)
    have hbyte : UInt8.ofNat (16 * (b.toNat / 16) + b.toNat % 16) = b := by
      rw [Nat.div_add_mod]
      exact UInt8.ofNat_toNat
    grind [encodeByte, decodeChars]

theorem decode_encode (bytes : List UInt8) : decode (encode bytes) = some bytes := by
  rw [decode, encode, String.toList_ofList]
  exact decodeChars_encode bytes

end MichiServer.Text.Hex

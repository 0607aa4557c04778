/-
# Texts of octets

Filters work on bytes and not on characters, and yet what they look for is mostly
ASCII. A text of octets is therefore a list of characters below 256, each of which
stands for the byte of its number.
-/

import ThemedSvg.Text.Bytes

namespace ThemedSvg.Tool

/-- Bytes, one for each character. -/
abbrev Octets := List Char

namespace Octets

/-- The octets of bytes. -/
def ofBytes (bytes : List UInt8) : Octets :=
  bytes.map fun byte => Char.ofNat byte.toNat

/-- The bytes of octets. -/
def toBytes (octets : Octets) : List UInt8 :=
  octets.map fun c => UInt8.ofNat c.toNat

/-- The octets of a text. -/
def ofText (text : String) : Octets :=
  ofBytes (Text.toBytes text)

/-- The text of octets, with a replacement for what is not UTF-8. -/
def toText (octets : Octets) : String :=
  String.ofList (Text.decodeLossy (toBytes octets))

@[simp]
theorem toBytes_ofBytes (bytes : List UInt8) : toBytes (ofBytes bytes) = bytes := by
  have kept (byte : UInt8) : UInt8.ofNat (Char.ofNat byte.toNat).toNat = byte := by
    have valid : byte.toNat.isValidChar := .inl (Nat.lt_trans byte.toNat_lt (by decide))
    rw [Char.ofNat, dif_pos valid]
    exact UInt8.ofNat_toNat
  rw [toBytes, ofBytes, List.map_map]
  exact (List.map_congr_left fun byte _ => kept byte).trans (List.map_id _)

end Octets

/-- The value of an octal digit. -/
def octalDigit? (c : Char) : Option Nat :=
  if '0' ≤ c ∧ c ≤ '7' then some (c.toNat - '0'.toNat) else none

/-- The value of a hexadecimal digit. -/
def hexDigit? (c : Char) : Option Nat :=
  if c.isDigit then some (c.toNat - '0'.toNat)
  else if 'a' ≤ c ∧ c ≤ 'f' then some (c.toNat - 'a'.toNat + 10)
  else if 'A' ≤ c ∧ c ≤ 'F' then some (c.toNat - 'A'.toNat + 10)
  else none

/-- A number in decimal digits. -/
def digitsOf (n : Nat) : Octets :=
  Nat.toDigits 10 n

/-- The lines of a text, each with its line break; the last one can be without. -/
def linesOf (text : Octets) : List Octets :=
  match text with
  | [] => []
  | c :: rest =>
      if c = '\n' then [c] :: linesOf rest
      else
        match linesOf rest with
        | [] => [[c]]
        | line :: lines => (c :: line) :: lines

end ThemedSvg.Tool

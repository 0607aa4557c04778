/-
# Bytes of a text

Positions in markup and in declaration values count UTF-8 bytes, while texts are
lists of characters. This module measures a text in bytes, cuts it at a byte
offset, and reads bytes back as text, strictly or with a replacement character
for what is not UTF-8.
-/

namespace ThemedSvg.Text

/-- The number of UTF-8 bytes of a text. -/
def byteLength : List Char → Nat
  | [] => 0
  | c :: rest => c.utf8Size + byteLength rest

/-- The characters that start before byte `offset`. -/
def takeBytes : Nat → List Char → List Char
  | _, [] => []
  | 0, _ => []
  | offset, c :: rest => c :: takeBytes (offset - c.utf8Size) rest

/-- The characters that start at byte `offset` or later. -/
def dropBytes : Nat → List Char → List Char
  | _, [] => []
  | 0, text => text
  | offset, c :: rest => dropBytes (offset - c.utf8Size) rest

/-- The characters that start in the byte range from `start` to `stop`. -/
def sliceBytes (start stop : Nat) (text : List Char) : List Char :=
  takeBytes (stop - start) (dropBytes start text)

@[simp]
theorem byteLength_append (a b : List Char) :
    byteLength (a ++ b) = byteLength a + byteLength b := by
  induction a with
  | nil => simp [byteLength]
  | cons c a ih => simp [byteLength, ih, Nat.add_assoc]

theorem length_le_byteLength (text : List Char) : text.length ≤ byteLength text := by
  induction text with
  | nil => simp [byteLength]
  | cons c rest ih =>
      have := c.utf8Size_pos
      simp only [List.length_cons, byteLength]
      omega

theorem takeBytes_append_dropBytes (offset : Nat) (text : List Char) :
    takeBytes offset text ++ dropBytes offset text = text := by
  induction text generalizing offset with
  | nil => simp [takeBytes, dropBytes]
  | cons c rest ih => cases offset <;> simp [takeBytes, dropBytes, ih]

theorem takeBytes_byteLength_append (a b : List Char) : takeBytes (byteLength a) (a ++ b) = a := by
  induction a with
  | nil => cases b <;> simp [takeBytes, byteLength]
  | cons c a ih =>
      have := c.utf8Size_pos
      obtain ⟨n, hn⟩ : ∃ n, byteLength (c :: a) = n + 1 := ⟨byteLength (c :: a) - 1, by
        simp only [byteLength]; omega⟩
      rw [hn, List.cons_append, takeBytes, ← hn]
      · simp [byteLength, ih]
      · simp

theorem dropBytes_byteLength_append (a b : List Char) : dropBytes (byteLength a) (a ++ b) = b := by
  have h := takeBytes_append_dropBytes (byteLength a) (a ++ b)
  rw [takeBytes_byteLength_append] at h
  exact List.append_cancel_left h

/-- The text that `bytes` encode, if they are UTF-8. -/
def ofBytes? (bytes : ByteArray) : Option String :=
  String.fromUTF8? bytes

/-- The bytes of a text. -/
def toBytes (text : String) : List UInt8 :=
  text.toUTF8.toList

/-- How far the bytes after a leading byte go on with its character: the number
of continuation bytes still owed and the range allowed for the next one. -/
private def owed (lead : Nat) : Option (Nat × Nat × Nat) :=
  if lead < 0x80 then some (0, 0x80, 0xBF)
  else if 0xC2 ≤ lead ∧ lead ≤ 0xDF then some (1, 0x80, 0xBF)
  else if lead = 0xE0 then some (2, 0xA0, 0xBF)
  else if lead = 0xED then some (2, 0x80, 0x9F)
  else if 0xE1 ≤ lead ∧ lead ≤ 0xEF then some (2, 0x80, 0xBF)
  else if lead = 0xF0 then some (3, 0x90, 0xBF)
  else if 0xF1 ≤ lead ∧ lead ≤ 0xF3 then some (3, 0x80, 0xBF)
  else if lead = 0xF4 then some (3, 0x80, 0x8F)
  else none

/-- The bits of a leading byte that belong to the character. -/
private def leadBits (lead : Nat) : Nat :=
  if lead < 0x80 then lead else if lead < 0xE0 then lead % 0x20
  else if lead < 0xF0 then lead % 0x10 else lead % 0x08

/-- Reads bytes as text and puts one replacement character for each longest
broken start of a character and for each byte that can start none. `pending`
holds the bits read of an unfinished character, the number of bytes it is owed
and the range of the next one. -/
private def decodeFrom : Option (Nat × Nat × Nat × Nat) → List UInt8 → List Char
  | none, [] => []
  | some _, [] => ['\uFFFD']
  | none, byte :: rest =>
      match owed byte.toNat with
      | none => '\uFFFD' :: decodeFrom none rest
      | some (0, _) => Char.ofNat byte.toNat :: decodeFrom none rest
      | some (more, low, high) => decodeFrom (some (leadBits byte.toNat, more, low, high)) rest
  | some (bits, more, low, high), byte :: rest =>
      let b := byte.toNat
      if low ≤ b ∧ b ≤ high then
        let bits := bits * 0x40 + b % 0x40
        if more ≤ 1 then Char.ofNat bits :: decodeFrom none rest
        else decodeFrom (some (bits, more - 1, 0x80, 0xBF)) rest
      else
        '\uFFFD' ::
          match owed b with
          | none => '\uFFFD' :: decodeFrom none rest
          | some (0, _) => Char.ofNat b :: decodeFrom none rest
          | some (more, low, high) => decodeFrom (some (leadBits b, more, low, high)) rest

/-- The text of bytes that need not be UTF-8. -/
def decodeLossy (bytes : List UInt8) : List Char :=
  decodeFrom none bytes

end ThemedSvg.Text

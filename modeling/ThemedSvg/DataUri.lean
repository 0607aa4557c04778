/-
# Data URIs

Markup goes into a style sheet as the value `url("data:image/svg+xml;…")`. Every
byte of it is percent-encoded, except letters, digits and nine marks that mean
nothing inside a quoted URL.
-/

import ThemedSvg.Text.Bytes

namespace ThemedSvg.DataUri

/-- The marks that stand for themselves. -/
def marks : List Char := "-_.!~*'()".toList

/-- Whether a character stands for itself. -/
def isPlain (c : Char) : Bool :=
  c.isAlphanum || marks.contains c

/-- A digit of a percent-encoded byte. -/
def hexDigit (n : Nat) : Char :=
  if n < 10 then Char.ofNat ('0'.toNat + n) else Char.ofNat ('A'.toNat + (n - 10))

/-- A percent sign and the two digits of a byte. -/
def encodeByte (byte : UInt8) : List Char :=
  ['%', hexDigit (byte.toNat / 16), hexDigit (byte.toNat % 16)]

/-- A character as it stands in the payload: itself, or all its bytes. -/
def encodeChar (c : Char) : List Char :=
  if isPlain c then [c] else (String.utf8EncodeChar c).flatMap encodeByte

/-- The payload of a text. -/
def encode (text : List Char) : List Char :=
  text.flatMap encodeChar

/-- What stands before the payload. -/
def opening : String := "url(\"data:image/svg+xml;charset=utf-8,"

/-- What stands behind the payload. -/
def closing : String := "\")"

/-- The value of a style sheet that shows the markup. -/
def ofMarkup (markup : String) : String :=
  String.ofList (opening.toList ++ encode markup.toList ++ closing.toList)

end ThemedSvg.DataUri

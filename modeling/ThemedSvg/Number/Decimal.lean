/-
# Decimal text of single-precision numbers

Reading takes an optional sign, digits with an optional point and exponent, or
the words `inf`, `infinity` and `nan` in any case, and rounds the exact value
once. Writing covers what colors need: a number given in whole thousandths.
-/

import ThemedSvg.Number.Binary32
import ThemedSvg.Text.Space

namespace ThemedSvg.Binary32

/-- The value of a digit sequence. -/
def digitsValue (digits : List Char) : Nat :=
  digits.foldl (fun value c => 10 * value + (c.toNat - '0'.toNat)) 0

/-- A decimal beyond these powers of ten is infinite or zero whatever its digits,
as the format reaches from about `10 ^ -45` to `10 ^ 38`. -/
def decimalReach : Int := 50

/-- The number nearest to `digits · 10 ^ exponent`. -/
def ofDecimal (negative : Bool) (digits : Nat) (exponent : Int) : Binary32 :=
  let places : Int := (Text.decimal digits).length
  if digits = 0 then zero negative
  else if decimalReach < places + exponent then infinite negative
  else if places + exponent < -decimalReach then zero negative
  else nearest negative (digits * Nat.pow 10 exponent.toNat) (Nat.pow 10 (-exponent).toNat)

/-- Takes a sign off the front; `true` is minus. -/
def readSign : List Char → Bool × List Char
  | '-' :: rest => (true, rest)
  | '+' :: rest => (false, rest)
  | text => (false, text)

/-- An exponent with its letter, or nothing at all. -/
def readExponent? : List Char → Option Int
  | [] => some 0
  | c :: rest =>
      let (negative, digits) := readSign rest
      if c.toLower = 'e' && !digits.isEmpty && digits.all Char.isDigit then
        some (withSign negative (digitsValue digits))
      else none

/-- Digits with an optional point among or around them, and an exponent. -/
def readDigits? (negative : Bool) (text : List Char) : Option Binary32 :=
  let whole := text.takeWhile Char.isDigit
  let (fraction, rest) :=
    match text.dropWhile Char.isDigit with
    | '.' :: rest => (rest.takeWhile Char.isDigit, rest.dropWhile Char.isDigit)
    | rest => ([], rest)
  if whole.isEmpty && fraction.isEmpty then none
  else
    (readExponent? rest).map fun exponent =>
      ofDecimal negative (digitsValue (whole ++ fraction)) (exponent - fraction.length)

/-- Reads a number; nothing may stand before or after it. -/
def read? (text : List Char) : Option Binary32 :=
  let (negative, unsigned) := readSign text
  let word := Text.lowerAscii unsigned
  if word = "inf".toList || word = "infinity".toList then some (infinite negative)
  else if word = "nan".toList then some nan
  else readDigits? negative unsigned

/-- Up to three decimal places without the zeros at their end. -/
def fractionText (thousandths : Nat) : List Char :=
  let digits := Text.decimal (1000 + thousandths % 1000) |>.drop 1
  let kept := (digits.reverse.dropWhile (· == '0')).reverse
  if kept.isEmpty then [] else '.' :: kept

/-- A number to the nearest thousandth, a half away from zero. Numbers of
interest are far below `2 ^ 24` thousandths, so these digits are also the fewest
that read back as the rounded number. -/
def thousandthsText (x : Binary32) : List Char :=
  match (x * 1000).round with
  | nan => "NaN".toList
  | infinite s => (if s then ['-'] else []) ++ "inf".toList
  | finite s m e =>
      let thousandths := m * powerAbove e / powerAbove (-e)
      (if s then ['-'] else []) ++ Text.decimal (thousandths / 1000) ++ fractionText thousandths

end ThemedSvg.Binary32

/-
# Decimal text of double-precision numbers

Formats write numbers in the 64-bit binary format of IEEE 754: a decimal text is rounded
to that format once, and its exact value is rounded again to the digits asked for, to the
even neighbour where two are equally near.
-/

import ThemedSvg.Number.Decimal

namespace ThemedSvg

/-- A magnitude in double precision. `finite m e` stands for `m · 2 ^ e`. -/
inductive Binary64
  | nan
  | infinite
  | finite (significand : Nat) (exponent : Int)
  deriving DecidableEq, Repr

namespace Binary64

open Binary32 (powerAbove binaryOrder nearestEven)

/-- How many bits a significand has, and the exponents of finite numbers. -/
def precision : Nat := 53

def leastExponent : Int := -1074

def greatestExponent : Int := 971

/-- The magnitude nearest to `num / den`. -/
def nearest (num den : Nat) : Binary64 :=
  if num = 0 then finite 0 leastExponent
  else
    let exponent := max (binaryOrder num den - (precision - 1)) leastExponent
    let significand := nearestEven (num * powerAbove (-exponent)) (den * powerAbove exponent)
    let (significand, exponent) :=
      if significand = Nat.pow 2 precision then (Nat.pow 2 (precision - 1), exponent + 1)
      else (significand, exponent)
    if greatestExponent < exponent then infinite else finite significand exponent

/-- Whether a magnitude has its full precision. -/
def isOrdinary : Binary64 → Bool
  | finite m _ => Nat.pow 2 (precision - 1) ≤ m
  | _ => false

/-- A decimal beyond these powers of ten is infinite or zero whatever its digits. -/
def decimalReach : Int := 400

/-- The magnitude nearest to `digits · 10 ^ exponent`. -/
def ofDecimal (digits : Nat) (exponent : Int) : Binary64 :=
  let places : Int := (Text.decimal digits).length
  if digits = 0 || places + exponent < -decimalReach then finite 0 leastExponent
  else if decimalReach < places + exponent then infinite
  else nearest (digits * Nat.pow 10 exponent.toNat) (Nat.pow 10 (-exponent).toNat)

/-- A text with a point in front of its last digits. -/
def withPoint (places : Nat) (always : Bool) (digits : List Char) : List Char :=
  let digits := List.replicate (places + 1 - digits.length) '0' ++ digits
  let whole := digits.take (digits.length - places)
  let fraction := digits.drop (digits.length - places)
  if places = 0 then if always then whole ++ ['.'] else whole
  else whole ++ '.' :: fraction

/-- The number in positions, with so many behind the point. -/
def positional (num den places : Nat) (always : Bool) : List Char :=
  withPoint places always (Text.decimal (nearestEven (num * Nat.pow 10 places) den))

/-- The digits of a number with so many behind the first one, and the power of ten of the
first one. `guess` is that power or one below it. -/
def leadingDigits (num den places : Nat) (guess : Int) : Nat × Int :=
  let unit : Int := guess - places
  let digits := nearestEven (num * Nat.pow 10 (-unit).toNat) (den * Nat.pow 10 unit.toNat)
  if digits < Nat.pow 10 (places + 1) then (digits, guess)
  else
    let unit := unit + 1
    (nearestEven (num * Nat.pow 10 (-unit).toNat) (den * Nat.pow 10 unit.toNat), guess + 1)

/-- The greatest power of ten that is not above a number. -/
def decimalOrder (num den : Nat) : Int :=
  let guess : Int := (Text.decimal num).length - (Text.decimal den).length
  if den * Nat.pow 10 guess.toNat ≤ num * Nat.pow 10 (-guess).toNat then guess else guess - 1

/-- The leading digits of a number, which are those of zero if it is zero. -/
def scientificDigits (num den places : Nat) : Nat × Int :=
  if num = 0 then (0, 0) else leadingDigits num den places (decimalOrder num den)

/-- An exponent with at least two digits. -/
def exponentText (exponent : Int) : List Char :=
  let digits := Text.decimal exponent.natAbs
  'e' :: (if exponent < 0 then '-' else '+') :: (List.replicate (2 - digits.length) '0' ++ digits)

/-- The number with one digit in front of the point and an exponent. -/
def scientific (num den places : Nat) (always : Bool) : List Char :=
  let (digits, exponent) := scientificDigits num den places
  withPoint places always (Text.decimal digits) ++ exponentText exponent

/-- Takes the zeros off the end of a fraction. -/
def trimZeros (text : List Char) : List Char :=
  if text.contains '.' then
    ((text.reverse.dropWhile (· == '0')).dropWhile (· == '.')).reverse
  else text

/-- The number in positions, or with an exponent where that is far from zero, with so many
digits at most. -/
def general (num den digits : Nat) (always : Bool) : List Char :=
  let digits := max digits 1
  let exponent := (scientificDigits num den (digits - 1)).2
  if -4 ≤ exponent ∧ exponent < digits then
    let text := positional num den (Int.ofNat digits - 1 - exponent).toNat always
    if always then text else trimZeros text
  else
    let text := scientific num den (digits - 1) always
    let (front, behind) := (text.takeWhile (· != 'e'), text.dropWhile (· != 'e'))
    if always then text else trimZeros front ++ behind

/-- A magnitude by the letter that asks for its form. -/
def text (letter : Char) (places : Nat) (always : Bool) : Binary64 → List Char
  | nan => "nan".toList
  | infinite => "inf".toList
  | finite m e =>
      let num := m * powerAbove e
      let den := powerAbove (-e)
      match letter with
      | 'f' => positional num den places always
      | 'e' => scientific num den places always
      | _ => general num den places always

/-- Digits with an optional point at the front of a text: those before the point, those
behind it, and the rest. -/
def readPlaces (isDigit : Char → Bool) (text : List Char) :
    List Char × List Char × List Char :=
  let whole := text.takeWhile isDigit
  match text.drop whole.length with
  | '.' :: more =>
      let fraction := more.takeWhile isDigit
      if whole.isEmpty && fraction.isEmpty then ([], [], text)
      else (whole, fraction, more.drop fraction.length)
  | rest => (whole, [], rest)

/-- An exponent behind its letter, or nothing, and the rest. -/
def readPower (letter : Char) (text : List Char) : Int × List Char :=
  match text with
  | c :: more =>
      let (negative, digits) := Binary32.readSign more
      let read := digits.takeWhile Char.isDigit
      if c.toLower = letter && !read.isEmpty then
        (Binary32.withSign negative (Binary32.digitsValue read), digits.drop read.length)
      else (0, text)
  | [] => (0, text)

/-- Whether a character is a digit to the base of sixteen, and its value. -/
def isHexDigit (c : Char) : Bool :=
  c.isDigit || "abcdef".toList.contains c.toLower

def hexValue (digits : List Char) : Nat :=
  digits.foldl (fun value c =>
    16 * value + (if c.isDigit then c.toNat - '0'.toNat else c.toLower.toNat - 'a'.toNat + 10)) 0

/-- The decimal number at the front of a text, unless there is none. -/
def readDecimal? (text : List Char) : Option (Binary64 × List Char) :=
  let (whole, fraction, rest) := readPlaces Char.isDigit text
  if whole.isEmpty && fraction.isEmpty then none
  else
    let (exponent, rest) := readPower 'e' rest
    let digits := Binary32.digitsValue (whole ++ fraction)
    some (ofDecimal digits (exponent - fraction.length), rest)

/-- The largest power of two that is looked at. -/
def binaryReach : Int := 5000

/-- The hexadecimal number at the front of a text, unless there is none. -/
def readHex? (text : List Char) : Option (Binary64 × List Char) :=
  match text with
  | '0' :: x :: text =>
      let (whole, fraction, rest) := readPlaces isHexDigit text
      if x.toLower ≠ 'x' || (whole.isEmpty && fraction.isEmpty) then none
      else
        let (exponent, rest) := readPower 'p' rest
        let exponent := max (-binaryReach) (min binaryReach exponent) - 4 * fraction.length
        let digits := hexValue (whole ++ fraction)
        some (nearest (digits * powerAbove exponent) (powerAbove (-exponent)), rest)
  | _ => none

/-- The magnitude at the front of a text without a sign, unless there is none, with what is
behind it. -/
def read? (text : List Char) : Option (Binary64 × List Char) :=
  let word (name : String) : Bool := name.toList.isPrefixOf (Text.lowerAscii text)
  if word "infinity" then some (infinite, text.drop 8)
  else if word "inf" then some (infinite, text.drop 3)
  else if word "nan" then some (nan, text.drop 3)
  else (readHex? text).or (readDecimal? text)

end Binary64

end ThemedSvg

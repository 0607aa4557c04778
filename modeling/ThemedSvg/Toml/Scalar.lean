/-
# TOML numbers and dates

A word that is no string is a truth value, a number or a date. Each has its own
strict form: underscores only between digits, no zeros in front, days that their
month has, and nothing beyond the range of 64-bit numbers.
-/

import ThemedSvg.Markup.Entity
import ThemedSvg.Text.Space
import ThemedSvg.Toml.Value

namespace ThemedSvg.Toml

/-- The digits of a run in a radix, which single underscores may divide. -/
def digits? (radix : Nat) (text : List Char) : Option (List Nat) :=
  ((text.splitOn '_').mapM fun (group : List Char) =>
    if group.isEmpty then none else group.mapM (Markup.digitValue? radix)).map List.flatten

/-- The number of a digit sequence. -/
def numberOf (radix : Nat) (digits : List Nat) : Nat :=
  digits.foldl (fun value digit => radix * value + digit) 0

/-- Takes a sign off the front. -/
def unsigned : List Char → Bool × List Char
  | '-' :: rest => (true, rest)
  | '+' :: rest => (false, rest)
  | text => (false, text)

/-- Decimal digits without a zero in front of others. -/
def decimal? (text : List Char) : Option (List Nat) :=
  match digits? 10 text with
  | some (0 :: _ :: _) => none
  | found => found

/-- A number in 64 bits. -/
def inRange? (value : Int) : Option Value :=
  let limit : Int := Nat.pow 2 63
  if -limit ≤ value ∧ value < limit then some (.integer value) else none

/-- An integer: decimal with or without a sign, or in another radix without one. -/
def integer? : List Char → Option Value
  | '0' :: 'x' :: text => (digits? 16 text).bind fun digits => inRange? (numberOf 16 digits)
  | '0' :: 'o' :: text => (digits? 8 text).bind fun digits => inRange? (numberOf 8 digits)
  | '0' :: 'b' :: text => (digits? 2 text).bind fun digits => inRange? (numberOf 2 digits)
  | text =>
      let (negative, text) := unsigned text
      (decimal? text).bind fun digits =>
        let value : Int := numberOf 10 digits
        inRange? (if negative then -value else value)

/-- Whether `digits · 10 ^ exponent` is too large for a 64-bit float: as large as what
rounds beyond the largest one. -/
def overflows (digits : Nat) (exponent : Int) : Bool :=
  let places : Int := (Text.decimal digits).length
  if digits = 0 || places + exponent < 300 then false
  else if 320 < places + exponent then true
  else
    let limit := Nat.pow 2 1024 - Nat.pow 2 970
    limit * Nat.pow 10 (-exponent).toNat ≤ digits * Nat.pow 10 exponent.toNat

/-- An exponent behind its letter. Zeros may stand in front. -/
def exponent? (text : List Char) : Option Int :=
  let (negative, text) := unsigned text
  (digits? 10 text).map fun digits =>
    let value : Int := numberOf 10 digits
    if negative then -value else value

/-- Cuts at the letter of an exponent. -/
def splitExponent (text : List Char) : List Char × Option (List Char) :=
  let isLetter := fun c => c == 'e' || c == 'E'
  match text.dropWhile fun c => !isLetter c with
  | [] => (text, none)
  | _ :: rest => (text.takeWhile fun c => !isLetter c, some rest)

/-- A float: digits with a fraction or an exponent, or a word for infinity or NaN. One
that is too large is refused, unless it is negative. -/
def float? (text : List Char) : Option Value :=
  let (negative, text) := unsigned text
  if text = "inf".toList || text = "nan".toList then some .float
  else do
    let (mantissa, exponentText) := splitExponent text
    let (whole, fraction) :=
      match Text.splitFirst '.' mantissa with
      | some (whole, fraction) => (whole, some fraction)
      | none => (mantissa, none)
    if fraction.isNone && exponentText.isNone then none
    else
      let wholeDigits ← decimal? whole
      let fractionDigits ←
        match fraction with
        | none => some []
        | some fraction => digits? 10 fraction
      let exponent ←
        match exponentText with
        | none => some 0
        | some text => exponent? text
      let digits := numberOf 10 (wholeDigits ++ fractionDigits)
      if !negative && overflows digits (exponent - fractionDigits.length) then none
      else some .float

/-- A number of exactly so many digits at the front, between two bounds. -/
def field? (length low high : Nat) (text : List Char) : Option (Nat × List Char) := do
  let digits ← (text.take length).mapM (Markup.digitValue? 10)
  let value := numberOf 10 digits
  if digits.length = length ∧ low ≤ value ∧ value ≤ high then some (value, text.drop length)
  else none

/-- A given character at the front. -/
def mark? (mark : Char) : List Char → Option (List Char)
  | c :: rest => if c = mark then some rest else none
  | [] => none

/-- The days of a month. -/
def daysIn (year month : Nat) : Nat :=
  if month = 2 then
    if year % 4 = 0 && (year % 100 != 0 || year % 400 = 0) then 29 else 28
  else if month = 4 || month = 6 || month = 9 || month = 11 then 30 else 31

/-- A date at the front: year, month and day. -/
def date? (text : List Char) : Option (List Char) := do
  let (year, text) ← field? 4 0 9999 text
  let text ← mark? '-' text
  let (month, text) ← field? 2 1 12 text
  let text ← mark? '-' text
  let (_, text) ← field? 2 1 (daysIn year month) text
  return text

/-- A time at the front: hour, minute and second, which may have a fraction. -/
def time? (text : List Char) : Option (List Char) := do
  let (_, text) ← field? 2 0 23 text
  let text ← mark? ':' text
  let (_, text) ← field? 2 0 59 text
  let text ← mark? ':' text
  let (_, text) ← field? 2 0 60 text
  match text with
  | '.' :: fraction =>
      if (fraction.head?.map Char.isDigit).getD false then some (fraction.dropWhile Char.isDigit)
      else none
  | text => some text

/-- An offset from universal time. -/
def isOffset (text : List Char) : Bool :=
  match text with
  | ['Z'] | ['z'] => true
  | sign :: text =>
      (sign == '+' || sign == '-') &&
        (do
          let (_, text) ← field? 2 0 23 text
          let text ← mark? ':' text
          let (_, text) ← field? 2 0 59 text
          return text.isEmpty : Option Bool).getD false
  | [] => false

/-- Whether a word is a time. -/
def isTime (text : List Char) : Bool :=
  ((time? text).map List.isEmpty).getD false

/-- Whether a word is a date, alone or with a time, which may have an offset. -/
def isDate (text : List Char) : Bool :=
  match date? text with
  | none => false
  | some [] => true
  | some (mark :: rest) =>
      (mark == 'T' || mark == 't' || mark == ' ') &&
        match time? rest with
        | none => false
        | some [] => true
        | some offset => isOffset offset

/-- The value of a word. -/
def scalar? (word : List Char) : Option Value :=
  if word = "true".toList then some (.boolean true)
  else if word = "false".toList then some (.boolean false)
  else if isDate word || isTime word then some .dateTime
  else
    match float? word with
    | some value => some value
    | none => integer? word

/-- The characters of words that are no strings. -/
def isInWord (c : Char) : Bool :=
  c.isAlphanum || c == '+' || c == '-' || c == '_' || c == '.' || c == ':'

/-- A word at the front and the rest. A date goes on behind a blank with its time. -/
def takeWord (text : List Char) : List Char × List Char :=
  let word := text.takeWhile isInWord
  let rest := text.dropWhile isInWord
  match date? word, rest with
  | some [], ' ' :: next :: more =>
      if next.isDigit then
        (word ++ ' ' :: (next :: more).takeWhile isInWord, (next :: more).dropWhile isInWord)
      else (word, rest)
  | _, _ => (word, rest)

end ThemedSvg.Toml

/-
# Entities

Five characters are written as entities inside attribute values, and any
character can be written by its number. Reading takes exactly the five names and
the decimal and hexadecimal numbers, and says where and how a reference fails.
-/

import ThemedSvg.Text.Bytes

namespace ThemedSvg.Markup

/-- How a reference to a character fails; offsets are bytes of the value. -/
inductive EntityFault
  | unterminated (start stop : Nat)
  | unrecognized (start stop : Nat) (name : String)
  | signedNumber
  | emptyNumber
  | invalidDigit
  | numberTooLarge
  | notCodePoint (number : Nat)
  | nullCharacter
  deriving DecidableEq, Repr

namespace EntityFault

/-- What a number fails with is said behind this. -/
private def inNumber (cause : String) : String := "invalid character reference: " ++ cause

def message : EntityFault → String
  | unterminated start stop =>
      s!"Error while escaping character at range {start}..{stop}: Cannot find ';' after '&'"
  | unrecognized start stop name => s!"at {start}..{stop}: unrecognized entity `{name}`"
  | signedNumber => inNumber "unexpected number sign"
  | emptyNumber => inNumber "cannot parse integer from empty string"
  | invalidDigit => inNumber "invalid digit found in string"
  | numberTooLarge => inNumber "number too large to fit in target type"
  | notCodePoint number => inNumber s!"`{number}` is not a valid codepoint"
  | nullCharacter => inNumber "0x0 character is not permitted in XML"

end EntityFault

/-- A character as it stands in an attribute value. -/
def escapeChar : Char → List Char
  | '<' => "&lt;".toList
  | '>' => "&gt;".toList
  | '\'' => "&apos;".toList
  | '&' => "&amp;".toList
  | '"' => "&quot;".toList
  | c => [c]

/-- A text as it stands in an attribute value. -/
def escape (text : List Char) : List Char :=
  text.flatMap escapeChar

/-- The character of a named entity. -/
def named? (name : List Char) : Option Char :=
  if name = "lt".toList then some '<'
  else if name = "gt".toList then some '>'
  else if name = "amp".toList then some '&'
  else if name = "apos".toList then some '\''
  else if name = "quot".toList then some '"'
  else none

/-- The value of a digit in a radix up to 16. -/
def digitValue? (radix : Nat) (c : Char) : Option Nat :=
  let value :=
    if c.isDigit then c.toNat - '0'.toNat
    else if 'a' ≤ c ∧ c ≤ 'f' then c.toNat - 'a'.toNat + 10
    else if 'A' ≤ c ∧ c ≤ 'F' then c.toNat - 'A'.toNat + 10
    else radix
  if value < radix then some value else none

/-- Reads digits from the left on top of `value`; the first digit that is none, or
that takes the number to `2 ^ 32`, is the fault. -/
def readDigits (radix value : Nat) : List Char → Except EntityFault Nat
  | [] => .ok value
  | c :: rest =>
      match digitValue? radix c with
      | none => .error .invalidDigit
      | some digit =>
          let value := radix * value + digit
          if Nat.pow 2 32 ≤ value then .error .numberTooLarge else readDigits radix value rest

/-- A number without a sign. -/
def readNumber (radix : Nat) (digits : List Char) : Except EntityFault Nat :=
  match digits with
  | [] => .error .emptyNumber
  | '+' :: _ | '-' :: _ => .error .signedNumber
  | _ => readDigits radix 0 digits

/-- The character that a number stands for. -/
def ofNumber (number : Nat) : Except EntityFault Char :=
  if number = 0 then .error .nullCharacter
  else if number.isValidChar then .ok (Char.ofNat number)
  else .error (.notCodePoint number)

/-- The character of a reference: what stands between `&`, at byte `start`, and
`;`, at byte `stop`. -/
def dereference (start stop : Nat) (reference : List Char) : Except EntityFault Char :=
  match reference with
  | '#' :: 'x' :: digits => readNumber 16 digits >>= ofNumber
  | '#' :: digits => readNumber 10 digits >>= ofNumber
  | name =>
      match named? name with
      | some c => .ok c
      | none => .error (.unrecognized (start + 1) stop (String.ofList name))

/-- Reads a value from byte `offset` on. `pending` is a reference that has begun:
where its `&` stands, and what was read of it, backwards. -/
def unescapeFrom (total : Nat) (pending : Option (Nat × List Char)) (offset : Nat) :
    List Char → Except EntityFault (List Char)
  | [] =>
      match pending with
      | none => .ok []
      | some (start, _) => .error (.unterminated start total)
  | c :: rest =>
      match pending with
      | none =>
          if c = '&' then unescapeFrom total (some (offset, [])) (offset + 1) rest
          else (unescapeFrom total none (offset + c.utf8Size) rest).map (c :: ·)
      | some (start, read) =>
          if c = ';' then do
            let referent ← dereference start offset read.reverse
            return referent :: (← unescapeFrom total none (offset + 1) rest)
          else if c = '&' then .error (.unterminated start total)
          else unescapeFrom total (some (start, c :: read)) (offset + c.utf8Size) rest

/-- The text that an attribute value stands for. -/
def unescape (value : List Char) : Except EntityFault (List Char) :=
  unescapeFrom (Text.byteLength value) none 0 value

end ThemedSvg.Markup

/-
# TOML strings and keys

Strings stand between double quotes, with escapes, or single ones, without; three
quotes make a string of several lines. A key is a bare word or a string of one
line. Each reader takes its part off the front of a text and leaves the rest.
-/

import ThemedSvg.Markup.Entity

namespace ThemedSvg.Toml

/-- Blanks within a line. -/
def isBlank (c : Char) : Bool := c == ' ' || c == '\t'

def skipBlank (text : List Char) : List Char := text.dropWhile isBlank

/-- A line break at the front, taken off. -/
def newline? : List Char → Option (List Char)
  | '\n' :: rest => some rest
  | '\r' :: '\n' :: rest => some rest
  | _ => none

/-- Every character may stand in a line, but for controls other than the tab. -/
def isInLine (c : Char) : Bool :=
  c == '\t' || (0x20 ≤ c.toNat && c.toNat != 0x7F)

/-- A line break, or the end, behind blanks and a comment. -/
def endLine? (text : List Char) : Option (List Char) :=
  let text := skipBlank text
  let text := if text.head? = some '#' then text.dropWhile isInLine else text
  if text.isEmpty then some [] else newline? text

/-- The character of a hexadecimal escape of the given length. -/
def hexEscape? (length : Nat) (text : List Char) : Option (Char × List Char) := do
  let digits := text.take length
  if digits.length < length then none
  else
    let values ← digits.mapM (Markup.digitValue? 16)
    let number := values.foldl (fun value digit => 16 * value + digit) 0
    if number.isValidChar then some (Char.ofNat number, text.drop length) else none

/-- The character of an escape behind its backslash. -/
def escape? : List Char → Option (Char × List Char)
  | 'b' :: rest => some ('\x08', rest)
  | 't' :: rest => some ('\t', rest)
  | 'n' :: rest => some ('\n', rest)
  | 'f' :: rest => some ('\x0c', rest)
  | 'r' :: rest => some ('\r', rest)
  | '"' :: rest => some ('"', rest)
  | '\\' :: rest => some ('\\', rest)
  | 'u' :: rest => hexEscape? 4 rest
  | 'U' :: rest => hexEscape? 8 rest
  | _ => none

/-- The text behind a line break that a backslash hides, with all blanks and breaks
after it. -/
def hiddenBreak? (text : List Char) : Option (List Char) :=
  (newline? (skipBlank text)).map fun rest =>
    let isWhite := fun c => isBlank c || c == '\n' || c == '\r'
    rest.dropWhile isWhite

/-- What ends or continues a string: its quote, whether it has escapes, and whether
it goes over several lines. -/
structure StringForm where
  quote : Char
  escapes : Bool
  multiline : Bool
  deriving DecidableEq, Repr

/-- The characters of a string up to its end, and the rest. A string of several lines
ends with three quotes, before which two more can belong to it. `fuel` bounds the
characters to be read. -/
def readBody (form : StringForm) : Nat → List Char → Option (List Char × List Char)
  | 0, _ | _, [] => none
  | fuel + 1, c :: rest =>
      if c = form.quote then
        if form.multiline then
          let run := ((c :: rest).takeWhile (· == form.quote)).take 5
          let after := (c :: rest).drop run.length
          if 3 ≤ run.length then some (run.drop 3, after)
          else (readBody form fuel after).map fun (text, after) => (run ++ text, after)
        else some ([], rest)
      else if c = '\\' && form.escapes then
        match form.multiline, hiddenBreak? rest with
        | true, some rest => readBody form fuel rest
        | _, _ => do
            let (escaped, rest) ← escape? rest
            let (text, after) ← readBody form fuel rest
            return (escaped :: text, after)
      else if isInLine c then
        (readBody form fuel rest).map fun (text, after) => (c :: text, after)
      else
        match form.multiline, newline? (c :: rest) with
        | true, some rest => (readBody form fuel rest).map fun (text, after) => ('\n' :: text, after)
        | _, _ => none

/-- A string behind its opening quotes. A break right behind three quotes is left out. -/
def readString (form : StringForm) (text : List Char) : Option (String × List Char) :=
  let text := if form.multiline then (newline? text).getD text else text
  (readBody form (text.length + 1) text).map fun (read, rest) => (String.ofList read, rest)

/-- A string of one line. -/
def line? : List Char → Option (String × List Char)
  | '"' :: rest => readString ⟨'"', true, false⟩ rest
  | '\'' :: rest => readString ⟨'\'', false, false⟩ rest
  | _ => none

/-- A string in any form. -/
def string? : List Char → Option (String × List Char)
  | '"' :: '"' :: '"' :: rest => readString ⟨'"', true, true⟩ rest
  | '\'' :: '\'' :: '\'' :: rest => readString ⟨'\'', false, true⟩ rest
  | text => line? text

/-- The characters of bare keys. -/
def isBare (c : Char) : Bool := c.isAlphanum || c == '_' || c == '-'

/-- One part of a key. -/
def part? (text : List Char) : Option (String × List Char) :=
  match line? text with
  | some found => some found
  | none =>
      let bare := text.takeWhile isBare
      if bare.isEmpty then none else some (String.ofList bare, text.dropWhile isBare)

/-- Reads the parts of a dotted key, with blanks around them. `fuel` bounds their number. -/
def parts? : Nat → List Char → Option (List String × List Char)
  | 0, _ => none
  | fuel + 1, text => do
      let (part, rest) ← part? (skipBlank text)
      match skipBlank rest with
      | '.' :: rest =>
          let (parts, rest) ← parts? fuel rest
          return (part :: parts, rest)
      | rest => return ([part], rest)

/-- How many parts a key may have, and how deep arrays and tables may nest. -/
def depthLimit : Nat := 79

/-- A dotted key: the way to its last part, that part, and the rest. -/
def key? (text : List Char) : Option (List String × String × List Char) := do
  let (parts, rest) ← parts? depthLimit text
  let last ← parts.getLast?
  return (parts.dropLast, last, rest)

end ThemedSvg.Toml

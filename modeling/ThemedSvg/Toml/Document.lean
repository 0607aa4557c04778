/-
# TOML documents

A document is read line by line: a header opens a table, and a key with a value
goes into the table that is open. Arrays go over several lines, tables in braces do
not. The whole document is refused if any of it is.
-/

import ThemedSvg.Toml.Scalar
import ThemedSvg.Toml.Text

namespace ThemedSvg.Toml

/-- Skips blanks, line breaks and comments. `fuel` bounds the lines. -/
def skipLines : Nat → List Char → List Char
  | 0, text => text
  | fuel + 1, text =>
      let text := skipBlank text
      match text with
      | [] => []
      | _ :: _ =>
          match endLine? text with
          | some rest => skipLines fuel rest
          | none => text

/-- A value at the front of a text, and the rest. -/
abbrev Reader := List Char → Option (Value × List Char)

/-- The items of an array behind its bracket or a comma. `fuel` bounds their number. -/
def items? (value? : Reader) : Nat → List Char → Option (List Value × List Char)
  | 0, _ => none
  | fuel + 1, text =>
      match skipLines text.length text with
      | ']' :: rest => some ([], rest)
      | text => do
          let (item, rest) ← value? text
          match skipLines rest.length rest with
          | ',' :: rest =>
              let (items, rest) ← items? value? fuel rest
              return (item :: items, rest)
          | ']' :: rest => return ([item], rest)
          | _ => none

/-- A key and its value, and the rest. -/
def pair? (value? : Reader) (text : List Char) :
    Option (List String × String × Value × List Char) := do
  let (path, key, rest) ← key? text
  let rest ← mark? '=' rest
  let (value, rest) ← value? (skipBlank rest)
  return (path, key, value, rest)

/-- The pairs of a table in braces, added to those before. `fuel` bounds their number. -/
def pairs? (value? : Reader) : Nat → Entries → List Char → Option (Entries × List Char)
  | 0, _, _ => none
  | fuel + 1, entries, text => do
      let (path, key, value, rest) ← pair? value? text
      let entries ← entries.addAt path key value .headed
      match skipBlank rest with
      | ',' :: rest => pairs? value? fuel entries rest
      | '}' :: rest => return (entries, rest)
      | _ => none

/-- A table in braces behind the first one. -/
def braced? (value? : Reader) (text : List Char) : Option (Entries × List Char) :=
  match skipBlank text with
  | '}' :: rest => some ([], rest)
  | text => pairs? value? text.length [] text

/-- Reads a value that is neither an array nor a table. -/
def plain? (text : List Char) : Option (Value × List Char) :=
  match text with
  | '"' :: _ | '\'' :: _ => (string? text).map fun (read, rest) => (.text read, rest)
  | text =>
      let (word, rest) := takeWord text
      (scalar? word).map (·, rest)

/-- Reads a value in which arrays and tables nest to the given depth at most. -/
def value? : Nat → Reader
  | 0, text => plain? text
  | depth + 1, text =>
      match text with
      | '[' :: rest =>
          (items? (value? depth) (rest.length + 1) rest).map fun (items, rest) => (.array items, rest)
      | '\x7b' :: rest =>
          (braced? (value? depth) rest).map fun (entries, rest) => (.table .braced entries, rest)
      | text => plain? text

/-- A document while it is read: all its entries, and the way to the open table. -/
structure Reading where
  entries : Entries
  opened : List String

namespace Reading

/-- Changes the table at the end of a path from the document on. -/
def change (reading : Reading) (path : List String)
    (edit : TableKind → Entries → Option Entries) : Option Entries :=
  Entries.within false edit path .headed reading.entries

/-- Reads a header, behind its bracket, and the end of its line. -/
def header? (reading : Reading) (isArray : Bool) (text : List Char) :
    Option (Reading × List Char) := do
  let (path, key, rest) ← key? text
  let rest ← mark? ']' rest
  let rest ← if isArray then mark? ']' rest else some rest
  let rest ← endLine? rest
  let edit := if isArray then Entries.growTables key else Entries.openTable key
  let entries ← reading.change path edit
  return (⟨entries, path ++ [key]⟩, rest)

/-- Reads a key with its value, and the end of the line. -/
def assignment? (reading : Reading) (text : List Char) : Option (Reading × List Char) := do
  let (path, key, value, rest) ← pair? (value? depthLimit) text
  let rest ← endLine? rest
  let entries ← reading.change reading.opened (Entries.addAt path key value)
  return ({ reading with entries }, rest)

/-- Reads one line. -/
def line? (reading : Reading) (text : List Char) : Option (Reading × List Char) :=
  match endLine? text with
  | some rest => some (reading, rest)
  | none =>
      match skipBlank text with
      | '[' :: '[' :: rest => reading.header? true rest
      | '[' :: rest => reading.header? false rest
      | text => reading.assignment? text

/-- Reads all lines. `fuel` bounds their number. -/
def lines? : Nat → Reading → List Char → Option Entries
  | _, reading, [] => some reading.entries
  | 0, _, _ => none
  | fuel + 1, reading, text => do
      let (reading, rest) ← reading.line? text
      lines? fuel reading rest

end Reading

/-- The table of a document, which a byte order mark may precede. -/
def document? (text : String) : Option Entries :=
  let text :=
    match text.toList with
    | '\uFEFF' :: rest => rest
    | text => text
  Reading.lines? text.length ⟨[], []⟩ text

end ThemedSvg.Toml

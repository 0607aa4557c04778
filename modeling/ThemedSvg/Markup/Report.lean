/-
# Fault reports

A report shows the line that a fault points at, with a mark under the character
and the message behind it, in color for a terminal. Positions are read as counts of
characters. A position beyond the text leaves only the header.
-/

import ThemedSvg.Markup.Fault
import ThemedSvg.Text.Line
import ThemedSvg.Text.Width

namespace ThemedSvg.Markup

namespace Report

/-- The colors of a report. -/
inductive Ink
  | fault
  | margin
  | skippedMargin
  | context
  deriving DecidableEq, Repr

namespace Ink

/-- The parameters of the escape sequence that selects the color. -/
def code : Ink → String
  | fault => "31"
  | margin => "38;5;246"
  | skippedMargin => "38;5;240"
  | context => "38;5;249"

/-- A text in color. -/
def paint (ink : Ink) (text : String) : String :=
  "\x1b[" ++ ink.code ++ "m" ++ text ++ "\x1b[0m"

end Ink

def spaces (n : Nat) : String := String.ofList (List.replicate n ' ')

/-- The columns between tab stops. -/
def tabWidth : Nat := 4

/-- How a character at a column is shown: which one, and over how many columns. A
tab reaches to the next stop, and other white space is one blank. -/
def shown (column : Nat) (c : Char) : Char × Nat :=
  if c = '\t' then (' ', (column / tabWidth + 1) * tabWidth - column)
  else if Text.isSpace c then (' ', 1)
  else (c, Text.displayWidth c)

/-- The columns of whatever stands at a place of a line; beyond its end that is one. -/
def widthAt (text : List Char) (column : Nat) : Nat :=
  match text[column]? with
  | some c => (shown column c).2
  | none => 1

/-- A part of the report's drawing over some columns: `first`, then `rest`. -/
def stretch (width : Nat) (first rest : String) : String :=
  String.join (if width = 0 then [] else first :: List.replicate (width - 1) rest)

/-- What a report draws: the line, and in characters of it where the mark starts
and ends. -/
structure Picture where
  line : Text.Line
  start : Nat
  stop : Nat

namespace Picture

/-- The line without the white space at its end. -/
def text (picture : Picture) : List Char := Text.trimEnd picture.line.text

/-- The number of the line, counted from one. -/
def number (picture : Picture) : Nat := picture.line.index + 1

/-- The columns of the line number. -/
def numberWidth (picture : Picture) : Nat := (Text.decimal picture.number).length

/-- The left edge before the line. -/
def numberedEdge (picture : Picture) : String :=
  " " ++ Ink.margin.paint (s!"{picture.number} │") ++ " "

/-- The left edge before everything else. -/
def plainEdge (picture : Picture) : String :=
  " " ++ Ink.skippedMargin.paint (spaces (picture.numberWidth + 1) ++ "│") ++ " "

/-- The line itself; what the mark covers stands out. -/
def source (picture : Picture) : String :=
  String.join (picture.text.zipIdx.map fun (c, column) =>
    let ink := if picture.start ≤ column ∧ column < picture.stop then Ink.fault else Ink.context
    let (c, width) := shown column c
    if Text.isSpace c then stretch width (ink.paint " ") (ink.paint " ")
    else ink.paint (String.singleton c))

/-- The columns that the mark and the arrow to its message take. -/
def columns (picture : Picture) : List Nat := List.range (picture.stop + 2)

/-- The mark under the line: a line below the character, or a bar between two. -/
def mark (picture : Picture) : String :=
  String.join (picture.columns.map fun column =>
    let draw := Ink.fault.paint
    let (first, rest) :=
      if column != picture.start then (" ", " ")
      else if picture.start < picture.stop then (draw "┬", draw "─")
      else (draw "│", draw " ")
    stretch (widthAt picture.text column) first rest)

/-- The arrow from the mark to the message. -/
def arrow (picture : Picture) : String :=
  String.join (picture.columns.map fun column =>
    let draw := Ink.fault.paint
    let (first, rest) :=
      if column < picture.start then (" ", " ")
      else if column = picture.start then (draw "╰", draw "─")
      else (draw "─", draw "─")
    stretch (widthAt picture.text column) first rest)

/-- The line with its mark and message. A mark that is not within the line is not
drawn, and its line neither. -/
def lines (picture : Picture) (message : String) : List String :=
  if picture.stop ≤ picture.line.text.length then
    [picture.numberedEdge ++ picture.source,
      picture.plainEdge ++ picture.mark,
      picture.plainEdge ++ picture.arrow ++ " " ++ message]
  else [picture.plainEdge]

/-- The frame around the line: the place of the fault above it, a corner below. -/
def framed (picture : Picture) (filename message : String) : List String :=
  let place := s!"{filename}:{picture.number}:{picture.start + 1}"
  let indent := spaces (picture.numberWidth + 2)
  let margin := Ink.margin.paint
  [indent ++ margin "╭" ++ margin "─" ++ margin "[" ++ place ++ margin "]",
    indent ++ margin "│"]
    ++ picture.lines message
    ++ [margin (String.ofList (List.replicate (picture.numberWidth + 2) '─') ++ "╯")]

end Picture

/-- The line that a fault of the source points at. -/
def line? (fault : ParseFault) (source : String) : Option Text.Line :=
  Text.lineAt? source.toList (fault.span source).1

/-- The line that a fault points at, with the place in it. -/
def picture? (fault : ParseFault) (source : String) : Option Picture :=
  let (start, stop) := fault.span source
  (line? fault source).map fun line => ⟨line, start - line.start, stop - line.start⟩

end Report

/-- The report of a fault in a source that goes by the given file name. -/
def report (fault : ParseFault) (source filename : String) : String :=
  let header := Report.Ink.fault.paint "Error:" ++ " " ++ fault.message
  let body := ((Report.picture? fault source).map (·.framed filename fault.message)).getD []
  String.join ((header :: body).map (· ++ "\n"))

end ThemedSvg.Markup

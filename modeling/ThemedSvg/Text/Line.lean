/-
# Lines

A text is cut behind every line terminator of Unicode; a carriage return and the
line feed behind it are one. Positions in lines count characters.
-/

import ThemedSvg.Text.Space

namespace ThemedSvg.Text

/-- Carriage return, line feed, vertical tab, form feed, next line, and the two
separators of Unicode. -/
def endsLine (c : Char) : Bool :=
  c == '\r' || (0x0A ≤ c.toNat && c.toNat ≤ 0x0C) || c == '\x85' || c == '\u2028' || c == '\u2029'

/-- The lines of a text, each with its terminator. An empty text has none. -/
def splitLines : List Char → List (List Char)
  | [] => []
  | '\r' :: '\n' :: rest => ['\r', '\n'] :: splitLines rest
  | c :: rest =>
      if endsLine c then [c] :: splitLines rest
      else
        match splitLines rest with
        | [] => [[c]]
        | line :: lines => (c :: line) :: lines

/-- A line of a text: its number from zero, the characters before it, and itself. -/
structure Line where
  index : Nat
  start : Nat
  text : List Char
  deriving DecidableEq, Repr

namespace Line

/-- The characters before the end of the line. -/
def stop (line : Line) : Nat := line.start + line.text.length

end Line

/-- Numbers lines from `index` on, of which the first starts behind `start`
characters. -/
def numberLines (index start : Nat) : List (List Char) → List Line
  | [] => []
  | text :: rest => ⟨index, start, text⟩ :: numberLines (index + 1) (start + text.length) rest

/-- The last line that starts at or before a position, if the text reaches to it. -/
def lineAt? (text : List Char) (position : Nat) : Option Line :=
  if position ≤ text.length then
    ((numberLines 0 0 (splitLines text)).filter fun line => line.start ≤ position).getLast?
  else none

@[simp]
theorem flatten_splitLines (text : List Char) : (splitLines text).flatten = text := by
  fun_induction splitLines text with
  | case1 => rfl
  | case2 rest ih => simp [ih]
  | case3 c rest _ _ ih => simp [ih]
  | case4 c rest _ _ hlines ih =>
      rw [hlines] at ih
      simp at ih
      simp [← ih]
  | case5 c rest _ _ line lines hlines ih =>
      rw [hlines] at ih
      simp [← ih]

end ThemedSvg.Text

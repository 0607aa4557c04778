/-
# Tokens of a declaration value

The value of a style declaration is cut into names, quoted strings, parentheses and
commas, with the bytes that each takes. Blanks between them are skipped. Everything
else is a stray token, which belongs to no call: a single character, or a quote that
is not closed with all that follows it.
-/

import ThemedSvg.Text.Bytes

namespace ThemedSvg.Declaration

/-- A kind of token. A quoted string is held without its quotes. -/
inductive Token
  | name (text : List Char)
  | quoted (text : List Char)
  | opening
  | closing
  | comma
  | stray
  deriving DecidableEq, Repr

/-- A token and the bytes it takes. -/
structure PlacedToken where
  token : Token
  start : Nat
  stop : Nat
  deriving DecidableEq, Repr

/-- The blanks between tokens. -/
def isBlank (c : Char) : Bool :=
  c == ' ' || c == '\t' || c == '\n' || c == '\r' || c == '\x0c'

/-- A letter or an underscore starts a name. -/
def startsName (c : Char) : Bool :=
  c.isAlpha || c == '_'

/-- Digits and dashes may follow in a name. -/
def continuesName (c : Char) : Bool :=
  startsName c || c.isDigit || c == '-'

def isQuote (c : Char) : Bool :=
  c == '"' || c == '\''

/-- The token that starts with `c`, the characters of it behind `c`, and the rest. A
quoted string has at least one character; a quote before another one is stray. -/
def take (c : Char) (rest : List Char) : Token × List Char × List Char :=
  if startsName c then
    let more := rest.takeWhile continuesName
    (.name (c :: more), more, rest.dropWhile continuesName)
  else if isQuote c then
    let text := rest.takeWhile (· != c)
    if text.isEmpty then (.stray, [], rest)
    else
      match rest.dropWhile (· != c) with
      | [] => (.stray, rest, [])
      | _ :: after => (.quoted text, text ++ [c], after)
  else if c = '(' then (.opening, [], rest)
  else if c = ')' then (.closing, [], rest)
  else if c = ',' then (.comma, [], rest)
  else (.stray, [], rest)

theorem length_take_le (c : Char) (rest : List Char) :
    (take c rest).2.2.length ≤ rest.length := by
  have hname := (List.dropWhile_suffix continuesName (l := rest)).length_le
  have hquote := (List.dropWhile_suffix (· != c) (l := rest)).length_le
  unfold take
  dsimp only
  repeat' split
  all_goals simp_all
  omega

/-- The tokens of a text that starts at byte `start`. -/
def tokensFrom (start : Nat) (text : List Char) : List PlacedToken :=
  match text with
  | [] => []
  | c :: rest =>
      if isBlank c then tokensFrom (start + 1) rest
      else
        let taken := take c rest
        let stop := start + c.utf8Size + Text.byteLength taken.2.1
        ⟨taken.1, start, stop⟩ :: tokensFrom stop taken.2.2
termination_by text.length
decreasing_by
  · simp
  · have := length_take_le c rest
    simp only [List.length_cons]
    omega

/-- The tokens of a declaration value. -/
def tokens (value : List Char) : List PlacedToken :=
  tokensFrom 0 value

end ThemedSvg.Declaration

/-
# Names in complaints

Filters complain about files and operands by name. A name of a file is written as a
shell would read it, so that it needs quotes only if a shell took it for something
else; an operand always stands between quotes.
-/

import ThemedSvg.Tool.Octets

namespace ThemedSvg.Tool

/-- A byte as three octal digits behind a backslash. -/
def octalEscape (c : Char) : Octets :=
  let digit (n : Nat) : Char := Char.ofNat ('0'.toNat + n % 8)
  ['\\', digit (c.toNat / 64), digit (c.toNat / 8), digit c.toNat]

/-- The letter behind a backslash that stands for a control character. -/
def controlLetter? (c : Char) : Option Char :=
  match c with
  | '\x07' => some 'a'
  | '\x08' => some 'b'
  | '\x0c' => some 'f'
  | '\n' => some 'n'
  | '\r' => some 'r'
  | '\t' => some 't'
  | '\x0b' => some 'v'
  | _ => none

/-- Whether a byte is shown as it is. -/
def isShown (c : Char) : Bool := ' ' ≤ c && c ≤ '~'

/-- A byte that is not shown, as an escape. -/
def escapeHidden (c : Char) : Octets :=
  match controlLetter? c with
  | some letter => ['\\', letter]
  | none => octalEscape c

/-- An operand between quotes. -/
def quoteOperand (operand : Octets) : Octets :=
  let inner := operand.flatMap fun c =>
    if c = '\'' then ['\\', '\''] else if c = '\\' then ['\\', '\\']
    else if isShown c then [c] else escapeHidden c
  '\'' :: inner ++ ['\'']

/-- Whether a shell takes a character of a word for something else. -/
def isSpecial (c : Char) : Bool :=
  " !\"$&()*;<=>?[^`|\\':".toList.contains c || !isShown c

/-- A name without quotes in it, in which parts that are not shown are escaped and stand
between quotes of their own. -/
def quoteParts (escaped : Bool) : Octets → Octets
  | [] => ['\'']
  | c :: rest =>
      if isShown c then
        let before := if escaped then ['\'', '\''] else []
        let body := if c = '\'' then ['\'', '\\', '\'', '\''] else [c]
        before ++ body ++ quoteParts false rest
      else
        let before := if escaped then [] else "'$'".toList
        before ++ escapeHidden c ++ quoteParts true rest

/-- The name of a file. -/
def quoteName (name : Octets) : Octets :=
  let leads := name.head? = some '#' || name.head? = some '~'
  if name.isEmpty then "''".toList
  else if name = ['\x7b'] || name = ['\x7d'] || leads || name.any isSpecial then
    if name.contains '\'' && name.all fun c => isShown c && !"\"$`\\!".toList.contains c then
      '"' :: name ++ ['"']
    else '\'' :: quoteParts false name
  else name

end ThemedSvg.Tool

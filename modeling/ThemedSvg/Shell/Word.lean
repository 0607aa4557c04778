/-
# Words of shell scripts

A word goes on to the next blank or operator, unless quotes, braces or parentheses keep
it together. What may stand in it depends on what is open: a dollar sign means the same
nearly everywhere, while quotes and backslashes mean less between double quotes.
-/

import ThemedSvg.Shell.Token

namespace ThemedSvg.Shell

open Tool (Octets)

/-- What is open around a piece of a word: nothing; braces, outside of quotes or inside of
them; double quotes; a sum in parentheses; or a text behind a command, or braces in it. In a
word that is to end such a text nothing is replaced, and neither is it between its quotes. -/
inductive Enclosure
  | bare
  | ending
  | endingQuotes
  | braces
  | quotes
  | quotedBraces
  | sum
  | document
  | documentBraces
  deriving DecidableEq, Repr

namespace Enclosure

/-- Whether characters have their meaning taken as double quotes take it. -/
def isQuoting : Enclosure → Bool
  | bare | ending | braces => false
  | _ => true

/-- Whether dollar signs and backquotes are nothing special. -/
def isLiteral : Enclosure → Bool
  | ending | endingQuotes => true
  | _ => false

/-- Whether a word goes on to the next blank or operator. -/
def isOpen : Enclosure → Bool
  | bare | ending => true
  | _ => false

/-- What is missing when the script ends before the enclosure does. -/
def missing : Enclosure → Option String
  | bare | ending | document => none
  | braces | documentBraces => some "Missing '\x7d'"
  | quotes | endingQuotes | quotedBraces => some "Unterminated quoted string"
  | sum => some "Missing '))'"

/-- Whether a backslash takes away the meaning of a character. -/
def escapes (enclosure : Enclosure) (c : Char) : Bool :=
  match enclosure with
  | bare | ending | braces => true
  | quotes | endingQuotes => "\\`$\"".toList.contains c
  | quotedBraces | documentBraces => "\\`$\"\x7d".toList.contains c
  | sum | document => "\\`$".toList.contains c

end Enclosure

/-- The parts of the grammar that call each other: the pieces in an enclosure, with
whether there were quotes; the commands of a list; and such a list with the parenthesis
that closes it. -/
structure Grammar where
  pieces : Enclosure → Parse (Word × Bool)
  list : Parse Command
  enclosed : Parse Command

/-- The characters that end a word. -/
def endsWord (c : Char) : Bool :=
  "\n\t ;&|<>()".toList.contains c

/-- Parameters that are named by a sign or a digit. -/
def isSpecialParam (c : Char) : Bool :=
  c.isDigit || "!?$@*#-".toList.contains c

namespace Word

/-- Joins pieces of text that stand side by side. -/
def joined : Word → Word
  | .text chars quoted :: rest =>
      match joined rest with
      | .text more quoted' :: rest' =>
          if quoted == quoted' then .text (chars ++ more) quoted :: rest'
          else .text chars quoted :: .text more quoted' :: rest'
      | rest' => .text chars quoted :: rest'
  | piece :: rest => piece :: joined rest
  | [] => []

end Word

namespace Parse

/-- Takes characters while they belong to a class. `fuel` bounds their number. -/
def takeWhile (isMember : Char → Bool) : Nat → Parse Octets
  | 0 => return []
  | fuel + 1 => do
      match ← peek? with
      | some c =>
          if isMember c then
            let _ ← raw?
            return c :: (← takeWhile isMember fuel)
          else return []
      | none => return []

/-- The characters up to a single quote. `fuel` bounds their number. -/
def singleQuoted : Nat → Parse Octets
  | 0 => fail "Unterminated quoted string"
  | fuel + 1 => do
      match ← raw? with
      | none => fail "Unterminated quoted string"
      | some '\'' => return []
      | some c => return c :: (← singleQuoted fuel)

/-- The characters up to a backquote. Backslashes in front of some of them are taken off.
`fuel` bounds their number. -/
def backquoted (quoted : Bool) : Nat → Parse Octets
  | 0 => fail "EOF in backquote substitution"
  | fuel + 1 => do
      match ← raw? with
      | none => fail "EOF in backquote substitution"
      | some '\x60' => return []
      | some '\\' =>
          match ← raw? with
          | none => fail "EOF in backquote substitution"
          | some '\n' => backquoted quoted fuel
          | some c =>
              let kept := !("\\`$".toList.contains c || (c == '"' && quoted))
              let more ← backquoted quoted fuel
              return if kept then '\\' :: c :: more else c :: more
      | some c => return c :: (← backquoted quoted fuel)

/-- Reads a part of a script from a text of its own. -/
def within {α : Type} (text : Octets) (line : Nat) (parse : Parse α) : Parse α := do
  let outer ← get
  set { outer with rest := text, line := line, putBack := none, awaited := [] }
  let found ← parse
  modify fun reader =>
    { reader with
      rest := outer.rest
      line := outer.line
      putBack := outer.putBack
      awaited := outer.awaited }
  return found

/-- The enclosure of the word in braces behind a dollar sign. -/
def inBraces (enclosure : Enclosure) (cuts : Bool) : Enclosure :=
  if !enclosure.isQuoting || cuts then .braces
  else if enclosure = .document || enclosure = .documentBraces then .documentBraces
  else .quotedBraces

/-- Takes a character that was read out of the count of lines. -/
def uncounted (c : Char) : Parse Unit := do
  if c = '\n' then modify fun reader => { reader with line := reader.line - 1 }

/-- Reads what is asked of a parameter, behind its name. -/
def useOf (grammar : Grammar) (enclosure : Enclosure) (orEmpty : Bool) (c : Char) : Parse Use := do
  let fallback? : Option Fallback :=
    match c with
    | '-' => some .orElse
    | '=' => some .assign
    | '?' => some .refuse
    | '+' => some .onlyIf
    | _ => none
  match fallback? with
  | some fallback =>
      let (word, _) ← grammar.pieces (inBraces enclosure false)
      return .missing fallback orEmpty word
  | none =>
      if !orEmpty && (c = '%' || c = '#') then
        let longest ← take? c
        let (word, _) ← grammar.pieces (inBraces enclosure true)
        return .cut (c = '%') longest word
      else
        uncounted c
        let _ ← grammar.pieces (inBraces enclosure false)
        return .invalid

/-- Reads the rest of a parameter in braces behind its name. -/
def afterName (grammar : Grammar) (enclosure : Enclosure) (name : Octets) : Parse Piece := do
  let quoted := enclosure.isQuoting
  match ← next? with
  | none =>
      let _ ← grammar.pieces (inBraces enclosure false)
      return .param name .invalid quoted
  | some '}' => return .param name .plain quoted
  | some ':' =>
      match ← next? with
      | some '}' => return .param name .plain quoted
      | some c => return .param name (← useOf grammar enclosure true c) quoted
      | none =>
          let _ ← grammar.pieces (inBraces enclosure false)
          return .param name .invalid quoted
  | some c => return .param name (← useOf grammar enclosure false c) quoted

/-- Reads the rest of what is no parameter. -/
def invalidRest (grammar : Grammar) (enclosure : Enclosure) : Parse Piece := do
  let _ ← grammar.pieces (inBraces enclosure false)
  return .param [] .invalid enclosure.isQuoting

/-- Reads what is no parameter from its first character on. -/
def invalidParam (grammar : Grammar) (enclosure : Enclosure) : Parse Piece := do
  if (← peek?) ≠ some '}' then
    match ← raw? with
    | some c => uncounted c
    | none => pure ()
  invalidRest grammar enclosure

/-- The name of a parameter: a word, or digits. -/
def paramName : Parse Octets := do
  let fuel := (← get).rest.length
  match ← peek? with
  | some c =>
      if startsName c then takeWhile continuesName fuel
      else if c.isDigit then takeWhile Char.isDigit fuel
      else return []
  | none => return []

/-- Reads the length of a parameter, behind its name. -/
def lengthOf (grammar : Grammar) (enclosure : Enclosure) (name : Octets) : Parse Piece := do
  if (← peek?) = some '}' then
    let _ ← raw?
    return .param name .length enclosure.isQuoting
  else invalidRest grammar enclosure

/-- Reads a parameter in braces, behind the first one. -/
def braced (grammar : Grammar) (enclosure : Enclosure) : Parse Piece := do
  let name ← paramName
  if !name.isEmpty then afterName grammar enclosure name
  else
    match ← peek? with
    | some '#' => do
        let _ ← raw?
        let name ← paramName
        if !name.isEmpty then lengthOf grammar enclosure name
        else
          let _ ← peek?
          match (← get).rest with
          | '}' :: _ => afterName grammar enclosure ['#']
          | c :: '}' :: _ =>
              if isSpecialParam c then
                let _ ← raw?
                lengthOf grammar enclosure [c]
              else if c = '}' then afterName grammar enclosure ['#']
              else invalidParam grammar enclosure
          | _ => afterName grammar enclosure ['#']
    | some c =>
        if isSpecialParam c then
          let _ ← raw?
          afterName grammar enclosure [c]
        else invalidParam grammar enclosure
    | none => invalidParam grammar enclosure

/-- Reads what is behind a dollar sign. -/
def dollar (grammar : Grammar) (enclosure : Enclosure) : Parse Piece := do
  let quoted := enclosure.isQuoting
  match ← peek? with
  | some '(' =>
      let _ ← raw?
      if ← take? '(' then
        let (pieces, _) ← grammar.pieces .sum
        return .sum pieces quoted
      else return .output (← grammar.enclosed) quoted
  | some '{' =>
      let _ ← raw?
      braced grammar enclosure
  | some c =>
      if startsName c then
        return .param (← takeWhile continuesName (← get).rest.length) .plain quoted
      else if isSpecialParam c then
        let _ ← raw?
        return .param [c] .plain quoted
      else return .text ['$'] quoted
  | none => return .text ['$'] quoted

/-- Reads a backquoted script. -/
def backquote (grammar : Grammar) (enclosure : Enclosure) : Parse Piece := do
  let text ← backquoted (enclosure = .quotes) ((← get).rest.length + 1)
  return .output (← within text 1 grammar.list) enclosure.isQuoting

/-- Reads the pieces in an enclosure up to its end, and tells whether there were quotes.
`depth` counts the parentheses that are open in a sum, or the quotes that are open in
quoted braces; `fuel` bounds the characters. -/
def piecesIn (grammar : Grammar) (enclosure : Enclosure) : Nat → Nat → Parse (Word × Bool)
  | 0, _ => fail "end of file unexpected"
  | fuel + 1, depth => do
      let quoted := enclosure.isQuoting
      let more (piece : Piece) (quotes : Bool) (depth : Nat) : Parse (Word × Bool) := do
        let (pieces, quotes') ← piecesIn grammar enclosure fuel depth
        return (piece :: pieces, quotes || quotes')
      match (← get).rest with
      | [] =>
          match enclosure.missing with
          | some message => fail message
          | none => return ([], false)
      | c :: _ =>
          if enclosure.isOpen && endsWord c then return ([], false)
          else
            let _ ← raw?
            match c with
            | '\\' =>
                match ← raw? with
                | none => more (.text ['\\'] true) true depth
                | some '\n' => piecesIn grammar enclosure fuel depth
                | some c =>
                    if enclosure.escapes c then more (.text [c] true) true depth
                    else more (.text ['\\', c] true) true depth
            | '$' =>
                if enclosure.isLiteral then more (.text ['$'] quoted) false depth
                else more (← dollar grammar enclosure) false depth
            | '\x60' =>
                if enclosure.isLiteral then more (.text ['\x60'] quoted) false depth
                else more (← backquote grammar enclosure) false depth
            | '\'' =>
                if quoted then more (.text ['\''] true) false depth
                else
                  let chars ← singleQuoted ((← get).rest.length + 1)
                  more (.text chars true) true depth
            | '"' =>
                match enclosure with
                | .quotes | .endingQuotes => return ([], true)
                | .quotedBraces | .documentBraces =>
                    let (pieces, _) ← piecesIn grammar enclosure fuel (1 - depth)
                    return (pieces, true)
                | .sum | .document => more (.text ['"'] true) false depth
                | .bare | .ending | .braces =>
                    let (inner, _) ←
                      grammar.pieces (if enclosure = .ending then .endingQuotes else .quotes)
                    let inner := if inner.isEmpty then [.text [] true] else inner
                    let (pieces, _) ← piecesIn grammar enclosure fuel depth
                    return (inner ++ pieces, true)
            | '}' =>
                let quotesOpen := 0 < depth && enclosure.isQuoting
                let closes := enclosure = .braces || enclosure = .quotedBraces
                  || enclosure = .documentBraces
                if closes && !quotesOpen then return ([], false)
                else more (.text ['}'] quoted) false depth
            | '(' =>
                if enclosure = .sum then more (.text ['('] true) false (depth + 1)
                else more (.text ['('] quoted) false depth
            | ')' =>
                if enclosure = .sum then
                  if 0 < depth then more (.text [')'] true) false (depth - 1)
                  else if ← take? ')' then return ([], false)
                  else more (.text [')'] true) false depth
                else more (.text [')'] quoted) false depth
            | c => more (.text [c] quoted) false depth

/-- The pieces in an enclosure. -/
def piecesOf (grammar : Grammar) (enclosure : Enclosure) : Parse (Word × Bool) := do
  let (pieces, quotes) ← piecesIn grammar enclosure ((← get).rest.length + 2) 0
  return (Word.joined pieces, quotes)

end Parse

end ThemedSvg.Shell

/-
# Sums of shell scripts

Expressions over whole numbers of 64 bits, with the operators and the precedence that
are common among languages, and with variables that they can change.
-/

import ThemedSvg.Shell.Syntax

namespace ThemedSvg.Shell

open Tool (Octets octalDigit?)

/-- An operation on two numbers. -/
inductive Operation
  | times
  | over
  | modulo
  | plus
  | minus
  | shiftLeft
  | shiftRight
  | less
  | lessEqual
  | greater
  | greaterEqual
  | equal
  | unequal
  | bitAnd
  | bitXor
  | bitOr
  deriving DecidableEq, Repr

/-- An expression. -/
inductive Term
  | number (value : Int)
  | named (name : Octets)
  | opposite (term : Term)
  | complement (term : Term)
  | negation (term : Term)
  | apply (operation : Operation) (left right : Term)
  | both (left right : Term)
  | either (left right : Term)
  | choice (test yes no : Term)
  | assign (name : Octets) (operation : Option Operation) (value : Term)
  deriving Repr

namespace Term

/-- A number in 64 bits, the highest of which is the sign. -/
def wrapped (value : Int) : Int := value.bmod (Nat.pow 2 64)

/-- The truth of a statement as a number. -/
def ofBool (truth : Bool) : Int := if truth then 1 else 0

/-- The bits of a number. -/
def bits (value : Int) : Nat := (value.emod (Nat.pow 2 64)).toNat

/-- Applies an operation, unless it divides by zero. -/
def applied? (operation : Operation) (left right : Int) : Option Int :=
  let shift := bits right % 64
  match operation with
  | .times => some (wrapped (left * right))
  | .over => if right = 0 then none else some (wrapped (left.tdiv right))
  | .modulo => if right = 0 then none else some (left.tmod right)
  | .plus => some (wrapped (left + right))
  | .minus => some (wrapped (left - right))
  | .shiftLeft => some (wrapped (left * Nat.pow 2 shift))
  | .shiftRight => some (left.fdiv (Nat.pow 2 shift))
  | .less => some (ofBool (left < right))
  | .lessEqual => some (ofBool (left ≤ right))
  | .greater => some (ofBool (right < left))
  | .greaterEqual => some (ofBool (right ≤ left))
  | .equal => some (ofBool (left = right))
  | .unequal => some (ofBool (left ≠ right))
  | .bitAnd => some (wrapped (Nat.land (bits left) (bits right)))
  | .bitXor => some (wrapped (Nat.xor (bits left) (bits right)))
  | .bitOr => some (wrapped (Nat.lor (bits left) (bits right)))

/-- The operations with their spellings, those that bind closest first; of two that start
alike, the longer one first. -/
def levels : List (List (String × Operation)) :=
  [[("*", .times), ("/", .over), ("%", .modulo)], [("+", .plus), ("-", .minus)],
    [("<<", .shiftLeft), (">>", .shiftRight)],
    [("<=", .lessEqual), (">=", .greaterEqual), ("<", .less), (">", .greater)],
    [("==", .equal), ("!=", .unequal)], [("&", .bitAnd)], [("^", .bitXor)], [("|", .bitOr)]]

/-- The operations that an assignment can make on the way. -/
def assigning : List (String × Operation) :=
  [("<<", .shiftLeft), (">>", .shiftRight), ("*", .times), ("/", .over), ("%", .modulo),
    ("+", .plus), ("-", .minus), ("&", .bitAnd), ("^", .bitXor), ("|", .bitOr)]

/-- Skips blanks. -/
def skipBlanks (text : Octets) : Octets :=
  text.dropWhile fun c => c == ' ' || c == '\t' || c == '\n'

/-- A text behind a start. -/
def behind? (start : String) (text : Octets) : Option Octets :=
  if start.toList.isPrefixOf text then some (text.drop start.length) else none

/-- Whether an operation is spelled here, and not a longer one that starts alike. -/
def isSpelled (spelling : String) (rest : Octets) : Bool :=
  let next := rest.head?
  let doubled := ["&", "|"].contains spelling && next = spelling.toList.head?
  let shifted := ["<", ">"].contains spelling && next = spelling.toList.head?
  let isComparison := ["<=", ">=", "==", "!="].contains spelling
  let assigned := next = some '=' && !isComparison
  !doubled && !shifted && !assigned

/-- The operation of a level at the front. -/
def operation? (level : List (String × Operation)) (text : Octets) : Option (Operation × Octets) :=
  level.findSome? fun (spelling, operation) =>
    match behind? spelling text with
    | some rest => if isSpelled spelling rest then some (operation, rest) else none
    | none => none

/-- The value of digits. -/
def valueOf (radix : Nat) (digits : Octets) : Nat :=
  digits.foldl (fun value c => radix * value + (Tool.hexDigit? c).getD 0) 0

/-- The greatest number. -/
def greatest : Nat := Nat.pow 2 63 - 1

/-- A number at the front: hexadecimal, octal or decimal. -/
def readNumber (text : Octets) : Nat × Octets :=
  match text with
  | '0' :: x :: rest =>
      let digits := rest.takeWhile fun c => (Tool.hexDigit? c).isSome
      if (x = 'x' || x = 'X') && !digits.isEmpty then (valueOf 16 digits, rest.drop digits.length)
      else
        let digits := (x :: rest).takeWhile fun c => (octalDigit? c).isSome
        (valueOf 8 digits, (x :: rest).drop digits.length)
  | text =>
      let digits := text.takeWhile Char.isDigit
      (valueOf 10 digits, text.drop digits.length)

/-- What is wrong with an expression. -/
abbrev Fault := String

/-- Reads a term. -/
abbrev Reading := Octets → Except Fault (Term × Octets)

/-- Reads operations of one level on terms of the level below. `fuel` bounds their
number. -/
def readLevel (below : Reading) (level : List (String × Operation)) :
    Nat → Term × Octets → Except Fault (Term × Octets)
  | 0, found => .ok found
  | fuel + 1, (left, text) =>
      match operation? level (skipBlanks text) with
      | none => .ok (left, text)
      | some (operation, rest) => do
          let (right, rest) ← below rest
          readLevel below level fuel (.apply operation left right, rest)

/-- Reads operations of all levels. -/
def readLevels (primary : Reading) : List (List (String × Operation)) → Reading
  | [] => primary
  | level :: closer => fun text => do
      let below := readLevels primary closer
      readLevel below level text.length (← below text)

/-- Reads statements that all have to hold. `fuel` bounds their number. -/
def readBoth (below : Reading) : Nat → Reading
  | 0, text => below text
  | fuel + 1, text => do
      let (left, rest) ← below text
      match behind? "&&" (skipBlanks rest) with
      | none => return (left, rest)
      | some rest =>
          let (right, rest) ← readBoth below fuel rest
          return (.both left right, rest)

/-- Reads statements one of which has to hold. `fuel` bounds their number. -/
def readEither (below : Reading) : Nat → Reading
  | 0, text => below text
  | fuel + 1, text => do
      let (left, rest) ← below text
      match behind? "||" (skipBlanks rest) with
      | none => return (left, rest)
      | some rest =>
          let (right, rest) ← readEither below fuel rest
          return (.either left right, rest)

/-- The operation of an assignment behind a name, if there is one at all. -/
def assignment? (text : Octets) : Option (Option Operation × Octets) :=
  match text with
  | '=' :: '=' :: _ => none
  | '=' :: rest => some (none, rest)
  | text =>
      assigning.findSome? fun (spelling, operation) =>
        (behind? (spelling ++ "=") text).map fun rest => (some operation, rest)

/-- Reads a primary term: a number, a name, an operation on one term, or an expression in
parentheses. -/
def readPrimary (unary expression : Reading) : Reading := fun text =>
  match skipBlanks text with
  | '(' :: rest => do
      let (term, rest) ← expression rest
      match skipBlanks rest with
      | ')' :: rest => return (term, rest)
      | _ => throw "expecting ')'"
  | '+' :: rest => unary rest
  | '-' :: rest => (unary rest).map fun (term, rest) => (opposite term, rest)
  | '~' :: rest => (unary rest).map fun (term, rest) => (complement term, rest)
  | '!' :: rest => (unary rest).map fun (term, rest) => (negation term, rest)
  | c :: rest =>
      if c.isDigit then
        let (value, rest) := readNumber (c :: rest)
        .ok (.number (Int.ofNat (min value greatest)), rest)
      else if startsName c then
        let name := (c :: rest).takeWhile continuesName
        .ok (named name, (c :: rest).drop name.length)
      else .error "expecting primary"
  | [] => .error "expecting primary"

/-- The parts of the grammar of expressions in which terms nest to a depth: a term that an
operation with one term takes, and a whole expression. -/
def readers : Nat → Reading × Reading
  | 0 => (fun _ => .error "expecting primary", fun _ => .error "expecting primary")
  | depth + 1 =>
      let unary : Reading := fun text => readPrimary (readers depth).1 (readers depth).2 text
      let either : Reading := fun text =>
        readEither (fun text => readBoth (readLevels unary levels.reverse) text.length text)
          text.length text
      let choice : Reading := fun text => do
        let (test, rest) ← either text
        match skipBlanks rest with
        | '?' :: rest => do
            let (yes, rest) ← (readers depth).2 rest
            match skipBlanks rest with
            | ':' :: rest => do
                let (no, rest) ← (readers depth).2 rest
                return (.choice test yes no, rest)
            | _ => throw "expecting ':'"
        | _ => return (test, rest)
      let expression : Reading := fun text =>
        let start := skipBlanks text
        let name := start.takeWhile continuesName
        if isName name then
          match assignment? (skipBlanks (start.drop name.length)) with
          | some (operation, rest) =>
              ((readers depth).2 rest).map fun (value, rest) => (.assign name operation value, rest)
          | none => choice text
        else choice text
      (unary, expression)

/-- Reads an expression as a whole. -/
def ofText (text : Octets) : Except Fault Term := do
  let (term, rest) ← (readers (text.length + 1)).2 text
  if (skipBlanks rest).isEmpty then return term else throw "expecting EOF"

/-- Whether a character counts as blank around a number. -/
def isBlank (c : Char) : Bool := " \t\n\x0b\x0c\x0d".toList.contains c

/-- The number that a text stands for, as a whole; it can have a sign and blanks around it.
`decimal` takes zeros in front for nothing special and needs a digit. -/
def whole? (decimal : Bool) (text : Octets) : Option Int :=
  let text := text.dropWhile isBlank
  let (negative, digits) :=
    match text with
    | '-' :: rest => (true, rest)
    | '+' :: rest => (false, rest)
    | rest => (false, rest)
  let (value, rest) :=
    if decimal then
      let run := digits.takeWhile Char.isDigit
      (valueOf 10 run, digits.drop run.length)
    else readNumber digits
  let read := digits.length - rest.length
  let signed : Int := if negative then -Int.ofNat value else Int.ofNat value
  let inRange := if negative then value ≤ greatest + 1 else value ≤ greatest
  if read = 0 then if !decimal && text.all isBlank then some 0 else none
  else if inRange && rest.all isBlank then some signed
  else none

end Term

end ThemedSvg.Shell

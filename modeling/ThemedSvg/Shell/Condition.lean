/-
# Conditions of shells

The builtin `test` decides whether words stand in a relation, or whether a file is there.
Its words are read from the front; a word that would be an operator is an operand where
an operator could not stand.
-/

import ThemedSvg.Shell.Arithmetic

namespace ThemedSvg.Shell

open Tool (Octets)

/-- What is known of a file: a directory, a file with or without contents, or a device. -/
inductive FileKind
  | directory
  | regular (isEmpty runs : Bool)
  | device
  deriving DecidableEq, Repr

namespace Condition

/-- What a word can mean. -/
inductive Mark
  | unary (letter : Char)
  | binary (name : String)
  | negation
  | both
  | either
  | opening
  | closing
  deriving DecidableEq, Repr

/-- The letters of the operators on one operand. -/
def unaryLetters : List Char := "rwxefdcbpugkstznhOGLS".toList

/-- The operators on two operands. -/
def binaryNames : List String :=
  ["=", "!=", "<", ">", "-eq", "-ne", "-ge", "-gt", "-le", "-lt", "-nt", "-ot", "-ef"]

/-- The operator that a word is. -/
def mark? (word : Octets) : Option Mark :=
  let name := String.ofList word
  if binaryNames.contains name then some (.binary name)
  else
    match word with
    | ['!'] => some .negation
    | ['-', 'a'] => some .both
    | ['-', 'o'] => some .either
    | ['('] => some .opening
    | [')'] => some .closing
    | ['-', letter] => if unaryLetters.contains letter then some (.unary letter) else none
    | _ => none

def isBinary (word : Octets) : Bool :=
  match mark? word with
  | some (.binary _) => true
  | _ => false

/-- What a word means in front of others. -/
inductive Role
  | nothing
  | operand
  | operator (mark : Mark)
  deriving DecidableEq, Repr

/-- Whether a word that could be an operator on what is behind it is an operand. -/
def isOperand (behind : List Octets) : Bool :=
  match behind with
  | [] => true
  | [_] => false
  | next :: _ => isBinary next

/-- The role of the first word. -/
def role (words : List Octets) : Role :=
  match words with
  | [] => .nothing
  | word :: behind =>
      match mark? word with
      | none => .operand
      | some (.unary letter) =>
          if isOperand behind then .operand else .operator (.unary letter)
      | some .opening => if behind.isEmpty then .operand else .operator .opening
      | some mark => .operator mark

/-- What decisions depend on: the files, and whether a stream is a terminal. -/
structure Surroundings where
  kind? : Octets → Option FileKind

/-- A number, or the complaint that there is none. -/
def number (word : Octets) : Except Octets Int :=
  match Term.whole? true word with
  | some value => .ok value
  | none => .error ("Illegal number: ".toList ++ word)

/-- Decides about one operand. -/
def unary (surroundings : Surroundings) (letter : Char) (word : Octets) : Except Octets Bool :=
  match letter with
  | 'z' => .ok word.isEmpty
  | 'n' => .ok (!word.isEmpty)
  | 't' => (number word).map fun _ => false
  | letter =>
      .ok (match surroundings.kind? word, letter with
        | none, _ => false
        | some (.regular _ runs), 'x' => runs
        | some kind, 'x' => kind = .directory
        | some kind, 'd' => kind = .directory
        | some kind, 'c' => kind = .device
        | some (.regular ..), 'f' => true
        | some (.regular isEmpty _), 's' => !isEmpty
        | some kind, 's' => kind = .directory
        | some _, letter => "erwOG".toList.contains letter)

/-- Whether a text comes before another in the order of bytes. -/
def comesBefore : Octets → Octets → Bool
  | _, [] => false
  | [], _ :: _ => true
  | a :: left, b :: right => a < b || (a == b && comesBefore left right)

/-- Decides about two operands. -/
def binary (name : String) (left right : Octets) : Except Octets Bool :=
  let compare (holds : Int → Int → Bool) : Except Octets Bool := do
    let left ← number left
    let right ← number right
    return holds left right
  match name with
  | "=" => .ok (left = right)
  | "!=" => .ok (left ≠ right)
  | "<" => .ok (comesBefore left right)
  | ">" => .ok (comesBefore right left)
  | "-eq" => compare (· == ·)
  | "-ne" => compare (· != ·)
  | "-ge" => compare fun a b => b ≤ a
  | "-gt" => compare fun a b => b < a
  | "-le" => compare fun a b => a ≤ b
  | "-lt" => compare fun a b => a < b
  | _ => .ok false

/-- A decision, and the words from the last one that was looked at. -/
abbrev Decision := Bool × List Octets

/-- Reads a part of a condition whose first word has the given role. -/
abbrev Reading := Role → List Octets → Except Octets Decision

/-- Decides about the first words, without connections. `whole` reads what stands between
parentheses. -/
def primary (surroundings : Surroundings) (whole : Reading) : Reading := fun role words =>
  match role with
  | .nothing => .ok (false, words)
  | .operator .opening =>
      let inner := words.drop 1
      if Condition.role inner = .operator .closing then .ok (false, inner)
      else do
        let (truth, words) ← whole (Condition.role inner) inner
        let words := words.drop 1
        if Condition.role words = .operator .closing then return (truth, words)
        else throw "closing paren expected".toList
  | .operator (.unary letter) =>
      match words.drop 1 with
      | [] => .error (['-', letter] ++ ": argument expected".toList)
      | word :: rest => (unary surroundings letter word).map fun truth => (truth, word :: rest)
  | _ =>
      match words with
      | left :: operator :: rest =>
          if isBinary operator then
            match rest with
            | [] => .error (operator ++ ": argument expected".toList)
            | right :: rest =>
                (binary (String.ofList operator) left right).map fun truth =>
                  (truth, right :: rest)
          else .ok (!left.isEmpty, words)
      | words => .ok (words.head?.any (!·.isEmpty), words)

/-- Reads negations. `fuel` bounds their number. -/
def negated (below : Reading) : Nat → Reading
  | 0 => below
  | fuel + 1 => fun role words =>
      if role = .operator .negation then
        let behind := words.drop 1
        let next := Condition.role behind
        let words := if next = .nothing then words else behind
        (negated below fuel next words).map fun (truth, words) => (!truth, words)
      else below role words

/-- Reads parts that a connection joins. `fuel` bounds their number. -/
def joined (connection : Mark) (join : Bool → Bool → Bool) (below : Reading) : Nat → Reading
  | 0 => below
  | fuel + 1 => fun role words => do
      let (truth, words) ← below role words
      if Condition.role (words.drop 1) = .operator connection then
        let behind := words.drop 2
        let (other, words) ←
          joined connection join below fuel (Condition.role behind) behind
        return (join truth other, words)
      else return (truth, words)

/-- Reads a whole condition in which parentheses nest to a depth. -/
def whole (surroundings : Surroundings) : Nat → Reading
  | 0 => fun _ words => .ok (false, words)
  | depth + 1 => fun role words =>
      let size := words.length + 1
      let inner : Reading := fun role words => whole surroundings depth role words
      let simple := negated (primary surroundings inner) size
      joined .either (· || ·) (joined .both (· && ·) simple size) size role words

/-- Takes off what stands around a condition of three or four words: negations and
parentheses. `fuel` bounds the negations. -/
def unwrapped : Nat → Bool → List Octets → Bool × List Octets
  | 0, negated, words => (negated, words)
  | fuel + 1, negated, words =>
      let short := words.length = 3 || words.length = 4
      if !short || (words.length = 3 && words[1]?.any isBinary) then (negated, words)
      else if words.head? = some ['('] && words.getLast? = some [')'] then
        (negated, (words.drop 1).dropLast)
      else if words.head? = some ['!'] then unwrapped fuel true (words.drop 1)
      else (negated, words)

/-- Decides a condition. -/
def holds (surroundings : Surroundings) (words : List Octets) : Except Octets Bool := do
  let (negated, words) := unwrapped 3 false words
  let first :=
    if words.length = 3 && words[1]?.any isBinary then Role.operand else role words
  if words.isEmpty then return negated
  else
    let (truth, rest) ← whole surroundings (words.length + 1) first words
    match rest with
    | [] :: _ :: _ => throw "unexpected operator".toList
    | word :: _ :: _ => throw (word ++ ": unexpected operator".toList)
    | _ => return truth != negated

end Condition

end ThemedSvg.Shell

/-
# Exchanging

The filter that exchanges, deletes and squeezes bytes. Its operands are sets in which
escapes, ranges, classes and repetitions stand for the bytes they name, in order. An
exchange pairs the bytes of two sets; the second one goes on with its last byte if it
is too short.
-/

import ThemedSvg.Tool.Options
import ThemedSvg.Tool.Quoting

namespace ThemedSvg.Tool.Exchange

/-- The options of the filter. -/
def rules : OptionRules where
  program := "tr"
  rules :=
    [⟨'A', "", false⟩, ⟨'c', "complement", false⟩, ⟨'C', "", false⟩, ⟨'d', "delete", false⟩,
      ⟨'s', "squeeze-repeats", false⟩, ⟨'t', "truncate-set1", false⟩]
  mixed := false

/-- All bytes. -/
def allBytes : List Char :=
  (List.range 256).map Char.ofNat

/-- The classes of bytes by name. -/
def classes : List (String × (Char → Bool)) :=
  [("alnum", Char.isAlphanum), ("alpha", Char.isAlpha), ("blank", fun c => c == ' ' || c == '\t'),
    ("cntrl", fun c => c < ' ' || c == '\x7f'), ("digit", Char.isDigit),
    ("graph", fun c => '!' ≤ c && c ≤ '~'), ("lower", Char.isLower),
    ("print", fun c => ' ' ≤ c && c ≤ '~'),
    ("punct", fun c => '!' ≤ c && c ≤ '~' && !c.isAlphanum),
    ("space", fun c => c == ' ' || ('\t' ≤ c && c ≤ '\r')), ("upper", Char.isUpper),
    ("xdigit", fun c => c.isDigit || ('a' ≤ c && c ≤ 'f') || ('A' ≤ c && c ≤ 'F'))]

/-- A byte of an operand, and whether a backslash takes away its meaning. -/
structure Mark where
  char : Char
  escaped : Bool
  deriving DecidableEq, Repr

/-- What a backslash and a letter stand for. -/
def escapeMeaning (c : Char) : Char :=
  match c with
  | 'a' => '\x07'
  | 'b' => '\x08'
  | 'f' => '\x0c'
  | 'n' => '\n'
  | 'r' => '\r'
  | 't' => '\t'
  | 'v' => '\x0b'
  | c => c

/-- The value of octal digits. -/
def octalValue (digits : Octets) : Nat :=
  digits.foldl (fun value c => 8 * value + (octalDigit? c).getD 0) 0

/-- What is said of three octal digits that are too many for a byte. -/
def wideWarning (digits : Octets) : Octets :=
  "tr: warning: the ambiguous octal escape \\".toList ++ digits
    ++ " is being\n\tinterpreted as the 2-byte sequence \\0".toList ++ digits.take 2
    ++ ", ".toList ++ digits.drop 2 ++ ['\n']

/-- What is said of a backslash with nothing behind it. -/
def looseWarning : Octets :=
  "tr: warning: an unescaped backslash at end of string is not portable\n".toList

/-- An operand without its backslashes, and the warnings about them. -/
def marksOf (operand : Octets) : List Mark × Octets :=
  match operand with
  | [] => ([], [])
  | '\\' :: rest =>
      let digits := (rest.take 3).takeWhile fun c => (octalDigit? c).isSome
      let isWide := 255 < octalValue digits
      let digits' := if isWide then digits.take 2 else digits
      if digits.isEmpty then
        match rest with
        | [] => ([⟨'\\', false⟩], looseWarning)
        | c :: rest =>
            let (marks, warnings) := marksOf rest
            (⟨escapeMeaning c, true⟩ :: marks, warnings)
      else
        let (marks, warnings) := marksOf (rest.drop digits'.length)
        (⟨Char.ofNat (octalValue digits'), true⟩ :: marks,
          if isWide then wideWarning digits ++ warnings else warnings)
  | c :: rest =>
      let (marks, warnings) := marksOf rest
      (⟨c, false⟩ :: marks, warnings)
termination_by operand.length
decreasing_by
  all_goals simp only [List.length_cons, List.length_drop]
  all_goals omega

/-- A part of a set. A repetition without a count fills up the set. -/
inductive Part
  | byte (c : Char)
  | range (low high : Char)
  | ofClass (name : String)
  | alike (c : Char)
  | repeated (c : Char) (count : Nat)
  | filling (c : Char)
  deriving DecidableEq, Repr

namespace Part

/-- The bytes of a part, in order. -/
def bytes : Part → List Char
  | byte c | alike c => [c]
  | range low high => (List.range' low.toNat (high.toNat + 1 - low.toNat)).map Char.ofNat
  | ofClass name =>
      match classes.lookup name with
      | some isMember => allBytes.filter isMember
      | none => []
  | repeated c count => List.replicate count c
  | filling _ => []

/-- The number of bytes of a part. -/
def size : Part → Nat
  | repeated _ count => count
  | part => part.bytes.length

def isFilling : Part → Bool
  | filling _ => true
  | _ => false

/-- Whether a part is the class of capital letters or of small ones. -/
def isCase (part : Part) : Bool :=
  part == ofClass "upper" || part == ofClass "lower"

def isClass : Part → Bool
  | ofClass _ => true
  | _ => false

def isAlike : Part → Bool
  | alike _ => true
  | _ => false

end Part

/-- Whether an operand goes on with a character that has its meaning. -/
def means (c : Char) : List Mark → Bool
  | ⟨d, escaped⟩ :: _ => c == d && !escaped
  | [] => false

/-- What stands before the delimiter and the bracket that close a class, and what stands
behind them. -/
def closed? (delimiter : Char) : List Mark → Option (List Mark × List Mark)
  | a :: b :: rest =>
      if a = ⟨delimiter, false⟩ && b = ⟨']', false⟩ then some ([], rest)
      else (closed? delimiter (b :: rest)).map fun (inner, rest) => (a :: inner, rest)
  | _ => none

/-- The greatest count of a repetition. -/
def countLimit : Nat := Nat.pow 2 64 - 2

/-- The count that digits spell: octal if they start with a zero. -/
def count? (digits : Octets) : Option Nat :=
  let radix := if digits.head? = some '0' then 8 else 10
  if digits.all fun c => c.isDigit && c.toNat - '0'.toNat < radix then
    let count := digits.foldl (fun value c => radix * value + (c.toNat - '0'.toNat)) 0
    if count ≤ countLimit then some count else none
  else none

/-- A repetition behind its bracket: the part and what stands behind it, nothing if it is
none, or a complaint. -/
def repetition (marks : List Mark) : Except Octets (Option (Part × List Mark)) :=
  match marks with
  | ⟨c, _⟩ :: ⟨'*', false⟩ :: rest =>
      let inner := rest.takeWhile fun mark => mark.char != ']' && !mark.escaped
      match rest.drop inner.length with
      | ⟨']', false⟩ :: behind =>
          let digits := inner.map Mark.char
          if digits.isEmpty then .ok (some (.filling c, behind))
          else
            match count? digits with
            | some 0 => .ok (some (.filling c, behind))
            | some count => .ok (some (.repeated c count, behind))
            | none =>
                .error ("tr: invalid repeat count ".toList ++ quoteOperand digits
                  ++ " in [c*n] construct".toList)
      | _ => .ok none
  | _ => .ok none

/-- Whether an operand goes on with a star, digits and a closing bracket. -/
def startsRepetition (marks : List Mark) : Bool :=
  means '*' marks && means ']' (marks.tail.dropWhile fun mark => mark.char.isDigit)

/-- An end of a range as it is shown in a complaint. -/
def shownEnd (c : Char) : Octets :=
  if isShown c then [c] else octalEscape c

/-- A byte of a class as it is shown in a complaint. -/
def shown (c : Char) : Octets :=
  if c = '\\' then ['\\', '\\'] else if isShown c then [c] else escapeHidden c

/-- A class or a byte with those like it, behind the bracket. -/
def bracketed (marks : List Mark) : Except Octets (Option (Part × List Mark)) :=
  match marks with
  | ⟨delimiter, false⟩ :: inner =>
      if delimiter = ':' || delimiter = '=' then
        match closed? delimiter inner with
        | none => repetition marks
        | some (found, behind) =>
            let name := found.map Mark.char
            if name.isEmpty then
              if delimiter = ':' then .error "tr: missing character class name '[::]'".toList
              else .error "tr: missing equivalence class character '[==]'".toList
            else if delimiter = ':' then
              if (classes.lookup (String.ofList name)).isSome then
                .ok (some (.ofClass (String.ofList name), behind))
              else if startsRepetition inner then repetition marks
              else .error ("tr: invalid character class ".toList ++ quoteOperand name)
            else
              match name with
              | [c] => .ok (some (.alike c, behind))
              | _ =>
                  if startsRepetition inner then repetition marks
                  else .error ("tr: ".toList ++ name.flatMap shown
                    ++ ": equivalence class operand must be a single character".toList)
      else repetition marks
  | _ => repetition marks

/-- The parts of an operand. `fuel` bounds their number. -/
def partsOf : Nat → List Mark → Except Octets (List Part)
  | 0, _ => .ok []
  | _, [] => .ok []
  | fuel + 1, mark :: rest =>
      let isLong := 2 ≤ rest.length
      let single : Except Octets (List Part) :=
        match rest with
        | ⟨'-', false⟩ :: high :: rest' =>
            if high.char < mark.char then
              .error ("tr: range-endpoints of '".toList ++ shownEnd mark.char ++ '-' :: shownEnd high.char
                ++ "' are in reverse collating sequence order".toList)
            else (partsOf fuel rest').map (.range mark.char high.char :: ·)
        | rest => (partsOf fuel rest).map (.byte mark.char :: ·)
      if isLong && mark = ⟨'[', false⟩ then
        match bracketed rest with
        | .error complaint => .error complaint
        | .ok (some (part, behind)) => (partsOf fuel behind).map (part :: ·)
        | .ok none => single
      else single

/-- A set: its parts. -/
abbrev Parts := List Part

namespace Parts

def bytes (parts : Parts) : List Char := parts.flatMap Part.bytes

def size (parts : Parts) : Nat := (parts.map Part.size).foldl (· + ·) 0

/-- The bytes that are not in a set, in order. -/
def complement (parts : Parts) : List Char :=
  let bytes := parts.bytes
  allBytes.filter fun c => !bytes.contains c

/-- Fills up a set to a size, if it has a part that does so. -/
def fill (parts : Parts) (size : Nat) : Parts :=
  parts.map fun part =>
    match part with
    | .filling c => .repeated c (size - Parts.size parts)
    | part => part

end Parts

/-- What pairing two sets leaves to be done: the parts ahead, each with the bytes of it
that are left. -/
structure Side where
  current : List Char
  isCase : Bool
  ahead : List Part
  isNew : Bool

namespace Side

/-- Moves on to a part that has bytes. -/
def start : List Part → Side
  | [] => ⟨[], false, [], true⟩
  | part :: ahead => if part.bytes.isEmpty then start ahead else ⟨part.bytes, part.isCase, ahead, true⟩

/-- Takes a byte. -/
def next (side : Side) : Side :=
  match side.current with
  | _ :: rest@(_ :: _) => { side with current := rest, isNew := false }
  | _ => start side.ahead

/-- Leaves the part. -/
def skip (side : Side) : Side := start side.ahead

end Side

/-- Whether classes of capital and small letters stand against each other, and by how many
bytes the sets shrink when each such pair counts as one. `fuel` bounds the bytes. -/
def aligned : Nat → Side → Side → Option Nat
  | 0, _, _ => some 0
  | fuel + 1, first, second =>
      let ended := first.current.isEmpty || second.current.isEmpty
      if second.isCase && second.isNew && !(first.isNew && first.isCase) then none
      else if ended then some 0
      else if second.isCase then (aligned fuel first.skip second.skip).map (· + 25)
      else aligned fuel first.next second.next

/-- The pairs of bytes of two sets. Capital and small letters that stand against each
other are paired as letters. `fuel` bounds the bytes. -/
def pairs : Nat → Side → Side → List (Char × Char)
  | 0, _, _ => []
  | fuel + 1, first, second =>
      match first.current, second.current with
      | a :: rest, b :: rest' =>
          if second.isCase then
            (if first.isCase then (a :: rest).zip (b :: rest') else [(a, b)])
              ++ pairs fuel first.skip second.skip
          else (a, b) :: pairs fuel first.next second.next
      | _, _ => []

/-- What the filter does. -/
structure Task where
  complements : Bool
  deletes : Bool
  squeezes : Bool
  truncates : Bool
  deriving DecidableEq, Repr

/-- The number of bytes that a first set stands for. -/
def Task.domain (task : Task) (first : Parts) : Nat :=
  if task.complements then first.complement.length else first.size

/-- A second set that is as long as the first one, for an exchange, or a complaint. -/
def matching (task : Task) (first second : Parts) : Except String Parts := do
  let size := task.domain first
  let second := if second.size ≤ size then second.fill size else second
  if second.any Part.isAlike then
    throw "[=c=] expressions may not appear in string2 when translating"
  if second.any fun part => part.isClass && !part.isCase then
    throw ("when translating, the only character classes that may appear in\n"
      ++ "string2 are 'upper' and 'lower'")
  let fuel := first.size + second.size + 1
  let shrunk ←
    if task.complements || !second.any Part.isClass then pure 0
    else
      match aligned fuel (Side.start first) (Side.start second) with
      | some shrunk => pure shrunk
      | none => throw "misaligned [:upper:] and/or [:lower:] construct"
  let (left, right) := (size - shrunk, second.size - shrunk)
  let second ←
    if right < left && !task.truncates then
      if right = 0 then throw "when not truncating set1, string2 must be non-empty"
      match second.getLast? with
      | some (.ofClass _) =>
          throw ("when translating with string1 longer than string2,\n"
            ++ "the latter string must not end with a character class")
      | some (.range _ high) => pure (second ++ [.repeated high (left - right)])
      | some (.byte c) | some (.repeated c _) | some (.filling c) | some (.alike c) =>
          pure (second ++ [.repeated c (left - right)])
      | none => pure second
    else pure second
  let extended := if right < left && !task.truncates then left else right
  if task.complements && first.any Part.isClass
      && !(extended == left && second.bytes.eraseDups.length ≤ 1) then
    throw ("when translating with complemented character classes,\n"
      ++ "string2 must map all characters in the domain to one")
  return second

/-- The byte that takes the place of another one: that of the last pair with it. -/
def exchanged (table : List (Char × Char)) (c : Char) : Char :=
  (table.reverse.lookup c).getD c

/-- Leaves out bytes of a set that repeat the byte before them. -/
def squeeze (isMember : Char → Bool) (last : Option Char) : Octets → Octets
  | [] => []
  | c :: rest =>
      if last = some c && isMember c then squeeze isMember last rest
      else c :: squeeze isMember (some c) rest

/-- Whether a byte is in the first set, or not in it if the set is complemented. -/
def Task.isMember (task : Task) (first : Parts) : Char → Bool :=
  let bytes := if task.complements then first.complement else first.bytes.eraseDups
  fun c => bytes.contains c

/-- The output for two sets or one. -/
def output (task : Task) (first : Parts) (second : Option Parts) (input : Octets) :
    Except String Octets := do
  if first.any Part.isFilling then throw "the [c*] repeat construct may not appear in string1"
  let isMember := task.isMember first
  match second with
  | none =>
      if task.deletes then return input.filter fun c => !isMember c
      else return squeeze isMember none input
  | some second =>
      let fillings := (second.filter Part.isFilling).length
      if 1 < fillings then throw "only one [c*] repeat construct may appear in string2"
      if task.deletes then
        let second := if second.size ≤ task.domain first then second.fill (task.domain first) else second
        if second.any Part.isFilling || fillings = 1 then
          throw "the [c*] construct may appear in string2 only when translating"
        let kept := input.filter fun c => !isMember c
        return squeeze (fun c => second.bytes.contains c) none kept
      else
        let second ← matching task first second
        let table :=
          if task.complements then first.complement.zip second.bytes
          else pairs (first.size + second.size + 1) (Side.start first) (Side.start second)
        let exchangedInput := input.map (exchanged table)
        if task.squeezes then
          return squeeze (fun c => second.bytes.contains c) none exchangedInput
        else return exchangedInput

/-- Complains about a wrong number of operands. -/
def operandComplaint? (task : Task) (operands : List Octets) : Option Octets :=
  let least := if task.deletes == task.squeezes then 2 else 1
  let most := if task.deletes && !task.squeezes then 1 else 2
  if operands.length < least then
    match operands.getLast? with
    | none => some (rules.complaint "missing operand".toList)
    | some operand =>
        let reason :=
          if task.squeezes then "\nTwo strings must be given when both deleting and squeezing repeats."
          else "\nTwo strings must be given when translating."
        some (rules.complaint ("missing operand after ".toList ++ quoteOperand operand ++ reason.toList))
  else if most < operands.length then
    let operand := (operands[most]?).getD []
    let reason :=
      if operands.length = 2 then
        "\nOnly one string may be given when deleting without squeezing repeats."
      else ""
    some (rules.complaint ("extra operand ".toList ++ quoteOperand operand ++ reason.toList))
  else none

/-- Reads an operand: its parts and the warnings about it, which a complaint follows. -/
def read (operand : Octets) : Except Octets (Parts × Octets) :=
  let (marks, warnings) := marksOf operand
  match partsOf (marks.length + 1) marks with
  | .ok parts => .ok (parts, warnings)
  | .error complaint => .error (warnings ++ complaint)

/-- Runs the filter with its operands. -/
def runWith (task : Task) (operands : List Octets) (input : Input) : Outcome :=
  let readAll : Except Octets (Parts × Option Parts × Octets) :=
    match operands with
    | first :: rest => do
        let (first, warnings) ← read first
        match rest with
        | [] => return (first, none, warnings)
        | second :: _ =>
            let (second, more) ← (read second).mapError (warnings ++ ·)
            return (first, some second, warnings ++ more)
    | [] => .ok ([], none, [])
  match readAll with
  | .error complaint => Outcome.refusal 1 complaint input
  | .ok (first, second, warnings) =>
      match output task first second (input.toOption.getD []), input with
      | .error complaint, _ =>
          Outcome.refusal 1 (warnings ++ "tr: ".toList ++ complaint.toList) input
      | .ok _, .error reason =>
          Outcome.refusal 1 (warnings ++ "tr: read error: ".toList ++ reason) input
      | .ok output, .ok _ => ⟨.code 0, output, warnings, []⟩

/-- The filter. -/
def program : Program := fun _ args input =>
  match rules.read (args.length + 1) args with
  | .error complaint => Outcome.refusal 1 complaint input
  | .ok (given, operands) =>
      let task : Task :=
        ⟨isGiven given 'c' || isGiven given 'C', isGiven given 'd', isGiven given 's',
          isGiven given 't'⟩
      match operandComplaint? task operands with
      | some complaint => Outcome.refusal 1 complaint input
      | none => runWith task operands input

end ThemedSvg.Tool.Exchange

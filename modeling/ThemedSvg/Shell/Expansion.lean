/-
# Expansion of words

What the words of a command stand for: parameters, outputs of commands and sums are put
in their places, and what came from them without quotes is cut into fields at blanks. A
word can thus become several fields, or none.
-/

import ThemedSvg.Shell.Arithmetic
import ThemedSvg.Shell.Pattern
import ThemedSvg.Shell.State

namespace ThemedSvg.Shell

open Tool (Octets digitsOf)

/-- A part of an expanded word: a character that stands in the script without quotes, or
between quotes, or that came from elsewhere and can end a field; quotes that may hold
nothing; and the end of a field. -/
inductive Atom
  | plain (c : Char)
  | quoted (c : Char)
  | split (c : Char)
  | mark
  | cut
  deriving DecidableEq, Repr

namespace Atom

/-- The characters of expanded words, with nothing cut. -/
def text (atoms : List Atom) : Octets :=
  atoms.filterMap fun atom =>
    match atom with
    | plain c | quoted c | split c => some c
    | mark | cut => none

/-- The pattern that an expanded word is. Quotes take the meaning of its characters. -/
def pattern (atoms : List Atom) : Pattern :=
  atoms.filterMap fun atom =>
    match atom with
    | plain c | split c => some (c, false)
    | quoted c => some (c, true)
    | mark | cut => none

/-- Where cutting into fields stands: the fields before, the field that has begun, and
whether blanks ended the last one, so that a separator behind them ends no other. -/
structure Fields where
  before : List Octets
  current : Option Octets
  blanks : Bool
  deriving DecidableEq, Repr

/-- Whether a character is a blank, of which several separate like one. -/
def isBlank (c : Char) : Bool := c == ' ' || c == '\t' || c == '\n'

namespace Fields

def add (fields : Fields) (c : Char) : Fields :=
  { fields with current := some (fields.current.getD [] ++ [c]), blanks := false }

/-- Ends the field that has begun, if one has. -/
def finish (fields : Fields) : Fields :=
  { fields with before := fields.before ++ fields.current.toList, current := none }

/-- Takes in an atom. -/
def step (separators : Octets) (fields : Fields) : Atom → Fields
  | plain c | quoted c => fields.add c
  | mark => { fields with current := some (fields.current.getD []), blanks := false }
  | cut => { fields.finish with blanks := false }
  | split c =>
      if !separators.contains c then fields.add c
      else if isBlank c then
        { fields.finish with blanks := fields.blanks || fields.current.isSome }
      else if fields.current.isNone && fields.blanks then { fields with blanks := false }
      else
        { fields with
          before := fields.before ++ [fields.current.getD []], current := none, blanks := false }

end Fields

/-- The fields of an expanded word. -/
def fields (separators : Octets) (atoms : List Atom) : List Octets :=
  (atoms.foldl (Fields.step separators) ⟨[], none, false⟩).finish.before

end Atom

/-- What a parameter stands for: a text or nothing, or all texts that a script was given,
which stay apart from each other if `apart`. -/
inductive ParamValue
  | one (value : Option Octets)
  | all (values : List Octets) (apart : Bool)
  deriving DecidableEq, Repr

namespace Expansion

/-- The separators of fields. -/
def separators : Run Octets := do
  return (← Run.valueOf? "IFS".toList).getD " \t\n".toList

/-- What joins fields. -/
def joiner : Run Octets := do
  return (← separators).take 1

/-- The letters of the options in the order in which they are shown. -/
def optionOrder : Octets := "pubaCEVvxsnmiIfe".toList

/-- The value of a parameter. -/
def valueOf (name : Octets) : Run ParamValue := do
  let state ← get
  match name with
  | ['@'] => return .all state.params true
  | ['*'] => return .all state.params false
  | ['?'] => return .one (some (digitsOf state.status))
  | ['#'] => return .one (some (digitsOf state.params.length))
  | ['$'] => return .one (some (digitsOf state.process))
  | ['!'] => return .one (state.spawned.map fun spawned => digitsOf spawned.1)
  | ['-'] => return .one (some (optionOrder.filter state.options.contains))
  | name =>
      if name.all Char.isDigit then
        match Term.valueOf 10 name with
        | 0 => return .one (some state.name)
        | number + 1 => return .one state.params[number]?
      else return .one (← Run.valueOf? name)

/-- The atoms of a text that came from elsewhere. -/
def atomsOf (quoted : Bool) (text : Octets) : List Atom :=
  if quoted then .mark :: text.map .quoted else text.map .split

/-- The text of a parameter, in which all of several are joined. -/
def textOf (value : ParamValue) : Run (Option Octets) := do
  match value with
  | .one value => return value
  | .all values _ => return some (List.intercalate (← joiner) values)

/-- The atoms of a parameter. Where fields are cut, several texts stay apart. -/
def plain (value : ParamValue) (quoted cuts : Bool) : Run (List Atom) := do
  match value with
  | .all values apart =>
      if cuts && (apart || !quoted) then
        return List.intercalate [.cut] (values.map (atomsOf quoted))
      else return atomsOf quoted ((← textOf value).getD [])
  | .one value => return atomsOf quoted (value.getD [])

/-- Gives up over a parameter without a value where one is demanded. -/
def demand (name : Octets) (value : ParamValue) : Run Unit := do
  if value = .one none && (← Run.hasOption 'u') then
    Run.abort (name ++ ": parameter not set".toList)

/-- The value of a sum. -/
def total (source : Octets) : Term → Run Int
  | .number value => return value
  | .named name => do
      match ← Run.valueOf? name with
      | none => return 0
      | some text =>
          match Term.whole? false text with
          | some value => return value
          | none => Run.abort ("Illegal number: ".toList ++ text)
  | .opposite term => return Term.wrapped (-(← total source term))
  | .complement term => return Term.wrapped (-(← total source term) - 1)
  | .negation term => return Term.ofBool ((← total source term) = 0)
  | .apply operation left right => do
      let left ← total source left
      let right ← total source right
      applied operation left right
  | .both left right => do
      if (← total source left) = 0 then return 0
      else return Term.ofBool ((← total source right) ≠ 0)
  | .either left right => do
      if (← total source left) ≠ 0 then return 1
      else return Term.ofBool ((← total source right) ≠ 0)
  | .choice test yes no => do
      if (← total source test) ≠ 0 then total source yes else total source no
  | .assign name operation value => do
      let right ← total source value
      let result ←
        match operation with
        | none => pure right
        | some operation => do
            let left ← total source (.named name)
            applied operation left right
      Run.assign name (toString result).toList
      return result
where
  applied (operation : Operation) (left right : Int) : Run Int := do
    match Term.applied? operation left right with
    | some value => return value
    | none =>
        Run.abort ("arithmetic expression: division by zero: \"".toList ++ source ++ ['"'])

/-- The value of a sum in digits. -/
def sum (source : Octets) : Run Octets := do
  match Term.ofText source with
  | .error fault =>
      Run.abort (s!"arithmetic expression: {fault}: \"".toList ++ source ++ ['"'])
  | .ok term => return (toString (← total source term)).toList

/-- What is taken from the output of a command: all of it but the line breaks at its end
and null characters. -/
def captured (output : Octets) : Octets :=
  let kept := output.filter (· != '\x00')
  (kept.reverse.dropWhile (· == '\n')).reverse

/-- Complains about a missing parameter. -/
def refuse (name : Octets) (orEmpty : Bool) (message : Option Octets) : Run (List Atom) := do
  let ending := if orEmpty then " or null" else ""
  let message := message.getD (s!"parameter not set{ending}".toList)
  Run.abort (name ++ ": ".toList ++ message)

mutual

/-- The atoms of a piece. `capture` takes the output of a command; `cuts` tells whether
fields are cut, `splits` whether text without quotes can be cut as well. -/
def piece (capture : Command → Run Octets) (cuts splits : Bool) : Piece → Run (List Atom)
  | .text chars quoted =>
      if quoted then return .mark :: chars.map .quoted
      else return chars.map fun c => if splits then Atom.split c else Atom.plain c
  | .output script quoted => do return atomsOf quoted (captured (← capture script))
  | .sum inner quoted => do
      let source := Atom.text (← pieces capture false false inner)
      return atomsOf quoted (← sum source)
  | .param name .plain quoted => do
      let value ← valueOf name
      demand name value
      plain value quoted cuts
  | .param name .length quoted => do
      let value ← valueOf name
      demand name value
      let length :=
        match value with
        | .one value => (value.getD []).length
        | .all values _ => values.flatten.length + (values.length - 1)
      return atomsOf quoted (digitsOf length)
  | .param _ .invalid _ => Run.abort "Bad substitution".toList
  | .param name (.cut atEnd longest pattern) quoted => do
      let value ← valueOf name
      demand name value
      let pattern := Atom.pattern (← pieces capture false false pattern)
      let text := (← textOf value).getD []
      return atomsOf quoted (pattern.cut atEnd longest text)
  | .param name (.missing fallback orEmpty word) quoted => do
      let value ← valueOf name
      let text ← textOf value
      let isMissing := text.isNone || (orEmpty && text = some [])
      let mark := if quoted then [Atom.mark] else []
      match fallback with
      | .orElse =>
          if isMissing then return mark ++ (← pieces capture cuts (!quoted) word)
          else return mark ++ (← plain value quoted cuts)
      | .onlyIf =>
          if isMissing then return mark
          else return mark ++ (← pieces capture cuts (!quoted) word)
      | .assign =>
          if isMissing then
            let text := Atom.text (← pieces capture false false word)
            if isName name then
              Run.assign name text
              return atomsOf quoted text
            else Run.abort (name ++ ": bad variable name".toList)
          else return mark ++ (← plain value quoted cuts)
      | .refuse =>
          if isMissing then
            let message := Atom.text (← pieces capture false false word)
            refuse name orEmpty (if word.isEmpty then none else some message)
          else return mark ++ (← plain value quoted cuts)

/-- The atoms of pieces. -/
def pieces (capture : Command → Run Octets) (cuts splits : Bool) : List Piece → Run (List Atom)
  | [] => return []
  | first :: rest => do
      let atoms ← piece capture cuts splits first
      return atoms ++ (← pieces capture cuts splits rest)

end

/-- A word in which a tilde at the front has become the home directory. -/
def home (word : Word) : Run Word := do
  match word with
  | .text ('~' :: rest) false :: more =>
      if rest.head? = some '/' || (rest.isEmpty && more.isEmpty) then
        match ← Run.valueOf? "HOME".toList with
        | some home => return .text home true :: .text rest false :: more
        | none => return word
      else return word
  | word => return word

/-- The fields of a word. -/
def fields (capture : Command → Run Octets) (word : Word) : Run (List Octets) := do
  let atoms ← pieces capture true false (← home word)
  return Atom.fields (← separators) atoms

/-- The text of a word, with nothing cut. -/
def text (capture : Command → Run Octets) (word : Word) : Run Octets := do
  return Atom.text (← pieces capture false false (← home word))

/-- The pattern that a word is. -/
def pattern (capture : Command → Run Octets) (word : Word) : Run Pattern := do
  return Atom.pattern (← pieces capture false false word)

end Expansion

end ThemedSvg.Shell

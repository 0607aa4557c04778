/-
# Copying

The filter that copies files, and its input where a file is called by a dash. It can
number lines, leave out repeated empty ones, and make visible what is not.
-/

import ThemedSvg.Tool.Options
import ThemedSvg.Tool.Quoting

namespace ThemedSvg.Tool.Copying

/-- The options of the filter. -/
def rules : OptionRules where
  program := "cat"
  rules :=
    [⟨'b', "number-nonblank", false⟩, ⟨'n', "number", false⟩, ⟨'s', "squeeze-blank", false⟩,
      ⟨'v', "show-nonprinting", false⟩, ⟨'E', "show-ends", false⟩, ⟨'T', "show-tabs", false⟩,
      ⟨'A', "show-all", false⟩, ⟨'e', "", false⟩, ⟨'t', "", false⟩, ⟨'u', "", false⟩]
  mixed := true

/-- How the filter copies. -/
structure Style where
  numbersAll : Bool
  numbersFull : Bool
  squeezes : Bool
  showsHidden : Bool
  showsEnds : Bool
  showsTabs : Bool
  deriving DecidableEq, Repr

/-- The style that options ask for. -/
def style (given : List Given) : Style where
  numbersAll := isGiven given 'n' && !isGiven given 'b'
  numbersFull := isGiven given 'b'
  squeezes := isGiven given 's'
  showsHidden := ['v', 'A', 'e', 't'].any (isGiven given)
  showsEnds := ['E', 'A', 'e'].any (isGiven given)
  showsTabs := ['T', 'A', 't'].any (isGiven given)

/-- Where copying stands: the number of the last line that was numbered, whether a line
has begun, and how many empty lines came last. -/
structure Place where
  number : Nat
  begun : Bool
  empties : Nat
  deriving DecidableEq, Repr

/-- The number of a line in its column. -/
def numberText (number : Nat) : Octets :=
  let digits := digitsOf number
  List.replicate (6 - digits.length) ' ' ++ digits ++ ['\t']

/-- A character of a line, made visible. -/
def visible (style : Style) (endsLine : Bool) (c : Char) : Octets :=
  let low (n : Nat) : Octets :=
    if n < 32 then ['^', Char.ofNat (n + 64)] else if n = 127 then ['^', '?'] else [Char.ofNat n]
  if c = '\t' then if style.showsTabs then ['^', 'I'] else [c]
  else if style.showsHidden then
    if c.toNat < 128 then low c.toNat else ['M', '-'] ++ low (c.toNat - 128)
  else if c = '\r' && style.showsEnds && endsLine then ['^', 'M']
  else [c]

/-- Copies a text on. -/
def copy (style : Style) (place : Place) : Octets → Octets × Place
  | [] => ([], place)
  | '\n' :: rest =>
      let ending := if style.showsEnds then ['$', '\n'] else ['\n']
      if place.begun then
        let (copied, place) := copy style { place with begun := false, empties := 0 } rest
        (ending ++ copied, place)
      else if style.squeezes && 0 < place.empties then copy style place rest
      else
        let number := if style.numbersAll then place.number + 1 else place.number
        let before := if style.numbersAll then numberText number else []
        let (copied, place) := copy style ⟨number, false, place.empties + 1⟩ rest
        (before ++ ending ++ copied, place)
  | c :: rest =>
      let numbers := !place.begun && (style.numbersAll || style.numbersFull)
      let number := if numbers then place.number + 1 else place.number
      let before := if numbers then numberText number else []
      let (copied, place) := copy style ⟨number, true, place.empties⟩ rest
      (before ++ visible style (rest.head? = some '\n') c ++ copied, place)

/-- Copies a whole text on. Nothing changes if nothing is asked for. -/
def copyText (style : Style) (place : Place) (text : Octets) : Octets × Place :=
  if style = ⟨false, false, false, false, false, false⟩ then (text, place)
  else copy style place text

/-- Copies files in turn. -/
def copyAll (files : Contents) (style : Style) (place : Place) (input : Input) :
    List Octets → Outcome
  | [] => ⟨.code 0, [], [], input.toOption.getD []⟩
  | name :: names =>
      let found := if name = ['-'] then input else (files name).mapError faultText
      let input := if name = ['-'] then input.map fun _ => [] else input
      match found with
      | .ok text =>
          let (copied, place) := copyText style place text
          let outcome := copyAll files style place input names
          { outcome with output := copied ++ outcome.output }
      | .error reason =>
          let complaint := "cat: ".toList ++ quoteName name ++ ": ".toList ++ reason
          let outcome := copyAll files style place input names
          { outcome with exit := .code 1, errors := complaint ++ '\n' :: outcome.errors }

/-- Complains in the end if the input that was read is not open. -/
def closeInput (names : List Octets) (input : Input) (outcome : Outcome) : Outcome :=
  match input with
  | .error reason =>
      if names.contains ['-'] && reason == closedText then
        let complaint := "cat: closing standard input: ".toList ++ closedText ++ ['\n']
        { outcome with exit := .code 1, errors := outcome.errors ++ complaint }
      else outcome
  | .ok _ => outcome

/-- The filter. -/
def program : Program := fun files args input =>
  match rules.read (args.length + 1) args with
  | .error complaint => Outcome.refusal 1 complaint input
  | .ok (given, names) =>
      let names := if names.isEmpty then [['-']] else names
      closeInput names input (copyAll files (style given) ⟨0, false, 0⟩ input names)

/-- Without arguments the filter gives its input on as it is. -/
theorem program_nil (files : Contents) (text : Octets) :
    program files [] (.ok text) = .success text := by
  have plain : style [] = ⟨false, false, false, false, false, false⟩ := by decide +kernel
  have copied : copyAll files (style []) ⟨0, false, 0⟩ (.ok text) [['-']] = .success text := by
    rw [plain]
    simp only [copyAll, copyText, if_pos, Except.map, List.append_nil]
    rfl
  exact copied

end ThemedSvg.Tool.Copying

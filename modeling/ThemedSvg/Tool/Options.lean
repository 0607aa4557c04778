/-
# Options of filters

The arguments of a filter are options and operands. Short options share a dash, long
ones have two dashes and may be cut short as long as it is clear which one is meant.
Some filters take options between operands, others only before them; behind two
dashes everything is an operand.
-/

import ThemedSvg.Tool.Program

namespace ThemedSvg.Tool

/-- An option: its letter, its long name, and whether it has a value. An option without
a short form goes by a letter that no one can type. -/
structure OptionRule where
  letter : Char
  long : String
  valued : Bool

/-- What a filter accepts: its name, its options, and whether they may stand between
operands. -/
structure OptionRules where
  program : String
  rules : List OptionRule
  mixed : Bool

/-- An option that is given, with its value. -/
abbrev Given := Char × Octets

namespace OptionRules

/-- How all complaints about options end. -/
def advice (rules : OptionRules) : Octets :=
  s!"\nTry '{rules.program} --help' for more information.".toList

/-- A complaint about the options. -/
def complaint (rules : OptionRules) (text : Octets) : Octets :=
  rules.program.toList ++ ": ".toList ++ text ++ rules.advice

/-- The options that a long name can mean: the one that has it, or else all that start
with it. -/
def meant (rules : OptionRules) (name : Octets) : List OptionRule :=
  let exact := rules.rules.filter fun rule => rule.long.toList == name
  if exact.isEmpty then rules.rules.filter fun rule => name.isPrefixOf rule.long.toList else exact

/-- Reads a long option, whose value may be the next argument. -/
def long (rules : OptionRules) (text : Octets) (next : List Octets) :
    Except Octets (Given × List Octets) :=
  let name := text.takeWhile (· != '=')
  let value := (text.dropWhile (· != '=')).tail?
  match rules.meant name with
  | [] => .error (rules.complaint ("unrecognized option '--".toList ++ text ++ "'".toList))
  | [rule] =>
      if rule.valued then
        match value, next with
        | some value, next => .ok ((rule.letter, value), next)
        | none, value :: next => .ok ((rule.letter, value), next)
        | none, [] =>
            .error (rules.complaint s!"option '--{rule.long}' requires an argument".toList)
      else if value.isSome then
        .error (rules.complaint s!"option '--{rule.long}' doesn't allow an argument".toList)
      else .ok ((rule.letter, []), next)
  | several =>
      let names := several.flatMap fun rule => s!" '--{rule.long}'".toList
      .error (rules.complaint
        ("option '--".toList ++ text ++ "' is ambiguous; possibilities:".toList ++ names))

/-- Reads the short options behind a dash. -/
def short (rules : OptionRules) (next : List Octets) :
    List Char → Except Octets (List Given × List Octets)
  | [] => .ok ([], next)
  | letter :: letters =>
      match rules.rules.find? fun rule => rule.letter == letter with
      | none => .error (rules.complaint ("invalid option -- '".toList ++ [letter, '\'']))
      | some rule =>
          if rule.valued then
            match letters, next with
            | [], value :: next => .ok ([(letter, value)], next)
            | [], [] =>
                .error (rules.complaint
                  ("option requires an argument -- '".toList ++ [letter, '\'']))
            | value, next => .ok ([(letter, value)], next)
          else (short rules next letters).map fun (given, next) => ((letter, []) :: given, next)

/-- Reads arguments: the options and the operands. `fuel` bounds their number. -/
def read (rules : OptionRules) : Nat → List Octets → Except Octets (List Given × List Octets)
  | 0, _ => .ok ([], [])
  | _, [] => .ok ([], [])
  | fuel + 1, argument :: next =>
      match argument with
      | ['-', '-'] => .ok ([], next)
      | '-' :: '-' :: text => do
          let (given, next) ← rules.long text next
          let (more, operands) ← read rules fuel next
          return (given :: more, operands)
      | '-' :: letter :: letters => do
          let (given, next) ← rules.short next (letter :: letters)
          let (more, operands) ← read rules fuel next
          return (given ++ more, operands)
      | operand =>
          if rules.mixed then
            (read rules fuel next).map fun (given, operands) => (given, operand :: operands)
          else .ok ([], operand :: next)

end OptionRules

/-- Whether an option is given. -/
def isGiven (given : List Given) (letter : Char) : Bool :=
  given.any fun option => option.1 == letter

end ThemedSvg.Tool

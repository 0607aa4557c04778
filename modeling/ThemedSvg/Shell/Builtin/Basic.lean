/-
# Builtins

A shell carries out some commands itself because they change its state. All of them take
texts and set the status; what they write goes where the output of a command goes. Here is
what they have in common: options, numbers, and lists that a shell can read back.
-/

import ThemedSvg.Shell.Condition
import ThemedSvg.Shell.State

namespace ThemedSvg.Shell

open Tool (Octets)

/-- What a builtin does with its arguments. It sets the status. -/
abbrev Builtin := List Octets → Run Unit

namespace Builtin

/-- Writes an output and sets the status. -/
def answer (output : Octets) (status : Nat) : Run Unit := do
  if ← Run.write 1 output then Run.setStatus status
  else
    Run.complain (((← get).builtin.getD []) ++ ": I/O error".toList)
    Run.setStatus (status ||| 1)

/-- Reads option letters in front of operands, some of which have a value that is checked
at once. -/
def checkedOptions (check : Octets → Run Unit) (letters valued : List Char) :
    Nat → List Octets → Run (List (Char × Octets) × List Octets)
  | 0, args => return ([], args)
  | fuel + 1, args => do
      match args with
      | ['-', '-'] :: rest => return ([], rest)
      | ('-' :: first :: more) :: rest => do
          let (given, rest) ← cluster rest (first :: more)
          let (others, operands) ← checkedOptions check letters valued fuel rest
          return (given ++ others, operands)
      | operands => return ([], operands)
where
  /-- Reads the letters behind a dash. -/
  cluster (rest : List Octets) : List Char → Run (List (Char × Octets) × List Octets)
    | [] => return ([], rest)
    | letter :: more => do
        if valued.contains letter then
          match more, rest with
          | [], [] => Run.abort ("No arg for -".toList ++ letter :: " option".toList)
          | [], value :: rest =>
              check value
              return ([(letter, value)], rest)
          | value, rest =>
              check value
              return ([(letter, value)], rest)
        else if letters.contains letter then
          let (given, rest) ← cluster rest more
          return ((letter, []) :: given, rest)
        else Run.abort ("Illegal option -".toList ++ [letter])

/-- Reads option letters in front of operands. -/
def options (letters valued : List Char) : Nat → List Octets →
    Run (List (Char × Octets) × List Octets) :=
  checkedOptions (fun _ => pure ()) letters valued

/-- A number that is not negative. -/
def number (text : Octets) : Run Nat := do
  match Term.whole? true text with
  | some value =>
      if 0 ≤ value ∧ value < Int.ofNat (Nat.pow 2 31) then return value.toNat
      else Run.abort ("Illegal number: ".toList ++ text)
  | none => Run.abort ("Illegal number: ".toList ++ text)

/-- A text as a shell reads it back. -/
def singleQuoted (text : Octets) : Octets :=
  let parts := text.splitOn '\''
  let quoted := parts.map fun part => '\'' :: part ++ ['\'']
  List.intercalate "\"'\"".toList quoted

/-- Whether a text comes no later than another in the order of bytes. -/
def inOrder (left right : Octets) : Bool :=
  !Condition.comesBefore right left

/-- A list of variables, each written as a command that sets it. -/
def listing (start : Octets) (bindings : List (Octets × Variable)) : Octets :=
  let sorted := bindings.mergeSort fun left right => inOrder left.1 right.1
  sorted.flatMap fun (name, found) =>
    let value :=
      match found.value with
      | some value => '=' :: singleQuoted value
      | none => []
    start ++ name ++ value ++ ['\n']

end Builtin

end ThemedSvg.Shell

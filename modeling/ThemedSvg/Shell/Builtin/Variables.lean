/-
# Builtins on variables

Variables are set, marked, hidden and forgotten by builtins, or read from the input. A line
of the input is cut at separators, so that each variable gets its part.
-/

import ThemedSvg.Shell.Builtin.Basic
import ThemedSvg.Shell.Expansion

namespace ThemedSvg.Shell

open Tool (Octets)

namespace Builtin

/-- Refuses a name that no variable can have. -/
def checkName (name : Octets) : Run Unit := do
  if !isName name then Run.abort (name ++ ": bad variable name".toList)

/-- Forgets variables or functions. -/
def forget : Builtin := fun args => do
  let (given, names) ← options ['v', 'f'] [] (args.length + 1) args
  let functions := given.getLast?.any fun option => option.1 == 'f'
  for name in names do
    let state ← get
    if functions then
      set { state with functions := removeEntry name state.functions }
    else
      checkName name
      if ((state.bindings.lookup name).map Variable.readOnly).getD false then
        Run.abort (name ++ ": is read only".toList)
      else set { state with bindings := removeEntry name state.bindings }
  Run.setStatus 0

/-- Sets the variable of an argument that has a value, and marks it. -/
def declare (mark : Variable → Variable) (argument : Octets) : Run Unit := do
  let name := argument.takeWhile (· != '=')
  checkName name
  if name.length < argument.length then Run.assign name (argument.drop (name.length + 1))
  Run.changeVariable name mark

/-- Marks variables, or lists those that are. -/
def marking (start : String) (isMarked : Variable → Bool) (mark : Variable → Variable) :
    Builtin := fun args => do
  let (_, names) ← options ['p'] [] (args.length + 1) args
  if names.isEmpty then
    let marked := (← get).bindings.filter fun (_, found) => isMarked found
    answer (listing (start ++ " ").toList marked) 0
  else
    for name in names do declare mark name
    Run.setStatus 0

/-- Hides variables until the end of a function. -/
def hide : Builtin := fun args => do
  match (← get).locals with
  | none => Run.abort "not in a function".toList
  | some _ =>
      for argument in args do
        let name := argument.takeWhile (· != '=')
        if name ≠ ['-'] then
          checkName name
          modify fun state =>
            let hidden := state.locals.getD []
            if hidden.any fun entry => entry.1 == name then state
            else { state with locals := some ((name, state.bindings.lookup name) :: hidden) }
          if name.length < argument.length then
            Run.assign name (argument.drop (name.length + 1))
      Run.setStatus 0

/-- A line of an input with what is behind it, and whether it has ended. Backslashes take
the meaning of characters and join lines unless they are `raw`. -/
def line (raw : Bool) : Octets → List Atom × Octets × Bool
  | [] => ([], [], false)
  | '\n' :: rest => ([], rest, true)
  | c :: rest =>
      if c = '\x00' then line raw rest
      else if c = '\\' && !raw then
        match rest with
        | [] => ([], [], false)
        | '\n' :: rest => line raw rest
        | c :: rest =>
            let (atoms, rest, ended) := line raw rest
            (.quoted c :: atoms, rest, ended)
      else
        let (atoms, rest, ended) := line raw rest
        (.split c :: atoms, rest, ended)

/-- Whether an atom separates fields, as a blank does or at all. -/
def separates (separators : Octets) (blank : Bool) : Atom → Bool
  | .split c => separators.contains c && (!blank || Atom.isBlank c)
  | _ => false

/-- Cuts a line into so many texts, the last of which keeps what is left. -/
def portions (separators : Octets) : Nat → List Atom → List Octets
  | 0, _ => []
  | count + 1, atoms =>
      let atoms := atoms.dropWhile (separates separators true)
      if count = 0 then
        match Atom.fields separators atoms with
        | [] => [[]]
        | [field] => [field]
        | _ => [Atom.text (atoms.reverse.dropWhile (separates separators true)).reverse]
      else
        let field := atoms.takeWhile fun atom => !separates separators false atom
        let rest := (atoms.drop field.length).dropWhile (separates separators true)
        let rest :=
          match rest with
          | atom :: more => if separates separators false atom then more else rest
          | [] => []
        Atom.text field :: portions separators count rest

def read : Builtin := fun args => do
  let (given, names) ← options ['r'] ['p'] (args.length + 1) args
  if names.isEmpty then Run.abort "arg count".toList
  else
    let raw := given.any fun option => option.1 == 'r'
    let (atoms, rest, ended) := line raw (← Run.ahead 0)
    Run.setAhead 0 rest
    let found := portions (← Expansion.separators) names.length atoms
    for (name, text) in names.zip found do
      checkName name
      Run.assign name text
    Run.setStatus (if ended then 0 else 1)

end Builtin

end ThemedSvg.Shell

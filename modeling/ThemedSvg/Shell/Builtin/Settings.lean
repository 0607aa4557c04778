/-
# Options of shells

Options change how a shell runs a script. They are turned on and off by letters or by names,
at its start and later on.
-/

import ThemedSvg.Shell.Builtin.Basic

namespace ThemedSvg.Shell

open Tool (Octets)

namespace Builtin

/-- The options of a shell: their letters and names, in the order in which they are shown. -/
def shellOptions : List (Option Char × String) :=
  [(some 'e', "errexit"), (some 'f', "noglob"), (some 'I', "ignoreeof"), (some 'i', "interactive"),
    (some 'm', "monitor"), (some 'n', "noexec"), (some 's', "stdin"), (some 'x', "xtrace"),
    (some 'v', "verbose"), (some 'V', "vi"), (some 'E', "emacs"), (some 'C', "noclobber"),
    (some 'a', "allexport"), (some 'b', "notify"), (some 'u', "nounset"),
    (some 'p', "privileged"), (none, "nolog"), (none, "debug")]

/-- Turns an option on or off. -/
def setOption (on : Bool) (letter : Char) : Run Unit := do
  if shellOptions.any fun option => option.1 = some letter then
    modify fun state =>
      let others := state.options.filter (· != letter)
      { state with options := if on then letter :: others else others }
  else Run.abort ("Illegal option -".toList ++ [letter])

/-- Turns an option on or off by its name. -/
def setNamedOption (on : Bool) (name : Octets) : Run Unit := do
  match shellOptions.find? fun option => option.2 == String.ofList name with
  | some (some letter, _) => setOption on letter
  | some (none, _) => pure ()
  | none => Run.abort ("Illegal option -o ".toList ++ name)

/-- All options and whether they are on: to look at, or as commands. -/
def optionListing (asCommands : Bool) : Run Octets := do
  let given := (← get).options
  let lines := shellOptions.map fun (letter, name) =>
    let on := letter.any given.contains
    let gap := String.ofList (List.replicate (16 - name.length) ' ')
    if asCommands then (if on then "set -o " else "set +o ") ++ name ++ "\n"
    else name ++ gap ++ (if on then "on\n" else "off\n")
  let head := if asCommands then "" else "Current option settings\n"
  return (head ++ String.join lines).toList

/-- What comes of arguments that set options: the letters a script was asked for by, and
the operands, if options ended with two dashes. -/
structure Settings where
  script : Bool
  ended : Bool
  operands : List Octets

/-- Sets options by their letters. `starting` accepts those that only count at the start
of a shell. -/
def setLetters (starting on : Bool) : List Char → List Octets → Run (Bool × List Octets)
  | [], rest => return (false, rest)
  | letter :: letters, rest => do
      if starting && letter = 'c' then
        let (_, rest) ← setLetters starting on letters rest
        return (true, rest)
      else if starting && letter = 'l' then setLetters starting on letters rest
      else if letter = 'o' then
        match rest with
        | [] =>
            let _ ← Run.write 1 (← optionListing (!on))
            setLetters starting on letters []
        | name :: rest =>
            setNamedOption on name
            setLetters starting on letters rest
      else
        setOption on letter
        setLetters starting on letters rest

/-- Sets options from the front of arguments. `fuel` bounds their number. -/
def settings (starting : Bool) : Nat → List Octets → Run Settings
  | 0, args => return ⟨false, false, args⟩
  | fuel + 1, args => do
      match args with
      | ['-', '-'] :: rest => return ⟨false, true, rest⟩
      | ['-'] :: rest =>
          if !starting then
            setOption false 'x'
            setOption false 'v'
          return ⟨false, false, rest⟩
      | (sign :: letters) :: rest =>
          if sign = '-' || sign = '+' then
            let (script, rest) ← setLetters starting (sign = '-') letters rest
            let more ← settings starting fuel rest
            return { more with script := script || more.script }
          else return ⟨false, false, args⟩
      | operands => return ⟨false, false, operands⟩

/-- Sets options and the texts that a script is given. -/
def configure : Builtin := fun args => do
  if args.isEmpty then
    let known := (← get).bindings.filter fun (_, found) => found.value.isSome
    answer (listing [] known) 0
  else
    let found ← settings false (args.length + 1) args
    if found.ended || !found.operands.isEmpty then
      modify fun state => { state with params := found.operands }
    Run.setStatus 0

end Builtin

end ThemedSvg.Shell

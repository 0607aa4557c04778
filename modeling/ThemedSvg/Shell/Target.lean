/-
# What names stand for

The name of a command is that of a builtin, of a function, or of a program that is searched
for. Some words in front of a name only say how to look for it.
-/

import ThemedSvg.Shell.Executor

namespace ThemedSvg.Shell

open Tool (Octets)

/-- What to run under a name. -/
inductive Target
  | function (body : Command)
  | builtin (run : Builtin)
  | program (name : String)
  | missing (status : Nat) (reason : Octets)

namespace Execution

/-- The program that a name is found under in a list of directories, or why there is none. -/
def search (name : Octets) (reason : Octets) : List Octets → Target
  | [] => .missing 127 reason
  | directory :: rest =>
      match Tool.Place.ofPath (directory ++ '/' :: name) with
      | .program program => .program program
      | .directory | .device _ => search name (Tool.faultText .denied) rest
      | .missing .notFound | .missing .notDirectory => search name reason rest
      | .missing fault => search name (Tool.faultText fault) rest

/-- The program that a name stands for. -/
def programOf (name : Octets) : Run Target := do
  let notFound := "not found".toList
  let made := (← get).world.files.lookup (Run.filePath name)
  let path := (← Run.valueOf? "PATH".toList).getD []
  if name.contains '/' then
    match Tool.Place.ofPath name, made with
    | _, some _ => return .missing 126 (Tool.faultText .denied)
    | .program program, _ => return .program program
    | .directory, _ | .device _, _ => return .missing 126 (Tool.faultText .denied)
    | .missing .notFound, _ | .missing .notDirectory, _ => return .missing 127 notFound
    | .missing fault, _ => return .missing 127 (Tool.faultText fault)
  else return search name notFound (path.splitOn ':')

/-- Whether the faults of a builtin end a script. -/
def isSpecial (name : Octets) : Bool :=
  Parse.specialBuiltins.contains (String.ofList name)

/-- The builtins that run further commands. -/
def runners : List String := [".", "command", "eval", "exec", "type"]

/-- What a name stands for. -/
def targetOf (runner : Octets → Option Builtin) (functions : Bool) (name : Octets) :
    Run Target := do
  let builtin := (runner name).or (Builtin.ofName? name)
  let known := (← get).functions
  let function := if functions then known.lookup name else none
  match builtin, function with
  | some run, some body => return if isSpecial name then .builtin run else .function body
  | some run, none => return .builtin run
  | none, some body => return .function body
  | none, none => programOf name

/-- Tells what names stand for. -/
def describe (brief : Bool) (names : List Octets) : Run Unit := do
  let mut text : Octets := []
  let mut status := 0
  for name in names do
    let (line, found) ← one name
    text := text ++ line
    if !found then status := 127
  Builtin.answer text status
where
  one (name : Octets) : Run (Octets × Bool) := do
    let say (verbose : String) : Octets × Bool :=
      (if brief then name ++ ['\n'] else name ++ (" is " ++ verbose ++ "\n").toList, true)
    if Token.keywords.contains (String.ofList name) then return say "a shell keyword"
    else
      let runner (name : Octets) : Option Builtin :=
        if runners.contains (String.ofList name) then some fun _ => pure () else none
      match ← targetOf runner true name with
      | .function _ => return say "a shell function"
      | .builtin _ =>
          return say (if isSpecial name then "a special shell builtin" else "a shell builtin")
      | .program program =>
          let path := if name.contains '/' then name else ("/usr/bin/" ++ program).toList
          let isKnown := (← get).located.contains name
          let verb := if isKnown then " is a tracked alias for " else " is "
          return (if brief then path ++ ['\n'] else name ++ verb.toList ++ path ++ ['\n'], true)
      | .missing .. =>
          return (if brief then [] else name ++ ": not found\n".toList, false)

/-- Tells what a name stands for, where no command is run. -/
def describeOne : Builtin := fun args => do
  let (given, names) ← Builtin.options ['p', 'v', 'V'] [] (args.length + 1) args
  match given.getLast?, names with
  | some (letter, _), name :: _ =>
      if letter = 'p' then Run.setStatus 0 else describe (letter = 'v') [name]
  | _, _ => Run.setStatus 0

/-- What is to be run behind words that only say how: those words and what is behind them. -/
def stripCommand : Nat → List Octets → Option (List Octets)
  | 0, _ => none
  | fuel + 1, words =>
      match words with
      | ('-' :: letters) :: rest =>
          if letters = ['-'] then if rest.isEmpty then none else some rest
          else if letters.isEmpty then some words
          else if letters.all (· == 'p') then stripCommand fuel rest
          else none
      | [] => none
      | words => some words

/-- The command behind all words that only say how to run it, and whether there were any. -/
def behindCommand : Nat → List Octets → List Octets × Bool
  | 0, words => (words, false)
  | fuel + 1, words =>
      match words with
      | name :: rest =>
          if name = "command".toList then
            match stripCommand (rest.length + 1) rest with
            | some inner => ((behindCommand fuel inner).1, true)
            | none => (words, false)
          else (words, false)
      | [] => (words, false)

end Execution

end ThemedSvg.Shell

/-
# All builtins

The builtins that write, decide, and change the directory, and a table of all that need
nothing but the state.
-/

import ThemedSvg.Shell.Builtin.Control
import ThemedSvg.Shell.Builtin.Settings
import ThemedSvg.Shell.Builtin.Variables
import ThemedSvg.Shell.Printing
import ThemedSvg.Shell.Signal

namespace ThemedSvg.Shell

open Tool (Octets)

namespace Builtin

/-- What is known of a file. -/
def kind? (contents : Tool.Contents) (files : List (Octets × Octets)) (path : Octets) :
    Option FileKind :=
  match contents path with
  | .error .isDirectory => some .directory
  | .error _ => none
  | .ok text =>
      if (files.lookup (Run.filePath path)).isSome then some (.regular text.isEmpty false)
      else
        match Tool.Place.ofPath path with
        | .device _ => some .device
        | _ => some (.regular false true)

def test : Builtin := fun args => do
  let contents ← Run.contents
  match Condition.holds ⟨kind? contents (← get).world.files⟩ args with
  | .ok truth => Run.setStatus (if truth then 0 else 1)
  | .error message => Run.abort message

/-- The condition between brackets, the last word of which starts with one. -/
def bracket : Builtin := fun args => do
  if args.getLast?.any fun last => last.head? = some ']' then test args.dropLast
  else Run.abort "missing ]".toList

def echo : Builtin := fun args => answer (Printing.echo args) 0

def printf : Builtin := fun args => do
  let (_, args) ← options [] [] (args.length + 1) args
  match args with
  | [] => Run.abort "usage: printf format [arg ...]".toList
  | format :: args =>
      let (printer, refusal) := Printing.printf format args
      for message in printer.complaints do Run.complain message
      match refusal with
      | some message =>
          Run.complain message
          answer printer.output 2
      | none => answer printer.output (if printer.complaints.isEmpty then 0 else 1)

/-- The working directory, as far as it is known. -/
def directory : Run Octets := do
  return (← Run.valueOf? "PWD".toList).getD ['/']

def pwd : Builtin := fun args => do
  let _ ← options ['L', 'P'] [] (args.length + 1) args
  answer ((← directory) ++ ['\n']) 0

/-- The path of a directory in another. -/
def joinPaths (base path : Octets) : Octets :=
  let full := if path.head? = some '/' then path else base ++ '/' :: path
  let names := full.splitOn '/' |>.foldl (fun names name =>
    if name = [] || name = ['.'] then names
    else if name = ['.', '.'] then names.drop 1
    else name :: names) []
  '/' :: List.intercalate ['/'] names.reverse

def cd : Builtin := fun args => do
  let (_, args) ← options ['L', 'P'] [] (args.length + 1) args
  let old ← directory
  let target ←
    match args with
    | [] => do pure ((← Run.valueOf? "HOME".toList).getD [])
    | ['-'] :: _ => do pure ((← Run.valueOf? "OLDPWD".toList).getD [])
    | path :: _ => pure path
  let path := joinPaths old target
  if target.isEmpty then Run.setStatus 0
  else if Tool.Place.ofPath path = .directory then
    modify fun state =>
      { state with
        bindings := setEntry "OLDPWD".toList ⟨some old, false, true⟩
          (setEntry "PWD".toList ⟨some path, false, true⟩ state.bindings) }
    if args.head? = some ['-'] then answer (path ++ ['\n']) 0 else Run.setStatus 0
  else Run.abort ("can't cd to ".toList ++ target)

def umask : Builtin := fun args => do
  match args with
  | [] => answer "0022\n".toList 0
  | _ => Run.setStatus 0

/-- The builtins whose faults end a script, and the others. -/
def table : List (String × Builtin) :=
  [(":", fun _ => Run.setStatus 0), ("break", leaveLoops .breaks),
    ("continue", leaveLoops .continues), ("exit", leave),
    ("export", marking "export" Variable.exported fun found => { found with exported := true }),
    ("local", hide),
    ("readonly",
      marking "readonly" Variable.readOnly fun found => { found with readOnly := true }),
    ("return", leaveFunction), ("set", configure), ("shift", shift), ("trap", trap), ("unset", forget),
    ("[", bracket), ("cd", cd), ("chdir", cd), ("echo", echo),
    ("false", fun _ => Run.setStatus 1), ("hash", fun _ => Run.setStatus 0),
    ("jobs", fun _ => Run.setStatus 0), ("kill", kill), ("printf", printf), ("pwd", pwd),
    ("read", read), ("test", test), ("true", fun _ => Run.setStatus 0), ("umask", umask),
    ("unalias", fun _ => Run.setStatus 0), ("wait", wait)]

/-- The builtin of a name. -/
def ofName? (name : Octets) : Option Builtin :=
  table.lookup (String.ofList name)

end Builtin

end ThemedSvg.Shell

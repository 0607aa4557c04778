/-
# The state of a shell

While a script runs, it has variables, functions and options, which are its own, and
streams, which it shares with what it starts. A part of a script that runs on its own
works on a copy of the former and on the same of the latter.
-/

import ThemedSvg.Tool.Places
import ThemedSvg.Shell.Parse

namespace ThemedSvg.Shell

open Tool (Octets)

/-- Where bytes come from or go to: an input or an output by its number, a file, nowhere, a
device without space, or a directory, which cannot be read. -/
inductive Stream
  | input (number : Nat)
  | output (number : Nat)
  | file (path : Octets)
  | nowhere
  | full
  | directory
  deriving DecidableEq, Repr

/-- What runs share: what is left of inputs, what has gone to outputs, and files. -/
structure World where
  inputs : List (Nat × Octets)
  outputs : List (Nat × Octets)
  files : List (Octets × Octets)
  next : Nat

/-- Finds or sets an entry of a list by its key. -/
def setEntry {α β : Type} [BEq α] (key : α) (value : β) (entries : List (α × β)) : List (α × β) :=
  (key, value) :: entries.filter fun entry => !(entry.1 == key)

/-- Takes the entry of a key out of a list. -/
def removeEntry {α β : Type} [BEq α] (key : α) (entries : List (α × β)) : List (α × β) :=
  entries.filter fun entry => !(entry.1 == key)

/-- A variable. It can be known without a value. -/
structure Variable where
  value : Option Octets
  readOnly : Bool
  exported : Bool
  deriving DecidableEq, Repr

/-- The state. `located` are the programs that were found by name, `documents` the texts
behind commands, `locals` the variables that a function hides, `loops` counts the loops
around a command, `substituted` is the status of the last command whose output was taken,
`line` is that of the last command, `reached` that up to which the script has been read,
`builtin` the command on whose behalf the shell complains, `process` its own number,
`spawned` that of the last command in the background and its status, `interrupted` the
status before a trap, and `killed` the signal that ends it all. -/
structure State where
  name : Octets
  params : List Octets
  bindings : List (Octets × Variable)
  functions : List (Octets × Command)
  located : List Octets
  options : List Char
  streams : List (Nat × Stream)
  traps : List (Nat × Octets)
  due : List Nat
  documents : List (Nat × Word)
  nextDocument : Nat
  locals : Option (List (Octets × Option Variable))
  loops : Nat
  status : Nat
  substituted : Nat
  line : Nat
  reached : Nat
  builtin : Option Octets
  process : Nat
  spawned : Option (Nat × Nat)
  interrupted : Option Nat
  killed : Option Nat
  world : World

/-- Why a script does not go on with the next command: it fails, which some commands keep
to themselves; it has come to its end, or a function to its own; or loops are left or gone
on with, so many of them. -/
inductive Jump
  | fails
  | leaves
  | returns
  | breaks (loops : Nat)
  | continues (loops : Nat)
  deriving DecidableEq, Repr

/-- A run from state to state. What it did until a jump stays done. -/
abbrev Run := ExceptT Jump (StateM State)

namespace Run

/-- The stream under a number. -/
def stream? (fd : Nat) : Run (Option Stream) := do
  return (← get).streams.lookup fd

/-- Changes the shared world. -/
def changeWorld (change : World → World) : Run Unit :=
  modify fun state => { state with world := change state.world }

/-- Writes to a stream. There may be none. -/
def write (fd : Nat) (octets : Octets) : Run Bool := do
  match ← stream? fd with
  | some (.output number) =>
      changeWorld fun world =>
        let done := (world.outputs.lookup number).getD []
        { world with outputs := setEntry number (done ++ octets) world.outputs }
      return true
  | some (.file path) =>
      changeWorld fun world =>
        let done := (world.files.lookup path).getD []
        { world with files := setEntry path (done ++ octets) world.files }
      return true
  | some .nowhere => return true
  | _ => return octets.isEmpty

/-- What is left of a stream to read. -/
def ahead (fd : Nat) : Run Octets := do
  match ← stream? fd with
  | some (.input number) => return ((← get).world.inputs.lookup number).getD []
  | _ => return []

/-- What is left of a stream to read, or the reason why it cannot be read. -/
def input (fd : Nat) : Run Tool.Input := do
  match ← stream? fd with
  | none => return .error Tool.closedText
  | some .directory => return .error (Tool.faultText .isDirectory)
  | some _ => return .ok (← ahead fd)

/-- Sets what is left of a stream to read. -/
def setAhead (fd : Nat) (rest : Octets) : Run Unit := do
  match ← stream? fd with
  | some (.input number) =>
      changeWorld fun world => { world with inputs := setEntry number rest world.inputs }
  | _ => pure ()

/-- A new input with a text. -/
def newInput (text : Octets) : Run Stream := do
  let number := (← get).world.next
  changeWorld fun world =>
    { world with inputs := (number, text) :: world.inputs, next := number + 1 }
  return .input number

/-- A new output. -/
def newOutput : Run Nat := do
  let number := (← get).world.next
  changeWorld fun world => { world with next := number + 1 }
  return number

/-- What has gone to an output. -/
def written (number : Nat) : Run Octets := do
  return ((← get).world.outputs.lookup number).getD []

def setStatus (status : Nat) : Run Unit :=
  modify fun state => { state with status := status }

/-- Complains, with the name of the script, a line, and the command that is carried out. -/
def complainAt (line : Nat) (message : Octets) : Run Unit := do
  let state ← get
  let builtin :=
    match state.builtin with
    | some name => name ++ ": ".toList
    | none => []
  let _ ← write 2 (state.name ++ ": ".toList ++ Tool.digitsOf line ++ ": ".toList ++ builtin
    ++ message ++ ['\n'])

/-- Complains in the line of the last command. -/
def complain (message : Octets) : Run Unit := do
  complainAt (← get).line message

/-- Complains and fails. -/
def abort {α : Type} (message : Octets) : Run α := do
  complain message
  setStatus 2
  throw .fails

/-- The value of a variable. -/
def valueOf? (name : Octets) : Run (Option Octets) := do
  return ((← get).bindings.lookup name).bind Variable.value

/-- Changes what is known of a variable. -/
def changeVariable (name : Octets) (change : Variable → Variable) : Run Unit :=
  modify fun state =>
    let found := (state.bindings.lookup name).getD ⟨none, false, false⟩
    { state with bindings := setEntry name (change found) state.bindings }

/-- Sets a variable, unless it is kept from that. -/
def assign (name value : Octets) : Run Unit := do
  let state ← get
  if ((state.bindings.lookup name).map Variable.readOnly).getD false then
    abort (name ++ ": is read only".toList)
  else
    let exports := state.options.contains 'a'
    changeVariable name fun found =>
      { found with value := some value, exported := found.exported || exports }

def hasOption (letter : Char) : Run Bool := do
  return (← get).options.contains letter

/-- The path of a file without detours, as the shell remembers it. -/
def filePath (path : Octets) : Octets :=
  let names := (path.splitOn '/').filter fun name => name != [] && name != ['.']
  let joined := List.intercalate ['/'] names
  if path.head? = some '/' then '/' :: joined else joined

/-- The contents of files, those that the script made among them. -/
def contents : Run Tool.Contents := do
  let files := (← get).world.files
  return fun path =>
    match files.lookup (filePath path) with
    | some text => if path.getLast? = some '/' then .error .notDirectory else .ok text
    | none => Tool.Place.contents path

/-- Runs apart: what happens to the streams and the world stays, and so does the status. A
signal ends the rest as well. -/
def apart (run : Run Unit) : Run Unit := do
  let before ← get
  let ((_, after) : Except Jump Unit × State) := Id.run (StateT.run (ExceptT.run run) before)
  set { before with
    world := after.world
    status := after.status
    killed := after.killed
    nextDocument := after.nextDocument }
  if after.killed.isSome then throw .leaves

end Run

end ThemedSvg.Shell

/-
# Signals

Signals have numbers and names. A shell sends them to itself or to other processes, and a
script says what happens when it gets one, or at its end.
-/

import ThemedSvg.Shell.Builtin.Basic

namespace ThemedSvg.Shell

open Tool (Octets)

namespace Signal

/-- The names of signals from the first one on. Those without a name go by their number. -/
def names : List String :=
  (Exit.signalNames.map fun name =>
    if name = "SIGSTKFLT" then "16" else String.ofList (name.toList.drop 3))
  ++ ["32", "33", "RTMIN"] ++ (List.range 15).map (fun n => "RTMIN+" ++ toString (n + 1))
  ++ (List.range 14).map (fun n => "RTMAX-" ++ toString (14 - n)) ++ ["RTMAX"]

/-- The name of a signal, or of the end of a script. -/
def nameOf (signal : Nat) : String :=
  if signal = 0 then "EXIT" else names[signal - 1]?.getD (toString signal)

/-- The signal that a text names or numbers; `exits` accepts the end of a script. -/
def ofText? (exits : Bool) (text : Octets) : Option Nat :=
  if !text.isEmpty && text.all Char.isDigit then
    let number := Term.valueOf 10 text
    if number ≤ 64 then some number else none
  else
    let name := String.ofList (text.map Char.toUpper)
    if exits && name = "EXIT" then some 0
    else (names.findIdx? (· == name)).map (· + 1)

/-- The signals that do nothing, or only make a process wait. -/
def harmless : List Nat := [17, 18, 19, 20, 21, 22, 23, 28]

/-- The signal that nothing keeps off. -/
def kill : Nat := 9

end Signal

namespace Builtin

/-- How signals are sent. -/
def killUsage : Octets :=
  ("Usage: kill [-s sigspec | -signum | -sigspec] [pid | job]... or\n" ++
    "kill -l [exitstatus]").toList

/-- Lists signals, or names one by its number or by the status that it leaves. -/
def listSignals (args : List Octets) : Run Unit := do
  match args with
  | [] => answer (("0\n" ++ String.join (Signal.names.map (· ++ "\n"))).toList) 0
  | text :: _ =>
      let given ← number text
      let signal := if 128 < given then given - 128 else given
      if 0 < signal ∧ signal ≤ 64 then answer (Signal.nameOf signal ++ "\n").toList 0
      else Run.abort ("invalid signal number or exit status: ".toList ++ text)

/-- Sends a signal to the shell itself. -/
def receive (signal : Nat) : Run Unit := do
  let state ← get
  let trap := state.traps.lookup signal
  if signal = 0 then pure ()
  else if signal = Signal.kill || trap.isNone then
    if !Signal.harmless.contains signal then
      set { state with killed := some signal }
      throw .leaves
  else if trap ≠ some [] && !state.due.contains signal then
    set { state with due := state.due ++ [signal] }

/-- Sends a signal to processes. Only the shell itself is known. -/
def sendSignal (signal : Nat) : List Octets → Run Unit
  | [] => pure ()
  | text :: rest => do
      let target ←
        match text with
        | '-' :: digits => do pure (-Int.ofNat (← number digits))
        | digits => do pure (Int.ofNat (← number digits))
      if target = 0 || target = Int.ofNat (← get).process then receive signal
      else
        Run.complain "No such process\n".toList
        Run.setStatus 1
      sendSignal signal rest

def kill : Builtin := fun args => do
  let direct : Option (Nat × List Octets) :=
    match args with
    | ('-' :: text) :: rest => (Signal.ofText? false text).map (·, rest)
    | _ => none
  Run.setStatus 0
  match direct with
  | some (signal, rest) =>
      if rest.isEmpty then Run.abort killUsage else sendSignal signal rest
  | none =>
      let check (value : Octets) : Run Unit := do
        if (Signal.ofText? false value).isNone then
          Run.abort ("invalid signal number or name: ".toList ++ value)
      let (given, rest) ← checkedOptions check ['l'] ['s'] (args.length + 1) args
      let named := given.filterMap fun (letter, value) =>
        if letter = 's' then Signal.ofText? false value else none
      if given.any fun option => option.1 == 'l' then listSignals rest
      else if rest.isEmpty then Run.abort killUsage
      else sendSignal (named.getLast?.getD 15) rest

/-- Sets what happens on signals and at the end, or lists it. -/
def trap : Builtin := fun args => do
  let (_, args) ← options [] [] (args.length + 1) args
  match args with
  | [] =>
      let traps := (← get).traps.mergeSort fun left right => left.1 ≤ right.1
      let lines := traps.flatMap fun (signal, action) =>
        "trap -- ".toList ++ singleQuoted action ++ ' ' :: (Signal.nameOf signal ++ "\n").toList
      answer lines 0
  | first :: rest =>
      let numbers := !first.isEmpty && (first.all Char.isDigit && (Signal.ofText? true first).isSome)
      let (action, names) := if rest.isEmpty || numbers then (['-'], args) else (first, rest)
      setTraps action names
where
  setTraps (action : Octets) : List Octets → Run Unit
    | [] => Run.setStatus 0
    | name :: rest => do
        match Signal.ofText? true name with
        | none =>
            let _ ← Run.write 2 ("trap: ".toList ++ name ++ ": bad trap\n".toList)
            Run.setStatus 1
        | some signal =>
            modify fun state =>
              let others := removeEntry signal state.traps
              { state with traps := if action = ['-'] then others else (signal, action) :: others }
            setTraps action rest

end Builtin

end ThemedSvg.Shell

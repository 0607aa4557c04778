/-
# Starting programs

A program reads and writes the streams of the shell. A shell that is started by a shell has a
state of its own. What a signal ends is reported.
-/

import ThemedSvg.Shell.Redirection
import ThemedSvg.Shell.Target

namespace ThemedSvg.Shell

open Tool (Octets)

namespace Execution

/-- What a shell says of a program that a signal ended, if anything. -/
def obituary (signal : Nat) : Option String :=
  match signal with
  | 1 => some "Hangup"
  | 2 | 13 => none
  | 3 => some "Quit"
  | 4 => some "Illegal instruction"
  | 5 => some "Trace/breakpoint trap"
  | 6 => some "Aborted"
  | 7 => some "Bus error"
  | 8 => some "Floating point exception"
  | 9 => some "Killed"
  | 10 => some "User defined signal 1"
  | 11 => some "Segmentation fault"
  | 12 => some "User defined signal 2"
  | 14 => some "Alarm clock"
  | 15 => some "Terminated"
  | 16 => some "Stack fault"
  | 24 => some "CPU time limit exceeded"
  | 25 => some "File size limit exceeded"
  | 26 => some "Virtual timer expired"
  | 27 => some "Profiling timer expired"
  | 29 => some "I/O possible"
  | 30 => some "Power failure"
  | 31 => some "Bad system call"
  | 32 | 33 => some ("Unknown signal " ++ toString signal)
  | signal => some ("Real-time signal " ++ toString (signal - 34))

/-- Keeps the way in which a program has ended as a status. -/
def keepExit (exit : Exit) : Run Unit := do
  match exit with
  | .code code => Run.setStatus code
  | .signal signal =>
      Run.setStatus (128 + signal)
      match obituary signal with
      | some text =>
          let _ ← Run.write 2 (text ++ "\n").toList
      | none => pure ()

/-- The end of a program that could not write, by what it says about that. -/
def failWriting (name : String) (complaint : Octets) : Run Exit := do
  let _ ← Run.write 2 ((name ++ ": ").toList ++ complaint ++ ['\n'])
  return .code 1

/-- Runs a filter. -/
def runFilter (name : String) (program : Tool.Program) (args : List Octets) : Run Exit := do
  let output ← Run.stream? 1
  if output.isNone && name = "cat" then
    failWriting name ("standard output: ".toList ++ Tool.closedText)
  else
    let outcome := program (← Run.contents) args (← Run.input 0)
    Run.setAhead 0 outcome.rest
    let _ ← Run.write 2 outcome.errors
    if ← Run.write 1 outcome.output then return outcome.exit
    else
      let reason := if output = some .full then Tool.fullText else Tool.closedText
      failWriting name ("write error: ".toList ++ reason)

/-- The variables of a shell that has just been started. -/
def startVariables : List (Octets × Variable) :=
  [("HOME".toList, ⟨some "/root".toList, false, true⟩), ("IFS".toList, ⟨some " \t\n".toList, false, false⟩),
    ("OPTIND".toList, ⟨some ['1'], false, false⟩),
    ("PATH".toList,
      ⟨some "/usr/local/sbin:/usr/local/bin:/usr/sbin:/usr/bin:/sbin:/bin".toList, false, true⟩),
    ("PS1".toList, ⟨some "# ".toList, false, false⟩), ("PS2".toList, ⟨some "> ".toList, false, false⟩),
    ("PS4".toList, ⟨some "+ ".toList, false, false⟩)]

/-- Runs a shell in a shell, which only shares streams and the world, and the variables
that are exported. -/
def runShell (executor : Executor) (args : List Octets) : Run Exit := do
  let outer ← get
  let inner : State :=
    { outer with
      name := "sh".toList
      params := []
      bindings :=
        let exported := outer.bindings.filterMap fun (name, found) =>
          if found.exported then some (name, { found with readOnly := false }) else none
        startVariables.foldl (fun bindings (name, found) =>
          if (bindings.lookup name).isSome then bindings else (name, found) :: bindings) exported
      functions := []
      located := []
      options := []
      traps := outer.traps.filter fun trap => trap.2.isEmpty
      due := []
      documents := []
      nextDocument := 0
      locals := none
      loops := 0
      status := 0
      substituted := 0
      line := 0
      reached := 0
      builtin := none
      process := outer.process + 1
      spawned := none
      interrupted := none
      killed := none }
  let ((_, after) : Except Jump Unit × State) :=
    Id.run (StateT.run (ExceptT.run (executor.shell args)) inner)
  set { outer with world := after.world }
  return match after.killed with
    | some signal => .signal signal
    | none => .code (after.status % 256)

/-- Runs a program. -/
def runProgram (executor : Executor) (name : String) (args : List Octets) : Run Exit := do
  if Tool.Place.shellNames.contains name then runShell executor args
  else
    match Tool.program? name with
    | some program => runFilter name program args
    | none => return .code 0

/-- Runs a program in the place of the shell. -/
def become (executor : Executor) (name : Octets) (args : List Octets) : Run Unit := do
  match ← programOf name with
  | .program program =>
      match ← runProgram executor program args with
      | .code code => Run.setStatus code
      | .signal signal => modify fun state => { state with killed := some signal }
      modify fun state => { state with traps := [] }
      throw .leaves
  | .missing status reason =>
      Run.complain (name ++ ": ".toList ++ reason)
      Run.setStatus status
      throw .leaves
  | _ => pure ()

end Execution

end ThemedSvg.Shell

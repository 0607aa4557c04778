/-
# Executors

The parts of execution call each other, so each of them is given the others as an executor.
With it a command can run apart from the shell, in the place of a text, or as a trap.
-/

import ThemedSvg.Shell.Builtin.Table

namespace ThemedSvg.Shell

open Tool (Octets)

/-- The parts of execution that call each other: a command, where `tested` tells that a
condition hangs on its status; a script in the same shell, likewise; and a shell of its own
with its arguments. -/
structure Executor where
  command : Bool → Command → Run Unit
  script : Bool → Octets → Run Unit
  shell : List Octets → Run Unit

namespace Run

/-- Runs on to the end or to a jump, which is kept. -/
def observe {α : Type} (run : Run α) : Run (Except Jump α) :=
  ExceptT.mk (ExceptT.run run >>= fun result => pure (.ok result))

/-- Runs, and then runs what has to be done in any case. -/
def ensuring (run finish : Run Unit) : Run Unit := do
  let result ← observe run
  finish
  match result with
  | .ok () => pure ()
  | .error jump => throw jump

/-- Runs on behalf of a builtin. -/
def onBehalfOf (name : Octets) (run : Run Unit) : Run Unit := do
  let before := (← get).builtin
  modify fun state => { state with builtin := some name }
  ensuring run (modify fun state => { state with builtin := before })

end Run

namespace Execution

/-- Runs what a script set for its end. -/
def atEnd (executor : Executor) : Run Unit := do
  let state ← get
  match state.traps.lookup 0 with
  | none | some [] => pure ()
  | some action =>
      if state.killed.isNone then
        set { state with traps := removeEntry 0 state.traps, interrupted := some state.status }
        match ← Run.observe (executor.script false action) with
        | .error .leaves => pure ()
        | .error .fails => pure ()
        | _ => Run.setStatus state.status

/-- Runs in a shell apart, in which signals have lost their traps. -/
def apart (executor : Executor) (run : Run Unit) : Run Unit :=
  Run.apart do
    modify fun state =>
      { state with
        traps := state.traps.filter fun trap => trap.2.isEmpty
        interrupted := none }
    let _ ← Run.observe run
    atEnd executor

/-- Takes the output of a command in the place of its text. -/
def capture (executor : Executor) (command : Command) : Run Octets := do
  let before := (← get).status
  let number ← Run.newOutput
  apart executor do
    modify fun state => { state with streams := setEntry 1 (.output number) state.streams }
    executor.command false command
  let found := (← get).status
  modify fun state => { state with status := before, substituted := found }
  Run.written number

/-- Runs the traps that are due. -/
def runTraps (executor : Executor) : Run Unit := do
  let state ← get
  set { state with due := [] }
  for signal in state.due do
    match (← get).traps.lookup signal with
    | none | some [] => pure ()
    | some action =>
        let status := (← get).status
        let outer := (← get).interrupted
        modify fun state => { state with interrupted := some status }
        executor.script false action
        modify fun state => { state with status := status, interrupted := outer }

/-- What comes behind each command: traps that are due, and the end of a script that must
not fail. -/
def settle (executor : Executor) (fatal : Bool) : Run Unit := do
  runTraps executor
  if fatal && (← get).status ≠ 0 && (← Run.hasOption 'e') then throw .leaves

end Execution

end ThemedSvg.Shell

/-
# Builtins that leave

Scripts, functions and loops are left before their end by builtins. A number says with
which status, or how many loops.
-/

import ThemedSvg.Shell.Builtin.Basic

namespace ThemedSvg.Shell

open Tool (Octets)

namespace Builtin

/-- Ends the script. -/
def leave : Builtin := fun args => do
  match args with
  | [] =>
      let state ← get
      Run.setStatus (state.interrupted.getD state.status)
  | code :: _ => Run.setStatus (← number code)
  throw .leaves

/-- Ends a function. -/
def leaveFunction : Builtin := fun args => do
  if let code :: _ := args then Run.setStatus (← number code)
  throw .returns

/-- Leaves loops, or goes on with the next round of one. -/
def leaveLoops (jump : Nat → Jump) : Builtin := fun args => do
  let count ←
    match args with
    | [] => pure 1
    | text :: _ => do
        let count ← number text
        if count = 0 then Run.abort ("Illegal number: ".toList ++ text) else pure count
  Run.setStatus 0
  let count := min count (← get).loops
  if count ≠ 0 then throw (jump count)

def shift : Builtin := fun args => do
  let count ←
    match args with
    | [] => pure 1
    | text :: _ => number text
  let state ← get
  if state.params.length < count then Run.abort "can't shift that many".toList
  else set { state with params := state.params.drop count, status := 0 }

/-- Waits for commands in the background, which have all come to their ends. -/
def wait : Builtin := fun args => do
  let state ← get
  match args with
  | [] => Run.setStatus 0
  | text :: _ =>
      let process ← number text
      Run.setStatus (match state.spawned with
        | some (spawned, status) => if spawned = process then status else 127
        | none => 127)

end Builtin

end ThemedSvg.Shell

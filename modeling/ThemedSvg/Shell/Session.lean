/-
# Shells as programs

A shell is started with arguments: a script among them, or in a file, or on its input. It
runs to its end and leaves a status, or the signal that ended it.
-/

import ThemedSvg.Shell.Execution

namespace ThemedSvg.Shell

open Tool (Octets)

namespace Execution

/-- Runs a script to its end, and what it set for that. -/
def whole (executor : Executor) (text : Octets) : Run Unit := do
  let _ ← Run.observe (executor.script false text)
  atEnd executor

/-- Complains about the arguments of a shell. -/
def refuseStart {α : Type} (message : Octets) : Run α := do
  Run.complainAt 0 message
  Run.setStatus 2
  throw .leaves

/-- Starts a shell with its arguments: a script among them, or in a file, or on the input. -/
def shell (executor : Executor) (args : List Octets) : Run Unit := do
  let found ← Builtin.settings true (args.length + 1) args
  match found.script, found.operands with
  | true, [] => refuseStart "-c requires an argument".toList
  | true, [text] => whole executor text
  | true, text :: name :: params =>
      modify fun state => { state with name := name, params := params }
      whole executor text
  | false, operands =>
      let fromInput := operands.isEmpty || (← Run.hasOption 's')
      if fromInput then
        modify fun state => { state with params := operands }
        let text ← Run.ahead 0
        Run.setAhead 0 []
        whole executor text
      else
        match operands with
        | [] => pure ()
        | path :: params =>
            let contents ← Run.contents
            match contents path with
            | .error .isDirectory => pure ()
            | .error fault =>
                refuseStart ("cannot open ".toList ++ path ++ ": ".toList ++ openFault fault)
            | .ok text =>
                modify fun state => { state with name := path, params := params }
                whole executor text

/-- Ends a shell that has no room left: the signal is that of a fault in memory. -/
def breakDown : Run Unit := do
  modify fun state => { state with killed := some 11 }
  throw .leaves

/-- The executor whose parts call each other to a depth. -/
def executor : Nat → Executor
  | 0 => ⟨fun _ _ => breakDown, fun _ _ => breakDown, fun _ => breakDown⟩
  | depth + 1 =>
      { command := fun tested found => command (executor depth) tested found
        script := fun tested text => script (executor depth) tested text
        shell := fun args => shell (executor depth) args }

/-- How deep commands can nest. -/
def depth : Nat := 10000

/-- A shell that has just been started on an input. -/
def start (input : Octets) : State where
  name := "sh".toList
  params := []
  bindings := startVariables
  functions := []
  located := []
  options := []
  streams := [(0, .input 0), (1, .output 1), (2, .output 2)]
  traps := []
  due := []
  documents := []
  nextDocument := 0
  locals := none
  loops := 0
  status := 0
  substituted := 0
  line := 0
  reached := 0
  builtin := none
  process := 10000
  spawned := none
  interrupted := none
  killed := none
  world := { inputs := [(0, input)], outputs := [], files := [], next := 3 }

end Execution

/-- The shell as a filter. -/
def program (name : Octets) : Tool.Program := fun _ args input =>
  let start := { Execution.start (input.toOption.getD []) with name := name }
  let ((_, after) : Except Jump Unit × State) :=
    Id.run (StateT.run (ExceptT.run ((Execution.executor Execution.depth).shell args)) start)
  { exit :=
      match after.killed with
      | some signal => .signal signal
      | none => .code (after.status % 256)
    output := (after.world.outputs.lookup 1).getD []
    errors := (after.world.outputs.lookup 2).getD []
    rest := (after.world.inputs.lookup 0).getD [] }

end ThemedSvg.Shell

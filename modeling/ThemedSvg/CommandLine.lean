/-
# Optimizer commands

A command line is a program with arguments. As an optimizer it gets the markup on
its input; what it writes is taken as the optimized markup, without the white space
at its end. What a command does with its input is up to the machine that it runs on.
-/

import ThemedSvg.Optimizer
import ThemedSvg.Text.Bytes

namespace ThemedSvg

/-- A program and its arguments. -/
structure CommandLine where
  program : String
  args : List String
  deriving DecidableEq, Repr

/-- What a command leaves behind at its end. `broken` is the reason why its input could
not be written to it, if there is one. -/
structure Completion where
  exit : Exit
  output : ByteArray
  errors : ByteArray
  broken : Option String

/-- What commands do with their input: they come to an end, or cannot be run for a
reason. -/
abbrev Machine := CommandLine → ByteArray → Except String Completion

namespace CommandLine

/-- The optimizer that is used when none is named. -/
def svgo : CommandLine := ⟨"svgo", ["-i", "-", "-o", "-"]⟩

/-- The markup that a program stands for with what it left behind. Its own failure
comes before that of writing to it. -/
def markupOf (program : String) (completion : Completion) : Except OptimizeFault String :=
  if completion.exit = .code 0 then
    match completion.broken with
    | some reason => .error (.notStarted program reason)
    | none =>
        match Text.ofBytes? completion.output with
        | some markup => .ok (String.ofList (Text.trimEnd markup.toList))
        | none => .error .invalidOutput
  else
    let errors := Text.trim (Text.decodeLossy completion.errors.toList)
    .error (.failed program completion.exit (String.ofList errors))

/-- The command as an optimizer. -/
def optimizer (machine : Machine) (command : CommandLine) : Optimizer := fun markup =>
  match machine command markup.toUTF8 with
  | .error reason => .error (.notStarted command.program reason)
  | .ok completion => markupOf command.program completion

end CommandLine

end ThemedSvg

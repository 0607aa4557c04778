/-
# Optimizers

An optimizer is a function from markup to smaller markup that may fail. Rendering
runs it behind the template and before the encoding.
-/

import ThemedSvg.Text.Space

namespace ThemedSvg

/-- How a program ends. -/
inductive Exit
  | code (n : Nat)
  | signal (n : Nat)
  deriving DecidableEq, Repr

namespace Exit

/-- The names of the signals that have one, in the order of their numbers. -/
def signalNames : List String :=
  ["SIGHUP", "SIGINT", "SIGQUIT", "SIGILL", "SIGTRAP", "SIGABRT", "SIGBUS", "SIGFPE",
    "SIGKILL", "SIGUSR1", "SIGSEGV", "SIGUSR2", "SIGPIPE", "SIGALRM", "SIGTERM", "SIGSTKFLT",
    "SIGCHLD", "SIGCONT", "SIGSTOP", "SIGTSTP", "SIGTTIN", "SIGTTOU", "SIGURG", "SIGXCPU",
    "SIGXFSZ", "SIGVTALRM", "SIGPROF", "SIGWINCH", "SIGIO", "SIGPWR", "SIGSYS"]

def message : Exit → String
  | code n => s!"exit status: {n}"
  | signal n =>
      match signalNames[n - 1]? with
      | some name => s!"signal: {n} ({name})"
      | none => s!"signal: {n}"

end Exit

/-- How an optimizer fails: its program does not start, or ends badly, or writes
what is no text; or it refuses for a reason of its own. -/
inductive OptimizeFault
  | notStarted (program reason : String)
  | failed (program : String) (exit : Exit) (errors : String)
  | invalidOutput
  | refused (reason : String)
  deriving DecidableEq, Repr

namespace OptimizeFault

def message : OptimizeFault → String
  | notStarted program reason => s!"failed to run optimizer `{program}`: {reason}"
  | failed program exit errors => s!"optimizer `{program}` exited with {exit.message}: {errors}"
  | invalidOutput => "optimizer produced invalid UTF-8"
  | refused reason => reason

end OptimizeFault

/-- A function from markup to markup, or to the fault that stopped it. -/
abbrev Optimizer := String → Except OptimizeFault String

namespace Optimizer

/-- Replaces every occurrence of a pattern. -/
def replacing (pattern replacement : String) : Optimizer := fun markup =>
  .ok (String.ofList (Text.replaceAll pattern.toList replacement.toList markup.toList))

/-- Always refuses, for the given reason. -/
def refusing (reason : String) : Optimizer := fun _ => .error (.refused reason)

/-- Markup behind an optimizer, if there is one. -/
def run (optimizer : Option Optimizer) (markup : String) : Except OptimizeFault String :=
  match optimizer with
  | some optimizer => optimizer markup
  | none => .ok markup

end Optimizer

end ThemedSvg

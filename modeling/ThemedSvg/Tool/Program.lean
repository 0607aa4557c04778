/-
# Programs

An optimizer command names a program that reads markup on its input and writes
markup on its output. A program touches nothing else, so it is a function from the
files it can read, its arguments and its input to an outcome.
-/

import ThemedSvg.Tool.Octets
import ThemedSvg.Files.Basic
import ThemedSvg.Optimizer

namespace ThemedSvg.Tool

/-- What a program finds on its input: a text, or the reason why there is none. -/
abbrev Input := Except Octets Octets

/-- What a program leaves behind. `rest` is the input that it has not read. -/
structure Outcome where
  exit : Exit
  output : Octets
  errors : Octets
  rest : Octets
  deriving DecidableEq, Repr

namespace Outcome

/-- A program that has read its input and did its work. -/
def success (output : Octets) : Outcome := ⟨.code 0, output, [], []⟩

/-- A program that complains and gives up before it reads anything. -/
def refusal (code : Nat) (complaint : Octets) (input : Input) : Outcome :=
  ⟨.code code, [], complaint ++ ['\n'], input.toOption.getD []⟩

end Outcome

/-- The contents of files by path. -/
abbrev Contents := Octets → Except FileFault Octets

/-- A program that is given its arguments and its input. -/
abbrev Program := Contents → List Octets → Input → Outcome

/-- What an operating system says of a fault, without its number. -/
def faultText (fault : FileFault) : Octets :=
  match fault with
  | .notFound => "No such file or directory".toList
  | .notDirectory => "Not a directory".toList
  | .isDirectory => "Is a directory".toList
  | .nameTooLong => "File name too long".toList
  | .nullCharacter => "Invalid argument".toList
  | .denied => "Permission denied".toList

/-- Why a stream that is closed can be neither read nor written. -/
def closedText : Octets := "Bad file descriptor".toList

/-- Why a device without space cannot be written. -/
def fullText : Octets := "No space left on device".toList

end ThemedSvg.Tool

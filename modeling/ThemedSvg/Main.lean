/-
# The program

Reads the files and the input that a run needs, and writes what it answers. Optimizers
run on the machine with a shell.
-/

import ThemedSvg.Shell.Machine
import ThemedSvg.Terminal.Run

namespace ThemedSvg.Terminal

/-- What an error of the operating system says of a file. -/
def faultOf : IO.Error → FileFault
  | .inappropriateType _ 21 _ => .isDirectory
  | .inappropriateType .. => .notDirectory
  | .invalidArgument _ 22 _ => .nullCharacter
  | .invalidArgument .. => .nameTooLong
  | .permissionDenied .. => .denied
  | _ => .notFound

/-- The contents of the files at the given paths, as they are now. -/
def readFiles (paths : List String) : IO Files := do
  let contents ← paths.mapM fun (path : String) => do
    try return (path, Except.ok (← IO.FS.readBinFile path))
    catch fault => return (path, Except.error (faultOf fault))
  return fun path => (contents.lookup path).getD (.error .notFound)

/-- The rest of a stream, behind what is read of it. -/
partial def readRest (stream : IO.FS.Stream) (done : ByteArray) : IO ByteArray := do
  let bytes ← stream.read 65536
  if bytes.isEmpty then return done else readRest stream (done ++ bytes)

/-- The standard input as a text. -/
def readInput : IO (Except String String) := do
  let bytes ← readRest (← IO.getStdin) ByteArray.empty
  return Files.readText (fun _ => .ok bytes) ""

end ThemedSvg.Terminal

open ThemedSvg Terminal in
def main (words : List String) : IO UInt32 := do
  let named := namedFiles words
  let assets := assetFiles Shell.machine words (← readFiles named)
  let files ← readFiles (named ++ assets)
  let input ← if readsInput words then readInput else pure (.ok "")
  let outcome := run Shell.machine words input files
  IO.print outcome.output
  IO.eprint outcome.errors
  return outcome.status.toUInt32

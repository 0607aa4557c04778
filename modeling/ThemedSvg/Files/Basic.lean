/-
# Files

What assets and configurations are read from is a function from paths to contents,
so that reading is no effect: whoever reads says what the files hold at that time.
-/

import ThemedSvg.Text.Bytes

namespace ThemedSvg

/-- Why a path leads to no contents. -/
inductive FileFault
  | notFound
  | notDirectory
  | isDirectory
  | nameTooLong
  | nullCharacter
  | denied
  deriving DecidableEq, Repr

namespace FileFault

def message : FileFault → String
  | notFound => "No such file or directory (os error 2)"
  | notDirectory => "Not a directory (os error 20)"
  | isDirectory => "Is a directory (os error 21)"
  | nameTooLong => "File name too long (os error 36)"
  | nullCharacter => "file name contained an unexpected NUL byte"
  | denied => "Permission denied (os error 13)"

end FileFault

/-- The contents that paths lead to. -/
abbrev Files := String → Except FileFault ByteArray

namespace Files

/-- No files at all. -/
def empty : Files := fun _ => .error .notFound

/-- Whether a path leads to a regular file. -/
def isRegular (files : Files) (path : String) : Bool :=
  match files path with
  | .ok _ => true
  | .error fault => fault == .denied

/-- The text of a file, or why there is none. -/
def readText (files : Files) (path : String) : Except String String :=
  match files path with
  | .error fault => .error fault.message
  | .ok bytes =>
      match Text.ofBytes? bytes with
      | some text => .ok text
      | none => .error "stream did not contain valid UTF-8"

/-- The path of a name in a directory. A name from the root on stands alone. -/
def join (directory name : String) : String :=
  if name.toList.head? = some '/' || directory = "" then name
  else if directory.toList.getLast? = some '/' then directory ++ name
  else directory ++ "/" ++ name

end Files

end ThemedSvg

/-
# Where programs and files are

What a command finds on the machine it runs on: the directories that every machine has,
the filters in two of them, and two devices that hold nothing. The working directory is
empty. A path is followed step by step, and only directories lead further.
-/

import ThemedSvg.Tool.Programs

namespace ThemedSvg.Tool

/-- What is at a place. A device has space for everything or for nothing. -/
inductive Place
  | directory
  | program (name : String)
  | device (spacious : Bool)
  | missing (fault : FileFault)
  deriving DecidableEq, Repr

namespace Place

/-- The directories, by the names that lead there. -/
def directories : List (List String) :=
  [[], ["bin"], ["boot"], ["dev"], ["etc"], ["home"], ["lib"], ["media"], ["mnt"], ["opt"],
    ["proc"], ["root"], ["run"], ["sbin"], ["srv"], ["sys"], ["tmp"], ["usr"], ["usr", "bin"],
    ["usr", "lib"], ["usr", "local"], ["usr", "local", "bin"], ["usr", "local", "sbin"],
    ["usr", "sbin"], ["usr", "share"], ["var"], ["var", "tmp"]]

/-- The names under which the shell goes. -/
def shellNames : List String := ["sh", "dash"]

/-- Whether a name is that of a program. -/
def isProgram (name : String) : Bool :=
  shellNames.contains name || (program? name).isSome

/-- The longest name and the longest path, in bytes. -/
def longestName : Nat := 255

def longestPath : Nat := 4095

/-- What is in a directory under a name. -/
def entry (directory : List String) (name : String) : Place :=
  if directories.contains (directory ++ [name]) then .directory
  else if (directory = ["bin"] || directory = ["usr", "bin"]) && isProgram name then .program name
  else if directory = ["dev"] && name = "null" then .device true
  else if directory = ["dev"] && name = "full" then .device false
  else .missing .notFound

/-- Follows names from a directory on; one outside of the known ones is nothing but the
working directory. -/
def follow (directory : Option (List String)) : List Octets → Place
  | [] => .directory
  | name :: rest =>
      if name = [] || name = ['.'] then follow directory rest
      else if name = ['.', '.'] then follow (directory.map List.dropLast) rest
      else if longestName < name.length then .missing .nameTooLong
      else
        match directory with
        | none => .missing .notFound
        | some place =>
            let name := Octets.toText name
            match entry place name with
            | .directory => follow (some (place ++ [name])) rest
            | .missing fault => .missing fault
            | found => if rest.isEmpty then found else .missing .notDirectory

/-- What a path leads to. -/
def ofPath (path : Octets) : Place :=
  if path.isEmpty then .missing .notFound
  else if longestPath < path.length then .missing .nameTooLong
  else follow (if path.head? = some '/' then some [] else none) (path.splitOn '/')

/-- What a program is called by: a path, or a name that is looked for where programs are. -/
def ofCommand (name : Octets) : Place :=
  if name.contains '/' then ofPath name
  else if name = ['.'] || name = ['.', '.'] then .directory
  else if longestName < name.length then .missing .nameTooLong
  else if isProgram (Octets.toText name) then .program (Octets.toText name)
  else .missing .notFound

/-- What a file holds. -/
def contents : Contents := fun path =>
  match ofPath path with
  | .directory => .error .isDirectory
  | .program _ | .device _ => .ok []
  | .missing fault => .error fault

end Place

end ThemedSvg.Tool

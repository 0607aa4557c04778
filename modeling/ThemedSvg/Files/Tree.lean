/-
# File trees

A file tree holds files and directories below a working directory. It answers for
paths as an operating system does: step by step, each step but the last one into a
directory. Nothing is known outside of the working directory.
-/

import ThemedSvg.Files.Basic

namespace ThemedSvg

/-- What a tree holds at a place. -/
inductive FileNode
  | file (contents : ByteArray)
  | directory

/-- The places of a tree that hold something, by the names that lead there. -/
structure FileTree where
  places : List (List String × FileNode)

namespace FileTree

/-- An empty working directory. -/
def empty : FileTree := ⟨[]⟩

/-- What is at a place. -/
def node? (tree : FileTree) (place : List String) : Option FileNode :=
  (tree.places.find? (·.1 == place)).map (·.2)

/-- The names in a path. -/
def names (path : String) : List String :=
  (path.toList.splitOn '/').map String.ofList

/-- The longest name, in bytes, that a file can have. -/
def longestName : Nat := 255

/-- The longest path, in bytes. -/
def longestPath : Nat := 4095

/-- Where a walk stands: at a place of the tree, or outside of it. -/
inductive Position
  | inside (place : List String)
  | outside
  deriving DecidableEq, Repr

namespace Position

/-- The directory above. -/
def parent : Position → Position
  | inside [] | outside => outside
  | inside place => inside place.dropLast

end Position

/-- Walks along names from a directory. -/
def walk (tree : FileTree) (position : Position) : List String → Except FileFault ByteArray
  | [] => .error .isDirectory
  | name :: rest =>
      if name = "" || name = "." then walk tree position rest
      else if name = ".." then walk tree position.parent rest
      else if longestName < name.utf8ByteSize then .error .nameTooLong
      else
        match position with
        | .outside => .error .notFound
        | .inside place =>
            match tree.node? (place ++ [name]) with
            | none => .error .notFound
            | some .directory => walk tree (.inside (place ++ [name])) rest
            | some (.file contents) =>
                if rest.isEmpty then .ok contents else .error .notDirectory

/-- The contents of the tree's files by path. -/
def files (tree : FileTree) : Files := fun path =>
  if path.toList.contains '\x00' then .error .nullCharacter
  else if path = "" then .error .notFound
  else if longestPath < path.utf8ByteSize then .error .nameTooLong
  else walk tree (if path.toList.head? = some '/' then .outside else .inside []) (names path)

/-- Puts something at a place. -/
def put (tree : FileTree) (place : List String) (node : FileNode) : FileTree :=
  ⟨(place, node) :: tree.places.filter (·.1 != place)⟩

/-- The directories that lead to a place, outermost first. -/
def above (place : List String) : List (List String) :=
  (List.range (place.length - 1)).map fun n => place.take (n + 1)

/-- Names that lead somewhere, without those that stay. -/
def place (path : String) : List String :=
  (names path).filter fun name => name != "" && name != "."

/-- Writes a file, and makes the directories that lead to it. -/
def write (tree : FileTree) (path : String) (contents : ByteArray) : FileTree :=
  let target := place path
  let tree := (above target).foldl (fun tree directory => tree.put directory .directory) tree
  tree.put target (.file contents)

/-- Removes a file, if it is there. -/
def remove (tree : FileTree) (path : String) : FileTree :=
  ⟨tree.places.filter (·.1 != place path)⟩

end FileTree

end ThemedSvg

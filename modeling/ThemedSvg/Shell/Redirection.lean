/-
# Redirections

A command can have its streams lead elsewhere: to files, to each other, to texts in the
script, or nowhere. Their targets are known before the first of them is opened.
-/

import ThemedSvg.Shell.Executor

namespace ThemedSvg.Shell

open Tool (Octets digitsOf)

namespace Execution

/-- A redirection with its target known. -/
structure Aimed where
  redirect : Redirect
  target : Octets

/-- The targets of redirections. -/
def aim (executor : Executor) : List Redirect → Run (List Aimed)
  | [] => return []
  | redirect :: rest => do
      let target ←
        match redirect with
        | .into _ _ word | .outOf _ word | .both _ word =>
            Expansion.text (capture executor) word
        | .like _ word => do
            let text ← Expansion.text (capture executor) word
            match text with
            | ['-'] => pure text
            | [c] =>
                if c.isDigit then pure text else badNumber
            | _ => badNumber
        | .document _ number => do
            let pieces := ((← get).documents.lookup number).getD []
            pure (Atom.text (← Expansion.pieces (capture executor) false false pieces))
      return ⟨redirect, target⟩ :: (← aim executor rest)
where
  badNumber : Run Octets := do
    Run.complainAt (← get).reached "Syntax error: Bad fd number".toList
    Run.setStatus 2
    throw .fails

/-- Sets where a stream leads. -/
def setStream (fd : Nat) (stream : Stream) : Run Unit :=
  modify fun state => { state with streams := setEntry fd stream state.streams }

/-- The stream under a number that a path stands for. -/
def streamPath? (path : Octets) : Option Nat :=
  match String.ofList path with
  | "/dev/stdin" => some 0
  | "/dev/stdout" => some 1
  | "/dev/stderr" => some 2
  | _ =>
      let start := ["/dev/fd/", "/proc/self/fd/"].find? fun start => start.toList.isPrefixOf path
      match start.map fun start => path.drop start.length with
      | some [c] => if c.isDigit then some (c.toNat - '0'.toNat) else none
      | _ => none

/-- The path of the directory that a path is in. -/
def parent (path : Octets) : Octets :=
  let trimmed := (path.reverse.dropWhile (· != '/')).reverse
  if trimmed.isEmpty then ['.'] else trimmed

/-- Why no file can be opened or made: the words a shell has for a fault. -/
def openFault (fault : FileFault) : Octets :=
  match fault with
  | .notFound | .notDirectory => "No such file".toList
  | fault => Tool.faultText fault

def makeFault (fault : FileFault) : Octets :=
  match fault with
  | .notFound | .notDirectory => "Directory nonexistent".toList
  | fault => Tool.faultText fault

/-- Why no file can be made at a path where there is none, if it cannot. -/
def makingFault? (path : Octets) : Option FileFault :=
  let name := (path.reverse.dropWhile (· == '/')).reverse
  let last := name.drop (parent name).length
  if path.isEmpty then some .notFound
  else
    match Tool.Place.ofPath (parent name) with
    | .directory =>
        if name.length < path.length then some .isDirectory
        else if Tool.Place.longestName < last.length then some .nameTooLong
        else none
    | .missing fault => some fault
    | _ => some .notDirectory

/-- Opens a file to be written. -/
def makeFile (fd : Nat) (appends : Bool) (path : Octets) : Run Bool := do
  let contents ← Run.contents
  let fault? :=
    match contents path with
    | .error .notFound => makingFault? path
    | .error fault => some fault
    | .ok _ => none
  match fault?, Tool.Place.ofPath path with
  | some fault, _ =>
      Run.complain ("cannot create ".toList ++ path ++ ": ".toList ++ makeFault fault)
      return false
  | none, .device spacious =>
      setStream fd (if spacious then .nowhere else .full)
      return true
  | none, _ =>
      let key := Run.filePath path
      Run.changeWorld fun world =>
        let kept := if appends then (world.files.lookup key).getD [] else []
        { world with files := setEntry key kept world.files }
      setStream fd (.file key)
      return true

/-- Lets a stream lead where another one does. -/
def likeOther (fd other : Nat) : Run Bool := do
  match ← Run.stream? other with
  | some stream =>
      setStream fd stream
      return true
  | none =>
    if fd = other then return true
    else
      Run.complain (digitsOf other ++ ": Bad file descriptor".toList)
      return false

/-- Carries out a redirection, or complains. -/
def redirectOne (aimed : Aimed) : Run Bool := do
  let path := aimed.target
  match aimed.redirect with
  | .into fd appends _ =>
      match streamPath? path with
      | some other => likeOther fd other
      | none => makeFile fd appends path
  | .outOf fd _ | .both fd _ =>
      match streamPath? path with
      | some other => likeOther fd other
      | none => do
          let contents ← Run.contents
          let creates :=
            match aimed.redirect with
            | .both .. => true
            | _ => false
          let text : Except FileFault Octets :=
            match contents path with
            | .error .notFound =>
                if creates && (makingFault? path).isNone then .ok [] else .error .notFound
            | found => found
          match text with
          | .ok text =>
              setStream fd (← Run.newInput text)
              return true
          | .error .isDirectory =>
              setStream fd .directory
              return true
          | .error fault =>
              Run.complain ("cannot open ".toList ++ path ++ ": ".toList ++ openFault fault)
              return false
  | .like fd _ =>
      match path with
      | ['-'] =>
          modify fun state => { state with streams := removeEntry fd state.streams }
          return true
      | [digit] => likeOther fd (digit.toNat - '0'.toNat)
      | _ => return false
  | .document fd _ =>
      setStream fd (← Run.newInput path)
      return true

/-- Carries out redirections up to the first that fails. -/
def redirectAll : List Aimed → Run Bool
  | [] => return true
  | aimed :: rest => do
      if ← redirectOne aimed then redirectAll rest
      else
        Run.setStatus 2
        return false

/-- Runs with streams that lead elsewhere, unless that fails. -/
def withRedirects (aimed : List Aimed) (run : Run Unit) : Run Unit := do
  let before := (← get).streams
  let restore : Run Unit := modify fun state => { state with streams := before }
  if ← redirectAll aimed then Run.ensuring run restore else restore

end Execution

end ThemedSvg.Shell

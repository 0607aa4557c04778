/-
# Syntax of shell scripts

A script is a sequence of commands. A command is simple, with words, assignments and
redirections, or is put together from others. Words are made of pieces that are text or
stand for text: parameters, the output of other commands, and sums.
-/

import ThemedSvg.Tool.Octets

namespace ThemedSvg.Shell

open Tool (Octets)

/-- What is asked of a parameter that may be missing. -/
inductive Fallback
  | orElse
  | assign
  | refuse
  | onlyIf
  deriving DecidableEq, Repr

mutual

/-- A piece of a word, and whether it stands between quotes. -/
inductive Piece
  | text (chars : Octets) (quoted : Bool)
  | param (name : Octets) (use : Use) (quoted : Bool)
  | output (script : Command) (quoted : Bool)
  | sum (pieces : List Piece) (quoted : Bool)

/-- What becomes of a parameter. A missing one may be replaced, and so may an empty one
if `orEmpty`. A part that fits a pattern may be cut off at one of its ends. -/
inductive Use
  | plain
  | length
  | missing (fallback : Fallback) (orEmpty : Bool) (pieces : List Piece)
  | cut (atEnd longest : Bool) (pattern : List Piece)
  | invalid

/-- Where a stream of a command leads. The text behind a command has the number it was
read under. -/
inductive Redirect
  | into (fd : Nat) (appends : Bool) (target : List Piece)
  | outOf (fd : Nat) (source : List Piece)
  | both (fd : Nat) (target : List Piece)
  | like (fd : Nat) (other : List Piece)
  | document (fd number : Nat)

/-- A command. Simple ones, loops over words and choices know their line. -/
inductive Command
  | nothing
  | simple (line : Nat) (assignments : List (Octets × List Piece)) (words : List (List Piece))
      (redirects : List Redirect)
  | pipe (commands : List Command)
  | negate (command : Command)
  | andThen (first second : Command)
  | orElse (first second : Command)
  | sequence (first second : Command)
  | background (command : Command)
  | subshell (line : Nat) (command : Command) (redirects : List Redirect)
  | redirected (line : Nat) (command : Command) (redirects : List Redirect)
  | choose (test yes no : Command)
  | loop (untilTrue : Bool) (test body : Command)
  | forEach (line : Nat) (name : Octets) (words : List (List Piece)) (body : Command)
  | select (line : Nat) (word : List Piece) (cases : List (List (List Piece) × Command))
  | define (name : Octets) (body : Command)

end

instance : Inhabited Command := ⟨.nothing⟩

/-- A word: its pieces. -/
abbrev Word := List Piece

/-- The characters that start a name. -/
def startsName (c : Char) : Bool := c.isAlpha || c == '_'

/-- The characters of a name behind the first one. -/
def continuesName (c : Char) : Bool := startsName c || c.isDigit

/-- Whether a text is a name. -/
def isName (text : Octets) : Bool :=
  match text with
  | c :: rest => startsName c && rest.all continuesName
  | [] => false

/-- The text of a word that is nothing but text without quotes. -/
def plainText? : Word → Option Octets
  | [] => some []
  | [.text chars false] => some chars
  | _ => none

/-- An assignment that a word spells: a name without quotes, an equals sign, and the
pieces behind it. -/
def assignment? : Word → Option (Octets × Word)
  | .text chars false :: pieces =>
      let name := chars.takeWhile continuesName
      match chars.drop name.length with
      | '=' :: value =>
          if isName name then
            some (name, if value.isEmpty then pieces else .text value false :: pieces)
          else none
      | _ => none
  | _ => none

end ThemedSvg.Shell

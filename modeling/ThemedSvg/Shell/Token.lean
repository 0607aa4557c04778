/-
# Tokens of shell scripts

Operators, words, redirections and the ends of lines. A word without quotes can be a
keyword where a command may start. Complaints about a script name the token that was
not expected there.
-/

import ThemedSvg.Shell.Syntax

namespace ThemedSvg.Shell

open Tool (Octets)

/-- An operator. -/
inductive Operator
  | semicolon
  | background
  | andThen
  | orElse
  | pipe
  | opening
  | closing
  | endCase
  deriving DecidableEq, Repr

/-- The start of a redirection, whose target is the next word. -/
inductive Arrow
  | into (appends : Bool)
  | outOf
  | both
  | like
  | document (strips : Bool)
  deriving DecidableEq, Repr

/-- A token. -/
inductive Token
  | endOfFile
  | newline
  | operator (operator : Operator)
  | keyword (name : String)
  | word (word : Word) (quoted : Bool)
  | redirect (fd : Nat) (arrow : Arrow)

namespace Token

/-- The keywords. -/
def keywords : List String :=
  ["!", "case", "do", "done", "elif", "else", "esac", "fi", "for", "if", "in", "then", "until",
    "while", "\x7b", "\x7d"]

/-- The keywords that end a list of commands. -/
def endKeywords : List String :=
  ["do", "done", "elif", "else", "esac", "fi", "then", "\x7d"]

/-- How an operator is spelled. -/
def operatorText : Operator → String
  | .semicolon => ";"
  | .background => "&"
  | .andThen => "&&"
  | .orElse => "||"
  | .pipe => "|"
  | .opening => "("
  | .closing => ")"
  | .endCase => ";;"

/-- The name of a token in a complaint. -/
def name : Token → String
  | endOfFile => "end of file"
  | newline => "newline"
  | operator op => "\"" ++ operatorText op ++ "\""
  | keyword name => "\"" ++ name ++ "\""
  | word .. => "word"
  | redirect .. => "redirection"

/-- Whether a token ends a list of commands. -/
def endsList : Token → Bool
  | endOfFile => true
  | operator .closing | operator .endCase => true
  | keyword name => endKeywords.contains name
  | _ => false

def isNewline : Token → Bool
  | newline => true
  | _ => false

def isKeyword (token : Token) (expected : String) : Bool :=
  match token with
  | keyword name => name == expected
  | _ => false

def isOperator (token : Token) (expected : Operator) : Bool :=
  match token with
  | operator op => op == expected
  | _ => false

/-- The keyword that a word is, where keywords are looked for. -/
def asKeyword (token : Token) : Token :=
  match token with
  | word pieces false =>
      match plainText? pieces with
      | some text =>
          if keywords.contains (String.ofList text) then keyword (String.ofList text) else token
      | none => token
  | token => token

end Token

/-- Why a script is not understood, and in which line. -/
structure SyntaxFault where
  line : Nat
  message : Octets
  deriving DecidableEq, Repr

/-- The text behind a command that is still to be read: its number, the line that ends
it, whether it is taken as it stands, and whether tabs in front are taken off. -/
structure Awaited where
  number : Nat
  ending : Octets
  literal : Bool
  strips : Bool
  deriving DecidableEq, Repr

/-- Reading a script: the text ahead, its line, a token that was put back, and the texts
behind commands, those awaited and those read. -/
structure Reader where
  rest : Octets
  line : Nat
  putBack : Option Token
  awaited : List Awaited
  documents : List (Nat × Word)
  nextDocument : Nat

/-- Reads a part of a script. -/
abbrev Parse := StateT Reader (Except SyntaxFault)

namespace Parse

/-- Gives up. -/
def fail {α : Type} (message : String) : Parse α := fun reader =>
  .error ⟨reader.line, ("Syntax error: " ++ message).toList⟩

/-- Gives up over a token. -/
def unexpected {α : Type} (token : Token) (expected : Option Token) : Parse α :=
  match expected with
  | some expected => fail (token.name ++ " unexpected (expecting " ++ expected.name ++ ")")
  | none => fail (token.name ++ " unexpected")

/-- Puts a token back. -/
def putBack (token : Token) : Parse Unit :=
  modify fun reader => { reader with putBack := some token }

/-- Skips line breaks behind backslashes. `fuel` bounds their number. -/
def skipJoints : Nat → Parse Unit
  | 0 => pure ()
  | fuel + 1 => do
      match (← get).rest with
      | '\\' :: '\n' :: rest =>
          modify fun reader => { reader with rest := rest, line := reader.line + 1 }
          skipJoints fuel
      | _ => pure ()

/-- The next character as it stands. -/
def raw? : Parse (Option Char) := do
  match (← get).rest with
  | [] => return none
  | c :: rest =>
      modify fun reader =>
        { reader with rest := rest, line := if c = '\n' then reader.line + 1 else reader.line }
      return some c

/-- The next character behind joints between lines. -/
def next? : Parse (Option Char) := do
  skipJoints (← get).rest.length
  raw?

/-- What the next character behind joints will be. -/
def peek? : Parse (Option Char) := do
  skipJoints (← get).rest.length
  return (← get).rest.head?

/-- Takes the next character if it is the expected one. -/
def take? (expected : Char) : Parse Bool := do
  if (← peek?) = some expected then
    let _ ← raw?
    return true
  else return false

end Parse

end ThemedSvg.Shell

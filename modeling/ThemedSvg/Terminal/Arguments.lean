/-
# Program arguments

The words behind the program's name are options and at most one input file. A long
option takes its value behind an equals sign or as the next word; short options can
share a dash, and the last of them takes what follows it, or else the next word, as
its value. A word with a dash in front is no value, unless it is the dash alone, and
behind two dashes no word is an option.
-/

namespace ThemedSvg.Terminal

/-- What the program is asked to do. Nothing is there unless it is given. -/
structure Arguments where
  input : Option String
  params : Option String
  path : List String
  config : Option String
  markup : Bool
  catalog : Bool
  value : Option String
  directories : List String
  debug : Bool
  deriving DecidableEq, Repr

/-- Why there is nothing to do: the user asks for help, or is wrong. -/
inductive Refusal
  | help
  | misuse
  deriving DecidableEq, Repr

namespace Arguments

def empty : Arguments := ⟨none, none, [], none, false, false, none, [], false⟩

/-- Sets the input file. There is one at most, and its name is not empty. -/
def setInput (word : String) (arguments : Arguments) : Except Refusal Arguments :=
  if arguments.input.isSome || word = "" then .error .misuse
  else .ok { arguments with input := some word }

def setParams (word : String) (arguments : Arguments) : Except Refusal Arguments :=
  if arguments.params.isSome then .error .misuse
  else .ok { arguments with params := some word }

def addSprite (word : String) (arguments : Arguments) : Except Refusal Arguments :=
  .ok { arguments with path := arguments.path ++ [word] }

def setConfig (word : String) (arguments : Arguments) : Except Refusal Arguments :=
  if arguments.config.isSome || word = "" then .error .misuse
  else .ok { arguments with config := some word }

def setValue (word : String) (arguments : Arguments) : Except Refusal Arguments :=
  if arguments.value.isSome then .error .misuse
  else .ok { arguments with value := some word }

def addDirectory (word : String) (arguments : Arguments) : Except Refusal Arguments :=
  if word = "" then .error .misuse
  else .ok { arguments with directories := arguments.directories ++ [word] }

def askMarkup (arguments : Arguments) : Except Refusal Arguments :=
  if arguments.markup then .error .misuse else .ok { arguments with markup := true }

def askCatalog (arguments : Arguments) : Except Refusal Arguments :=
  if arguments.catalog then .error .misuse else .ok { arguments with catalog := true }

def askDebug (arguments : Arguments) : Except Refusal Arguments :=
  if arguments.debug then .error .misuse else .ok { arguments with debug := true }

end Arguments

/-- What an option does, with a value or without one. -/
inductive Effect
  | valued (set : String → Arguments → Except Refusal Arguments)
  | plain (ask : Arguments → Except Refusal Arguments)

/-- An option with its names, and the two columns of its line in the help. -/
structure OptionKind where
  short : Option Char
  long : String
  effect : Effect
  placeholder : String
  purpose : String

namespace OptionKind

/-- All options, in the order of the help. -/
def all : List OptionKind :=
  [⟨some 'p', "params", .valued Arguments.setParams, "PARAMS",
      "Render parameters, e.g. \"[fill]: red; size: 16px\" [default: ]"⟩,
    ⟨some 's', "sprite", .valued Arguments.addSprite, "ID",
      "Sprite id to select; repeat for nested sprites"⟩,
    ⟨some 'c', "config", .valued Arguments.setConfig, "CONFIG",
      "Configuration file (TOML format)"⟩,
    ⟨none, "markup", .plain Arguments.askMarkup, "",
      "Print the rendered markup instead of the data URI"⟩,
    ⟨none, "catalog", .plain Arguments.askCatalog, "",
      "List the color catalog instead of rendering"⟩,
    ⟨none, "value", .valued Arguments.setValue, "DECL",
      "Rewrite every svg(...) call in a CSS declaration value"⟩,
    ⟨some 'I', "dir", .valued Arguments.addDirectory, "DIR",
      "Directory searched for named assets"⟩,
    ⟨some 'd', "debug", .plain Arguments.askDebug, "",
      "Debug mode: timing output, failures are raised"⟩,
    ⟨some 'h', "help", .plain fun _ => .error .help, "", "Print help"⟩]

/-- The option of a long name. -/
def ofLong? (name : String) : Option OptionKind := all.find? (·.long == name)

/-- The option of a letter. -/
def ofShort? (letter : Char) : Option OptionKind := all.find? (·.short == some letter)

end OptionKind

/-- Whether a word can be the value of the option before it. -/
def isValue (word : String) : Bool :=
  word = "-" || word.toList.head? != some '-'

/-- What a word of options leaves: the arguments so far, and what to do with the next
word if it is the value of the last option. -/
structure Progress where
  arguments : Arguments
  awaiting : Option (String → Arguments → Except Refusal Arguments)

namespace Progress

/-- Reads a long option behind its dashes. -/
def long (text : List Char) (arguments : Arguments) : Except Refusal Progress :=
  let name := text.takeWhile (· != '=')
  let value := (text.dropWhile (· != '=')).tail? |>.map String.ofList
  match OptionKind.ofLong? (String.ofList name), value with
  | none, _ => .error .misuse
  | some ⟨_, _, .plain _, _, _⟩, some _ => .error .misuse
  | some ⟨_, _, .plain ask, _, _⟩, none => return ⟨← ask arguments, none⟩
  | some ⟨_, _, .valued set, _, _⟩, some value => return ⟨← set value arguments, none⟩
  | some ⟨_, _, .valued set, _, _⟩, none => return ⟨arguments, some set⟩

/-- Reads short options behind their dash. -/
def short (letters : List Char) (arguments : Arguments) : Except Refusal Progress :=
  match letters with
  | [] => .ok ⟨arguments, none⟩
  | letter :: rest => do
      match (OptionKind.ofShort? letter).map OptionKind.effect with
      | none => .error .misuse
      | some (.plain ask) => short rest (← ask arguments)
      | some (.valued set) =>
          match rest with
          | [] => return ⟨arguments, some set⟩
          | '=' :: value => return ⟨← set (String.ofList value) arguments, none⟩
          | value => return ⟨← set (String.ofList value) arguments, none⟩

/-- Reads a word that is no value of an option before it. -/
def word (word : String) (arguments : Arguments) : Except Refusal Progress :=
  match word.toList with
  | '-' :: '-' :: text => long text arguments
  | '-' :: letter :: letters => short (letter :: letters) arguments
  | _ => return ⟨← arguments.setInput word, none⟩

end Progress

namespace Arguments

/-- Reads words behind the two dashes. -/
def addInputs (arguments : Arguments) (words : List String) : Except Refusal Arguments :=
  words.foldlM (fun arguments word => arguments.setInput word) arguments

/-- Reads all words in turn. -/
def addWords (arguments : Arguments) : List String → Except Refusal Arguments
  | [] => .ok arguments
  | "--" :: rest => arguments.addInputs rest
  | word :: rest => do
      let progress ← Progress.word word arguments
      match progress.awaiting with
      | none => progress.arguments.addWords rest
      | some set =>
          match rest with
          | [] => .error .misuse
          | value :: rest =>
              if isValue value then (← set value progress.arguments).addWords rest
              else .error .misuse

/-- The arguments that the words behind the program's name spell. -/
def ofWords (words : List String) : Except Refusal Arguments :=
  empty.addWords words

end Arguments

end ThemedSvg.Terminal

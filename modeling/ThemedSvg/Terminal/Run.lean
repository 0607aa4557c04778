/-
# Runs of the program

A run turns arguments, an input text and files into what is written and an exit
status. It expands a declaration value if one is given, whatever the input is, and
renders or lists the asset of the input if not. Optimizers run on a machine.
-/

import ThemedSvg.Build
import ThemedSvg.Declaration.Expansion
import ThemedSvg.Markup.Report
import ThemedSvg.Terminal.Listing

namespace ThemedSvg.Terminal

/-- How a run ends. -/
structure Outcome where
  status : Nat
  output : String
  errors : String
  deriving DecidableEq, Repr

/-- Why a run stops short. -/
inductive Stop
  | config (path : String) (fault : ConfigFault)
  | file (path reason : String)
  | input (reason : String)
  | markup (source filename : String) (fault : ParseFault)
  | asset (fault : AssetFault)
  deriving DecidableEq, Repr

namespace Stop

/-- What is written about it. Faults of the markup are shown in place. -/
def text : Stop → String
  | config path fault => s!"Error loading config '{path}': {fault.message}\n"
  | file path reason => s!"Error reading file '{path}': {reason}\n"
  | input reason => s!"Error reading from stdin: {reason}\n"
  | markup source filename fault => Markup.report fault source filename
  | asset fault => s!"Error: {fault.message}\n"

/-- A run that stops ends with status 1. -/
def outcome (stop : Stop) : Outcome := ⟨1, "", stop.text⟩

end Stop

namespace Outcome

def ofOutput (output : String) : Outcome := ⟨0, output, ""⟩

/-- An expanded value is written out with the warnings on the side. -/
def ofExpansion (expansion : Expansion) : Outcome :=
  let warnings := expansion.warnings.map fun warning => "Warning: " ++ warning.text
  ⟨0, ofLines [expansion.value], ofLines warnings⟩

def ofRefusal : Refusal → Outcome
  | .help => ofOutput help
  | .misuse => ⟨2, "", misuse⟩

end Outcome

namespace Arguments

/-- The configuration of a run: that of the file, with more search directories, and
debugging if it is asked for. -/
def configuration (arguments : Arguments) (files : Files) : Except Stop Config := do
  let config ←
    match arguments.config with
    | some path => (Config.ofFile files path).mapError (.config path)
    | none => .ok Config.standard
  return { config with
    debug := config.debug || arguments.debug
    directories := config.directories ++ arguments.directories }

/-- The name and the text of the input, which is the standard input if no file is
named. -/
def source (arguments : Arguments) (input : Except String String) (files : Files) :
    Except Stop (String × String) :=
  match arguments.input with
  | some path => ((files.readText path).mapError (.file path)).map (path, ·)
  | none => (input.mapError .input).map ("<stdin>", ·)

/-- Expands a declaration value with an empty cache. -/
def expand (machine : Machine) (config : Config) (files : Files) (value : String) :
    Except Stop Outcome :=
  let (expansion, _) := config.expand files (config.cache machine) value
  (expansion.map .ofExpansion).mapError .asset

/-- What is written of an asset. A listing comes before markup. -/
def present (arguments : Arguments) (asset : Asset) : Except Stop String :=
  let params := Params.ofShorthand (arguments.params.getD "")
  if arguments.catalog then .ok (listing asset)
  else if arguments.markup then .ok (ofLines [asset.markup params])
  else ((asset.render params).map fun uri => ofLines [uri]).mapError fun fault =>
    .asset (.optimize fault)

/-- Runs the program up to the point where it stops. -/
def run? (machine : Machine) (arguments : Arguments) (input : Except String String)
    (files : Files) : Except Stop Outcome := do
  let config ← arguments.configuration files
  match arguments.value with
  | some value => expand machine config files value
  | none =>
      let (filename, source) ← arguments.source input files
      let asset ←
        (Asset.ofMarkup source (config.assetOptions machine)).mapError (.markup source filename)
      let target ← (asset.resolve arguments.path).mapError fun fault => .asset (.notFound fault)
      return .ofOutput (← arguments.present target)

end Arguments

/-- Runs the program with the words behind its name. -/
def run (machine : Machine) (words : List String) (input : Except String String)
    (files : Files) : Outcome :=
  match Arguments.ofWords words with
  | .error refusal => .ofRefusal refusal
  | .ok arguments =>
      match arguments.run? machine input files with
      | .ok outcome => outcome
      | .error stop => stop.outcome

/-- Whether a run reads the standard input. -/
def readsInput (words : List String) : Bool :=
  match Arguments.ofWords words with
  | .ok arguments => arguments.input.isNone && arguments.value.isNone
  | .error _ => false

/-- The files that are named by the arguments. -/
def namedFiles (words : List String) : List String :=
  match Arguments.ofWords words with
  | .ok arguments => arguments.config.toList ++ arguments.input.toList
  | .error _ => []

/-- The paths at which the assets of the declaration value are looked for. -/
def assetFiles (machine : Machine) (words : List String) (files : Files) : List String :=
  match Arguments.ofWords words with
  | .error _ => []
  | .ok arguments =>
      match arguments.value, arguments.configuration files with
      | some value, .ok config =>
          (Invocation.find value config.func).flatMap fun call =>
            (config.cache machine).candidates call.target.1
      | _, _ => []

end ThemedSvg.Terminal

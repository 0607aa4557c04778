/-
# Configurations

A configuration says how assets are found, built and asked for. It is put together
in code or read from a TOML document, where every setting may be missing, and one
that has the wrong kind makes the document unusable. Settings of other names are
left alone.
-/

import ThemedSvg.Asset
import ThemedSvg.CommandLine
import ThemedSvg.Files.Basic
import ThemedSvg.Toml.Document

namespace ThemedSvg

/-- Which optimizer there is: the usual one or none, or a command. -/
inductive OptimizerSetting
  | switch (on : Bool)
  | command (line : CommandLine)
  deriving DecidableEq, Repr

namespace OptimizerSetting

/-- The command of a setting. -/
def commandLine? : OptimizerSetting → Option CommandLine
  | switch on => if on then some CommandLine.svgo else none
  | command line => some line

/-- The optimizer of a setting on a machine. -/
def optimizer? (machine : Machine) (setting : OptimizerSetting) : Option Optimizer :=
  setting.commandLine?.map (CommandLine.optimizer machine)

end OptimizerSetting

/-- Everything that is settled for all assets. `func` is the function that declaration
values call. -/
structure Config where
  func : String
  silent : Bool
  debug : Bool
  optimizer : OptimizerSetting
  defaults : Option String
  affixes : Affixes
  directories : List String
  deriving DecidableEq, Repr

namespace Config

/-- The configuration without any settings. -/
def standard : Config := ⟨"svg", true, false, .switch false, none, Affixes.empty, []⟩

instance : Inhabited Config := ⟨standard⟩

/-- Whether failures are only warned of. Debugging never is silent. -/
def isSilent (config : Config) : Bool := config.silent && !config.debug

/-- The default parameters, from their shorthand. -/
def defaultParams (config : Config) : Params :=
  (config.defaults.map Params.ofShorthand).getD Params.empty

/-- What assets are built with on a machine. -/
def assetOptions (machine : Machine) (config : Config) : AssetOptions :=
  ⟨config.defaultParams, config.affixes, config.optimizer.optimizer? machine, config.debug⟩

/-- Adds a search directory behind the others. -/
def addDirectory (config : Config) (directory : String) : Config :=
  { config with directories := config.directories ++ [directory] }

end Config

/-- Why there is no configuration. -/
inductive ConfigFault
  | unreadable (reason : String)
  | malformed
  deriving DecidableEq, Repr

namespace ConfigFault

def message : ConfigFault → String
  | unreadable reason => s!"Failed to read config file: {reason}"
  | malformed => "Failed to parse config TOML"

end ConfigFault

/-- A command: a table with the program as `command` and a list of `args`. -/
def CommandLine.ofEntries? (entries : Toml.Entries) : Option CommandLine := do
  let program ← (← entries.lookup "command").text?
  let args ← entries.setting "args" [] Toml.Value.texts?
  return ⟨program, args⟩

/-- A switch, or else a command. -/
def OptimizerSetting.ofValue? (value : Toml.Value) : Option OptimizerSetting :=
  match value with
  | .boolean on => some (.switch on)
  | .table _ entries => (CommandLine.ofEntries? entries).map .command
  | _ => none

/-- Affixes are a table, or an array with one behind the other. A date counts as a
table with no entries of ours. -/
def Affixes.ofValue? (value : Toml.Value) : Option Affixes := do
  match value with
  | .table _ entries =>
      let before ← Toml.Entries.setting "prefix" "" Toml.Value.text? entries
      let after ← Toml.Entries.setting "postfix" "" Toml.Value.text? entries
      return ⟨before, after⟩
  | .array items =>
      match ← (items.take 2).mapM Toml.Value.text? with
      | [] => return Affixes.empty
      | [before] => return ⟨before, ""⟩
      | before :: after :: _ => return ⟨before, after⟩
  | .dateTime => return Affixes.empty
  | _ => none

namespace Config

/-- The optimizer goes by either of two names, but not by both at once. -/
def optimizerIn? (entries : Toml.Entries) : Option OptimizerSetting :=
  match entries.lookup "svgo", entries.lookup "optimizer" with
  | some _, some _ => none
  | some value, none | none, some value => OptimizerSetting.ofValue? value
  | none, none => some standard.optimizer

/-- The configuration of a document's table. -/
def ofEntries? (entries : Toml.Entries) : Option Config := do
  let func ← entries.setting "func" standard.func Toml.Value.text?
  let silent ← entries.setting "silent" standard.silent Toml.Value.boolean?
  let debug ← entries.setting "debug" standard.debug Toml.Value.boolean?
  let optimizer ← optimizerIn? entries
  let defaults ← entries.setting "defaults" standard.defaults fun value => value.text?.map some
  let affixes ← entries.setting "sprite" standard.affixes Affixes.ofValue?
  let directories ← entries.setting "dirs" standard.directories Toml.Value.texts?
  return ⟨func, silent, debug, optimizer, defaults, affixes, directories⟩

/-- Reads a configuration from a TOML document. -/
def ofToml (text : String) : Except ConfigFault Config :=
  match (Toml.document? text).bind ofEntries? with
  | some config => .ok config
  | none => .error .malformed

/-- Reads a configuration from a file. -/
def ofFile (files : Files) (path : String) : Except ConfigFault Config :=
  match files.readText path with
  | .ok text => ofToml text
  | .error reason => .error (.unreadable reason)

end Config

end ThemedSvg

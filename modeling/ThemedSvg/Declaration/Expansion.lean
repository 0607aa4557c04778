/-
# Expansion of declaration values

Every call in a declaration value gives way to the data URI that it asks for, from
the left, and all text between the calls stays. If the configuration is silent, a
call that fails stays as well and is warned of; if not, the first one that fails
ends the expansion. The cache keeps what was built on the way in both cases.
-/

import ThemedSvg.Cache
import ThemedSvg.Config
import ThemedSvg.Declaration.Invocation

namespace ThemedSvg

/-- A failure that is told of and not raised. -/
structure Warning where
  name : String
  message : String
  deriving DecidableEq, Repr

/-- The program that warns, then the call and what is wrong with it. -/
def Warning.text (warning : Warning) : String :=
  s!"simple-svg: {warning.name}: {warning.message}"

/-- An expanded value, and the calls that were left in it. -/
structure Expansion where
  value : String
  warnings : List Warning
  deriving DecidableEq, Repr

namespace Expansion

/-- The expansion of a value that starts with more text. -/
def behind (before : List Char) (expansion : Expansion) : Expansion :=
  { expansion with value := String.ofList before ++ expansion.value }

/-- The expansion with a warning in front of the others. -/
def warned (warning : Warning) (expansion : Expansion) : Expansion :=
  { expansion with warnings := warning :: expansion.warnings }

end Expansion

/-- The data URI of an asset of the cache, or of a sprite of it. -/
def SharedAsset.uri (shared : SharedAsset) (path : List String) (params : Params) :
    Except AssetFault String :=
  match shared.asset.resolve path with
  | .error fault => .error (.notFound fault)
  | .ok asset => (asset.render params).mapError .optimize

namespace Invocation

/-- The data URI that a call asks for. -/
def render (call : Invocation) (files : Files) (cache : Cache) :
    Except AssetFault String × Cache :=
  let (name, path) := call.target
  match cache.get files name with
  | (.error fault, cache) => (.error fault, cache)
  | (.ok shared, cache) => (shared.uri path (Params.ofShorthand (call.params.getD "")), cache)

/-- The warning that a call is left for a fault. -/
def warning (call : Invocation) (fault : AssetFault) : Warning :=
  ⟨call.name, fault.message⟩

/-- Expands a value from byte `offset` on, where `calls` are the ones that start there
or later. -/
def expandFrom (files : Files) (silent : Bool) (value : List Char) :
    Nat → List Invocation → Cache → Except AssetFault Expansion × Cache
  | offset, [], cache => (.ok ⟨String.ofList (Text.dropBytes offset value), []⟩, cache)
  | offset, call :: calls, cache =>
      match call.render files cache with
      | (.ok uri, cache) =>
          let before := Text.sliceBytes offset call.start value ++ uri.toList
          let (rest, cache) := expandFrom files silent value call.stop calls cache
          (rest.map (·.behind before), cache)
      | (.error fault, cache) =>
          if silent then
            let before := Text.sliceBytes offset call.stop value
            let (rest, cache) := expandFrom files silent value call.stop calls cache
            (rest.map fun rest => (rest.behind before).warned (call.warning fault), cache)
          else (.error fault, cache)

end Invocation

namespace Config

/-- The empty cache of a configuration on a machine. -/
def cache (machine : Machine) (config : Config) : Cache :=
  { Cache.new (config.assetOptions machine) with directories := config.directories }

/-- Expands a declaration value. -/
def expand (config : Config) (files : Files) (cache : Cache) (value : String) :
    Except AssetFault Expansion × Cache :=
  Invocation.expandFrom files config.isSilent value.toList 0
    (Invocation.find value config.func) cache

end Config

end ThemedSvg

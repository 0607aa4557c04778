/-
# Asset caches

A cache gives assets their names. An asset that is asked for by a name the cache
does not know is built from the first file that goes by that name in the search
directories, and is shared from then on. What fails to build is not kept.
-/

import ThemedSvg.Build
import ThemedSvg.Files.Basic

namespace ThemedSvg

/-- An asset that is shared: two are the same one if they have the same stamp. -/
structure SharedAsset where
  stamp : Nat
  asset : Asset

/-- Assets by name, what they are built with, and where files are looked for. `built`
counts the assets built so far, and is the next stamp. -/
structure Cache where
  directories : List String
  options : AssetOptions
  assets : List (String × SharedAsset)
  built : Nat

namespace Cache

/-- An empty cache, which looks for files in the working directory. -/
def new (options : AssetOptions) : Cache := ⟨[], options, [], 0⟩

/-- Adds a search directory behind the others. -/
def addDirectory (cache : Cache) (directory : String) : Cache :=
  { cache with directories := cache.directories ++ [directory] }

def contains (cache : Cache) (name : String) : Bool :=
  (Keyed.find? name cache.assets).isSome

/-- The number of names with an asset. -/
def size (cache : Cache) : Nat := cache.assets.length

def isEmpty (cache : Cache) : Bool := cache.assets.isEmpty

/-- Shares an asset under a name. -/
def share (cache : Cache) (name : String) (asset : Asset) : SharedAsset × Cache :=
  let shared : SharedAsset := ⟨cache.built, asset⟩
  (shared, { cache with
    assets := Keyed.insert name shared cache.assets
    built := cache.built + 1 })

/-- Builds an asset from markup and shares it in place of any earlier one. -/
def insertMarkup (cache : Cache) (name markup : String) :
    Except AssetFault SharedAsset × Cache :=
  match Asset.ofMarkup markup cache.options with
  | .error fault => (.error (.parse fault), cache)
  | .ok asset =>
      let (shared, cache) := cache.share name asset
      (.ok shared, cache)

/-- The search directories: the working directory if there are no others. -/
def searched (cache : Cache) : List String :=
  if cache.directories.isEmpty then ["."] else cache.directories

/-- The paths at which an asset is looked for: in each directory the name as it is,
and then with its usual ending. -/
def candidates (cache : Cache) (name : String) : List String :=
  cache.searched.flatMap fun directory =>
    [Files.join directory name, Files.join directory (name ++ ".svg")]

/-- The first path at which there is a file. -/
def locate? (cache : Cache) (files : Files) (name : String) : Option String :=
  (cache.candidates name).find? files.isRegular

end Cache

namespace Asset

/-- The asset of a file. -/
def ofFile (files : Files) (path : String) (options : AssetOptions) : Except AssetFault Asset :=
  match files.readText path with
  | .error reason => .error (.file path reason)
  | .ok markup =>
      match build (.path path) options markup with
      | .ok asset => .ok asset
      | .error fault => .error (.parse fault)

end Asset

namespace Cache

/-- The asset of a name, built on first use. -/
def get (cache : Cache) (files : Files) (name : String) : Except AssetFault SharedAsset × Cache :=
  match Keyed.find? name cache.assets with
  | some shared => (.ok shared, cache)
  | none =>
      match cache.locate? files name with
      | none => (.error (.notFound (.asset name)), cache)
      | some path =>
          match Asset.ofFile files path cache.options with
          | .error fault => (.error fault, cache)
          | .ok asset =>
              let (shared, cache) := cache.share name asset
              (.ok shared, cache)

end Cache

end ThemedSvg

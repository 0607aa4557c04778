/-
# Assets

An asset is a document made ready for rendering: its template, the catalog of its
colors, and the sprites in it, which are assets themselves. A sprite is built from
the markup of its symbol as written, so nothing that is done to the sheet reaches
it.
-/

import ThemedSvg.Catalog
import ThemedSvg.DataUri
import ThemedSvg.Markup.Parse
import ThemedSvg.Optimizer
import ThemedSvg.Sprite
import ThemedSvg.Template.Compile

namespace ThemedSvg

/-- What is put around the first sprite id of a path. -/
structure Affixes where
  before : String
  after : String
  deriving DecidableEq, Repr

namespace Affixes

def empty : Affixes := ⟨"", ""⟩

instance : Inhabited Affixes := ⟨empty⟩

def wrap (affixes : Affixes) (id : String) : String :=
  affixes.before ++ id ++ affixes.after

end Affixes

/-- Where the markup of an asset comes from. -/
inductive Source
  | path (name : String)
  | inline
  | sprite (id : String)
  deriving DecidableEq, Repr

namespace Source

def text : Source → String
  | path name => name
  | inline => "<inline>"
  | sprite id => s!"sprite {id}"

end Source

/-- What all assets of one origin share. -/
structure AssetOptions where
  defaults : Params
  affixes : Affixes
  optimizer : Option Optimizer
  debug : Bool

namespace AssetOptions

def standard : AssetOptions := ⟨Params.empty, Affixes.empty, none, false⟩

instance : Inhabited AssetOptions := ⟨standard⟩

/-- The options of sprites. Affixes apply to the first id of a path only, so
sprites have none. -/
def forSprites (options : AssetOptions) : AssetOptions :=
  { options with affixes := Affixes.empty }

end AssetOptions

/-- A name or an id that leads nowhere. -/
inductive NotFound
  | sprite (id : String)
  | asset (name : String)
  deriving DecidableEq, Repr

namespace NotFound

def message : NotFound → String
  | sprite id => s!"can't find sprite with id {id}"
  | asset name => s!"can't find SVG asset {name}"

end NotFound

/-- Why there is no asset, or no rendering of it. -/
inductive AssetFault
  | parse (fault : ParseFault)
  | notFound (fault : NotFound)
  | file (path reason : String)
  | optimize (fault : OptimizeFault)
  deriving DecidableEq, Repr

namespace AssetFault

def message : AssetFault → String
  | parse fault => fault.message
  | notFound fault => fault.message
  | file path reason => s!"failed to read SVG file {path}: {reason}"
  | optimize fault => fault.message

end AssetFault

/-- A document ready for rendering. `sprites` is in the order of the ids. -/
structure Asset where
  source : Source
  rootAttributes : AttributeMap
  template : Template
  catalog : Catalog
  sprites : List (String × Asset)
  options : AssetOptions

namespace Asset

/-- Puts the hooks on an annotated root. The style hook is for documents whose
colors are not filed, because they have none. -/
def hooked (catalog : Catalog) (root : Element) : Element :=
  (if catalog.isEmpty then root.injectStyleHook else root).injectSizeHooks

/-- The asset of a document, once the walk over it has filed its colors and built its
sprites. `root` is as written, `annotated` as the walk leaves it. -/
def assemble (source : Source) (options : AssetOptions) (root annotated : Element)
    (catalog : Catalog) (sprites : List (String × Asset)) : Asset where
  source
  rootAttributes := root.attributeMap
  template := Template.compile (hooked catalog annotated)
  catalog
  sprites
  options

/-- Follows a path of sprite ids. The first one is wrapped in the asset's affixes;
the id that is missing is named as it was looked for. -/
def resolve (asset : Asset) : List String → Except NotFound Asset
  | [] => .ok asset
  | id :: rest =>
      let wrapped := asset.options.affixes.wrap id
      match Keyed.find? wrapped asset.sprites with
      | some sprite => sprite.resolve rest
      | none => .error (.sprite wrapped)

/-- The ids of the sprites. -/
def spriteIds (asset : Asset) : List String := asset.sprites.map (·.1)

/-- The markup under parameters laid over the asset's defaults. -/
def markup (asset : Asset) (params : Params) : String :=
  asset.template.render params asset.options.defaults

/-- The data URI of the optimized markup. -/
def render (asset : Asset) (params : Params) : Except OptimizeFault String :=
  (Optimizer.run asset.options.optimizer (asset.markup params)).map DataUri.ofMarkup

end Asset

end ThemedSvg

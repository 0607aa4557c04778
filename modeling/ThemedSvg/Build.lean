/-
# Building assets

Markup is parsed, and one walk over the document files its colors and extracts its
symbols. A symbol is written as a document of its own before the walk opens it to
themes, and that document is built in turn. It weighs less than the sheet, so the
nesting ends.
-/

import ThemedSvg.Asset
import ThemedSvg.Proofs.SpriteWeight

namespace ThemedSvg

/-- What the walk over a document gathers. -/
structure Gathered where
  catalog : Catalog
  sprites : List (String × Asset)

namespace Gathered

def empty : Gathered := ⟨Catalog.empty, []⟩

end Gathered

/-- Adds the sprite of a symbol to those before it. It is only asked for symbols that
are known to be `Allowed`. -/
abbrev Extraction (Allowed : Element → Prop) :=
  (symbol : Element) → Allowed symbol → List (String × Asset) →
    Except ParseFault (List (String × Asset))

variable {Allowed : Element → Prop}

mutual

/-- Walks over an element: a symbol is extracted as it stands, then the colors of the
element are filed, and then its children are visited. -/
def Element.visit (extract : Extraction Allowed) (gathered : Gathered) (parent : String) :
    (element : Element) → (∀ symbol ∈ element.symbols, Allowed symbol) →
      Except ParseFault (Gathered × Element)
  | ⟨name, attributes, children⟩, allowed => do
      let path := Element.pathBelow parent ⟨name, attributes, []⟩
      let sprites ←
        if isSymbol : name = Sprite.tag then
          extract ⟨name, attributes, children⟩
            (allowed _ (List.mem_append_left _ (by simp [isSymbol]))) gathered.sprites
        else pure gathered.sprites
      let (catalog, head) := gathered.catalog.record ⟨name, attributes, []⟩ path
      let (gathered, children) ← Node.visitAll extract ⟨catalog, sprites⟩ path children
        fun symbol member => allowed symbol (List.mem_append_right _ member)
      return (gathered, { head with children })

/-- Walks over a child. -/
def Node.visit (extract : Extraction Allowed) (gathered : Gathered) (parent : String) :
    (node : Node) → (∀ symbol ∈ node.symbols, Allowed symbol) →
      Except ParseFault (Gathered × Node)
  | .element child, allowed => do
      let (gathered, child) ← child.visit extract gathered parent allowed
      return (gathered, .element child)
  | node, _ => return (gathered, node)

/-- Walks over several children. -/
def Node.visitAll (extract : Extraction Allowed) (gathered : Gathered) (parent : String) :
    (children : List Node) → (∀ symbol ∈ Node.symbolsOf children, Allowed symbol) →
      Except ParseFault (Gathered × List Node)
  | [], _ => return (gathered, [])
  | child :: rest, allowed => do
      let (gathered, child) ← child.visit extract gathered parent
        fun symbol member => allowed symbol (List.mem_append_left _ member)
      let (gathered, rest) ← Node.visitAll extract gathered parent rest
        fun symbol member => allowed symbol (List.mem_append_right _ member)
      return (gathered, child :: rest)

end

namespace Asset

/-- Builds the asset of markup. -/
def build (source : Source) (options : AssetOptions) (markup : String) :
    Except ParseFault Asset :=
  match _parsed : Markup.parse markup with
  | .error fault => .error fault
  | .ok root => do
      let extract : Extraction (· ∈ root.symbols) := fun symbol _isSymbol sprites => do
        let id := Sprite.id symbol sprites.length
        let document := (Sprite.standalone symbol root.attributeMap).serialize
        let sprite ← build (.sprite id) options.forSprites document
        return Keyed.insert id sprite sprites
      let (gathered, annotated) ← root.visit extract Gathered.empty "" fun _ member => member
      return assemble source options root annotated gathered.catalog gathered.sprites
termination_by Markup.weight markup.toList
decreasing_by exact Sprite.weight_serialize_lt _parsed _isSymbol

/-- The asset of markup from no file. -/
def ofMarkup (markup : String) (options : AssetOptions) : Except ParseFault Asset :=
  build .inline options markup

end Asset

end ThemedSvg

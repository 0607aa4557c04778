/-
# The walk as two passes

Building walks over a document once and does two things on the way that have nothing
to do with each other: it files colors and it extracts symbols. This module separates
them. The colors are filed as if there were no symbols, and the symbols are extracted
as the source has them, in document order.
-/

import ThemedSvg.Build
import ThemedSvg.Proofs.Outcomes

namespace ThemedSvg

variable {Allowed : Element → Prop}

/-- What the walk leaves behind when it ends with these sprites. -/
def Element.visited (catalog : Catalog) (parent : String) (element : Element)
    (sprites : List (String × Asset)) : Gathered × Element :=
  let (catalog, annotated) := element.annotate catalog parent
  (⟨catalog, sprites⟩, annotated)

def Node.visited (catalog : Catalog) (parent : String) (node : Node)
    (sprites : List (String × Asset)) : Gathered × Node :=
  let (catalog, annotated) := node.annotate catalog parent
  (⟨catalog, sprites⟩, annotated)

def Node.visitedAll (catalog : Catalog) (parent : String) (children : List Node)
    (sprites : List (String × Asset)) : Gathered × List Node :=
  let (catalog, annotated) := Node.annotateAll catalog parent children
  (⟨catalog, sprites⟩, annotated)

section

variable (extract : Element → List (String × Asset) → Except ParseFault (List (String × Asset)))

mutual

/-- The walk files the colors and extracts the symbols, independently of each other. -/
theorem Element.visit_eq (gathered : Gathered) (parent : String) :
    (element : Element) → (allowed : ∀ symbol ∈ element.symbols, Allowed symbol) →
      element.visit (fun symbol _ sprites => extract symbol sprites) gathered parent allowed =
        (element.symbols.foldlM (fun sprites symbol => extract symbol sprites)
          gathered.sprites).map (element.visited gathered.catalog parent)
  | ⟨name, attributes, children⟩, allowed => by
      have behind (sprites : List (String × Asset)) :=
        Node.visitAll_eq
          ⟨(gathered.catalog.record ⟨name, attributes, []⟩
            (Element.pathBelow parent ⟨name, attributes, []⟩)).1, sprites⟩
          (Element.pathBelow parent ⟨name, attributes, []⟩) children
          fun symbol member => allowed symbol (List.mem_append_right _ member)
      rw [Element.visit, Element.symbols]
      by_cases isSymbol : name = Sprite.tag
      · rw [dif_pos isSymbol, if_pos isSymbol, List.singleton_append, List.foldlM_cons]
        cases extract ⟨name, attributes, children⟩ gathered.sprites with
        | error fault => rfl
        | ok sprites =>
            simp only [ok_bind, behind]
            cases (Node.symbolsOf children).foldlM
              (fun sprites symbol => extract symbol sprites) sprites <;> rfl
      · rw [dif_neg isSymbol, if_neg isSymbol, List.nil_append, pure_bind]
        simp only [behind]
        cases (Node.symbolsOf children).foldlM
          (fun sprites symbol => extract symbol sprites) gathered.sprites <;> rfl

theorem Node.visit_eq (gathered : Gathered) (parent : String) :
    (node : Node) → (allowed : ∀ symbol ∈ node.symbols, Allowed symbol) →
      node.visit (fun symbol _ sprites => extract symbol sprites) gathered parent allowed =
        (node.symbols.foldlM (fun sprites symbol => extract symbol sprites)
          gathered.sprites).map (node.visited gathered.catalog parent)
  | .element child, allowed => by
      rw [Node.visit, Element.visit_eq gathered parent child allowed, Node.symbols]
      cases child.symbols.foldlM (fun sprites symbol => extract symbol sprites)
        gathered.sprites <;> rfl
  | .text content, _ => rfl
  | .cdata content, _ => rfl
  | .comment content, _ => rfl

theorem Node.visitAll_eq (gathered : Gathered) (parent : String) :
    (children : List Node) → (allowed : ∀ symbol ∈ Node.symbolsOf children, Allowed symbol) →
      Node.visitAll (fun symbol _ sprites => extract symbol sprites) gathered parent children
          allowed =
        ((Node.symbolsOf children).foldlM (fun sprites symbol => extract symbol sprites)
          gathered.sprites).map (Node.visitedAll gathered.catalog parent children)
  | [], _ => rfl
  | child :: rest, allowed => by
      rw [Node.visitAll, Node.visit_eq gathered parent child, Node.symbolsOf,
        List.foldlM_append]
      cases child.symbols.foldlM (fun sprites symbol => extract symbol sprites)
        gathered.sprites with
      | error fault => rfl
      | ok sprites =>
          simp only [Except.map, ok_bind, Node.visited]
          rw [Node.visitAll_eq _ parent rest]
          cases (Node.symbolsOf rest).foldlM
            (fun sprites symbol => extract symbol sprites) sprites <;> rfl

end

end

namespace Asset

/-- Builds the sprite of a symbol and adds it to those before it. -/
def addSprite (options : AssetOptions) (entries : AttributeMap)
    (sprites : List (String × Asset)) (symbol : Element) :
    Except ParseFault (List (String × Asset)) := do
  let id := Sprite.id symbol sprites.length
  let sprite ← build (.sprite id) options.forSprites (Sprite.standalone symbol entries).serialize
  return Keyed.insert id sprite sprites

/-- The asset of a document with these sprites. -/
def withSprites (source : Source) (options : AssetOptions) (root : Element)
    (sprites : List (String × Asset)) : Asset :=
  let (catalog, annotated) := root.annotate Catalog.empty ""
  assemble source options root annotated catalog sprites

/-- Building builds the sprites of the symbols as written, and files the colors. -/
theorem build_eq (source : Source) (options : AssetOptions) (markup : String) :
    build source options markup =
      Markup.parse markup >>= fun root =>
        (root.symbols.foldlM (addSprite options root.attributeMap) []).map
          (withSprites source options root) := by
  rw [build]
  split
  · next fault parsed => rw [parsed, error_bind]
  · next root parsed =>
      rw [parsed, ok_bind]
      have walked : root.visit
          (fun symbol _ sprites => addSprite options root.attributeMap sprites symbol)
          Gathered.empty "" (fun _ (member : _ ∈ root.symbols) => member) =
            (root.symbols.foldlM (addSprite options root.attributeMap) []).map
              (root.visited Catalog.empty "") :=
        Element.visit_eq (fun symbol sprites => addSprite options root.attributeMap sprites symbol)
          Gathered.empty "" root fun _ member => member
      change root.visit
          (fun symbol _ sprites => addSprite options root.attributeMap sprites symbol)
          Gathered.empty "" _ >>= _ = _
      rw [walked]
      cases root.symbols.foldlM (addSprite options root.attributeMap) [] <;> rfl

end Asset

end ThemedSvg

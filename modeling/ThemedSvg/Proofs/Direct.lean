/-
# Sprites without markup

A sprite is built from markup that is written for its symbol and parsed again. This
module says what that detour comes to: nothing. The sprite is the asset that the walk,
the hooks and the compiler would make of the symbol's document as a tree, at any depth
of nesting, and the document is taken from the source, not from the sheet under
construction.
-/

import ThemedSvg.Proofs.JoinedAssets
import ThemedSvg.Proofs.Standalone
import ThemedSvg.Proofs.Walk

namespace ThemedSvg

namespace Asset

/-- The asset of a document as a tree. Its sprites are made from the documents of its
symbols in the same way, and no markup is written or read. -/
def direct (source : Source) (options : AssetOptions) (root : Element) : Asset :=
  withSprites source options root
    (root.symbols.attach.foldl
      (fun sprites symbol =>
        let id := Sprite.id symbol.1 sprites.length
        let document := Sprite.standalone symbol.1 root.attributeMap
        Keyed.insert id (direct (.sprite id) options.forSprites document) sprites)
      [])
termination_by root.symbols.length
decreasing_by exact Element.length_symbols_standalone_lt symbol.2 _

/-- Adds the sprite of a symbol without a detour over markup. -/
def addDirect (options : AssetOptions) (entries : AttributeMap)
    (sprites : List (String × Asset)) (symbol : Element) : List (String × Asset) :=
  let id := Sprite.id symbol sprites.length
  Keyed.insert id (direct (.sprite id) options.forSprites (Sprite.standalone symbol entries))
    sprites

theorem direct_eq (source : Source) (options : AssetOptions) (root : Element) :
    direct source options root =
      withSprites source options root
        (root.symbols.foldl (addDirect options root.attributeMap) []) := by
  rw [direct]
  exact congrArg _ (List.foldl_attach (f := addDirect options root.attributeMap))

/-- The catalog of an asset is that of the walk over its document. -/
theorem catalog_direct (source : Source) (options : AssetOptions) (root : Element) :
    (direct source options root).catalog = (root.annotate Catalog.empty "").1 := by
  rw [direct_eq]
  rfl

theorem withSprites_merged (source : Source) (options : AssetOptions) (root : Element)
    (sprites : List (String × Asset)) :
    withSprites source options root.merged sprites =
      withSprites source options root sprites := by
  unfold withSprites
  dsimp only
  rw [Element.annotate_merged]
  dsimp only
  rw [assemble, assemble, Element.attributeMap_merged, hooked_merged, Template.compile_merged]

/-- Joined texts do not show in an asset, nor in its sprites. -/
theorem direct_merged (source : Source) (options : AssetOptions) (root : Element) :
    direct source options root.merged = direct source options root := by
  induction count : root.symbols.length using Nat.strongRecOn generalizing source options root with
  | _ count ih =>
      rw [direct_eq, direct_eq, withSprites_merged, Element.symbols_merged,
        Element.attributeMap_merged, List.foldl_map]
      congr 1
      apply List.foldl_ext
      intro sprites symbol member
      rw [addDirect, addDirect, Sprite.id_merged, Sprite.standalone_merged, ih _ ?_ _ _ _ rfl]
      rw [← count]
      exact Element.length_symbols_standalone_lt member _

/-- Building a document from its markup makes what can be made of it directly. -/
theorem build_eq_ok_direct {root : Element} (source : Source) (options : AssetOptions)
    {markup : String} (isSource : root.IsSource) (parsed : Markup.parse markup = .ok root) :
    build source options markup = .ok (direct source options root) := by
  induction count : root.symbols.length using Nat.strongRecOn
    generalizing source options root markup with
  | _ count ih =>
      have added (sprites : List (String × Asset)) :
          ∀ symbol ∈ root.symbols, addSprite options root.attributeMap sprites symbol =
            .ok (addDirect options root.attributeMap sprites symbol) := by
        intro symbol member
        have isSource' := isSource.standalone (Element.mem_elements_of_mem_symbols member)
        have fewer := Element.length_symbols_standalone_lt member root.attributeMap
        have built := ih _ ?_ (.sprite (Sprite.id symbol sprites.length)) options.forSprites
          isSource'.merged (Markup.parse_serialize_of_isSource isSource') rfl
        · rw [addSprite, built, direct_merged]
          rfl
        · rw [Element.symbols_merged, List.length_map, ← count]
          exact fewer
      rw [build_eq, parsed, ok_bind, foldlM_eq_ok added, direct_eq]
      rfl

end Asset

end ThemedSvg

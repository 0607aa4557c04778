/-
# Joined texts in assets

Whether texts that stand side by side are one node or several makes no difference to
an asset: colors are filed, symbols extracted, hooks put on and templates compiled
alike. So a sprite may be built from its symbol or from what the symbol's markup is
parsed to.
-/

import ThemedSvg.Asset
import ThemedSvg.Proofs.Joining

namespace ThemedSvg

/-! ## Colors -/

namespace Element

theorem annotate_mk (catalog : Catalog) (parent name : String) (attributes : List Attribute)
    (children : List Node) :
    annotate catalog parent ⟨name, attributes, children⟩ =
      let path := pathBelow parent ⟨name, attributes, []⟩
      let filed := catalog.record ⟨name, attributes, []⟩ path
      let below := Node.annotateAll filed.1 path children
      (below.1, { filed.2 with children := below.2 }) := by
  rw [annotate]

end Element

namespace Node

theorem annotateAll_cons (catalog : Catalog) (parent : String) (child : Node)
    (rest : List Node) :
    annotateAll catalog parent (child :: rest) =
      let first := child.annotate catalog parent
      let behind := annotateAll first.1 parent rest
      (behind.1, first.2 :: behind.2) := by
  rw [annotateAll]

/-- Colors are filed past texts, whether these are joined or not. -/
theorem annotateAll_joinText (catalog : Catalog) (parent : String) (node : Node)
    (rest : List Node) :
    annotateAll catalog parent (joinText node rest) =
      let first := node.annotate catalog parent
      let behind := annotateAll first.1 parent rest
      (behind.1, joinText first.2 behind.2) := by
  cases node with
  | text content =>
      cases rest with
      | nil => rfl
      | cons next tail =>
          cases next with
          | text following => rfl
          | element child => rfl
          | cdata following => rfl
          | comment following => rfl
  | element child => cases rest <;> rfl
  | cdata content => cases rest <;> rfl
  | comment content => cases rest <;> rfl

end Node

/-- Joining texts does not touch the colors, and filing colors does not touch the texts. -/
theorem Element.annotate_merged (catalog : Catalog) (parent : String) (root : Element) :
    root.merged.annotate catalog parent =
      ((root.annotate catalog parent).1, (root.annotate catalog parent).2.merged) := by
  induction root generalizing catalog parent with
  | element name attributes children ih =>
      have nodes (catalog : Catalog) (path : String) :
          Node.annotateAll catalog path (Node.mergedAll children) =
            ((Node.annotateAll catalog path children).1,
              Node.mergedAll (Node.annotateAll catalog path children).2) := by
        induction children generalizing catalog with
        | nil => rfl
        | cons child rest ih' =>
            have head : child.merged.annotate catalog path =
                ((child.annotate catalog path).1, (child.annotate catalog path).2.merged) := by
              cases child with
              | element child =>
                  rw [Node.merged, Node.annotate, ih child List.mem_cons_self]
                  rfl
              | text content => rfl
              | cdata content => rfl
              | comment content => rfl
            rw [Node.mergedAll, Node.annotateAll_joinText, head, Node.annotateAll_cons]
            dsimp only
            rw [ih' fun child member => ih child (List.mem_cons_of_mem _ member)]
            rfl
      rw [merged, annotate_mk, annotate_mk]
      dsimp only
      rw [nodes, merged]

/-! ## Symbols -/

namespace Element

/-- Joining texts keeps the elements of a tree, in their order. -/
theorem elements_merged (root : Element) : root.merged.elements = root.elements.map merged := by
  induction root with
  | element name attributes children ih =>
      have nodes : (Node.mergedAll children).flatMap Node.elements =
          (children.flatMap Node.elements).map merged := by
        rw [List.map_flatMap]
        apply Node.flatMap_mergedAll
        · intro first second
          rfl
        · intro child member
          cases child with
          | element child => exact ih child member
          | text content => rfl
          | cdata content => rfl
          | comment content => rfl
      rw [merged, elements_mk, elements_mk, nodes, List.map_cons, merged]

/-- A tree has the symbols that it had, each with its texts joined. -/
theorem symbols_merged (root : Element) : root.merged.symbols = root.symbols.map merged := by
  rw [symbols_eq_filter, symbols_eq_filter, elements_merged, List.filter_map]
  apply congrArg (List.map merged)
  apply List.filter_congr
  intro element _
  simp

theorem attributeMap_merged (root : Element) : root.merged.attributeMap = root.attributeMap := by
  rw [attributeMap, attributeMap, merged_attributes]

theorem literal?_merged (root : Element) (name : String) :
    root.merged.literal? name = root.literal? name := by
  rw [literal?, literal?, merged_attributes]

theorem hasAttribute_merged (root : Element) (name : String) :
    root.merged.hasAttribute name = root.hasAttribute name := by
  rw [hasAttribute, hasAttribute, merged_attributes]

theorem setAttribute_merged (root : Element) (name : String) (value : AttributeValue) :
    root.merged.setAttribute name value = (root.setAttribute name value).merged := by
  cases root
  rw [merged, setAttribute, setAttribute, merged]

theorem injectStyleHook_merged (root : Element) :
    root.merged.injectStyleHook = root.injectStyleHook.merged := by
  rw [injectStyleHook, injectStyleHook, literal?_merged, setAttribute_merged]

theorem injectSizeHooks_merged (root : Element) :
    root.merged.injectSizeHooks = root.injectSizeHooks.merged := by
  rw [injectSizeHooks, injectSizeHooks, hasAttribute_merged, hasAttribute_merged]
  split
  · rfl
  · rw [setAttribute_merged, setAttribute_merged]

end Element

/-- Hooks are put on attributes, so joining texts does not touch them. -/
theorem Asset.hooked_merged (catalog : Catalog) (root : Element) :
    hooked catalog root.merged = (hooked catalog root).merged := by
  rw [hooked, hooked]
  split
  · rw [Element.injectStyleHook_merged, Element.injectSizeHooks_merged]
  · rw [Element.injectSizeHooks_merged]

namespace Sprite

theorem id_merged (symbol : Element) (before : Nat) :
    id symbol.merged before = id symbol before := by
  rw [id, id, Element.literal?_merged]

theorem inherit_merged (element : Element) (entry : String × String) :
    inherit element.merged entry = (inherit element entry).merged := by
  unfold inherit
  dsimp only
  rw [Element.hasAttribute_merged]
  split
  · rfl
  · cases element
    rw [Element.merged, Element.merged]

theorem shown_merged (element : Element) : shown element.merged = (shown element).merged := by
  unfold shown
  rw [Element.literal?_merged]
  split
  · rfl
  · dsimp only
    split
    · cases element
      rw [Element.merged, Element.merged]
    · exact Element.setAttribute_merged ..

/-- A symbol stands alone alike, whether its texts are joined before or after. -/
theorem standalone_merged (symbol : Element) (entries : AttributeMap) :
    standalone symbol.merged entries = (standalone symbol entries).merged := by
  have inherited (element : Element) :
      entries.foldl inherit element.merged = (entries.foldl inherit element).merged := by
    induction entries generalizing element with
    | nil => rfl
    | cons entry rest ih => rw [List.foldl_cons, inherit_merged, ih, List.foldl_cons]
  have renamed : { symbol.merged with name := "svg" } =
      Element.merged { symbol with name := "svg" } := by
    cases symbol
    rw [Element.merged, Element.merged]
  rw [standalone, renamed, inherited, shown_merged, standalone]

end Sprite

/-! ## Templates -/

/-- Pieces that can stand for each other in a template, whatever is around them. -/
def Segment.Alike (pieces pieces' : List Segment) : Prop :=
  ∀ run behind, Segment.join run (pieces ++ behind) = Segment.join run (pieces' ++ behind)

namespace Segment.Alike

variable {pieces pieces' more more' : List Segment}

theorem refl (pieces : List Segment) : Alike pieces pieces := fun _ _ => rfl

/-- What stands in front of alike pieces does not tell them apart. -/
theorem behind (before : List Segment) (alike : Alike pieces pieces') :
    Alike (before ++ pieces) (before ++ pieces') := by
  induction before with
  | nil => exact alike
  | cons piece rest ih =>
      intro run behind
      cases piece with
      | literal text => exact ih (run ++ text) behind
      | lookup l => exact congrArg (fun tail => flush run (.lookup l :: tail)) (ih "" behind)
      | style hook => exact congrArg (fun tail => flush run (.style hook :: tail)) (ih "" behind)

theorem append (alike : Alike pieces pieces') (alike' : Alike more more') :
    Alike (pieces ++ more) (pieces' ++ more') := by
  intro run rest
  rw [List.append_assoc, alike, ← List.append_assoc]
  exact alike'.behind pieces' run rest

theorem trans (alike : Alike pieces pieces') (alike' : Alike pieces' more) :
    Alike pieces more :=
  fun run behind => (alike run behind).trans (alike' run behind)

end Segment.Alike

/-- Joined texts are written as the texts are. -/
theorem Node.alike_joinText (node : Node) (rest : List Node) :
    Segment.Alike ((joinText node rest).flatMap segments) ((node :: rest).flatMap segments) := by
  rcases joinText_cases node rest with ⟨first, second, tail, rfl, rfl, joined⟩ | ⟨joined, _⟩
  · rw [joined]
    intro run behind
    simp [segments, Segment.join, String.append_assoc]
  · rw [joined]
    exact .refl _

/-- A tree is written as it is with its texts joined. -/
theorem Element.alike_merged (root : Element) :
    Segment.Alike root.merged.segments root.segments := by
  induction root with
  | element name attributes children ih =>
      have nodes : Segment.Alike ((Node.mergedAll children).flatMap Node.segments)
          (children.flatMap Node.segments) := by
        induction children with
        | nil => exact .refl _
        | cons child rest ih' =>
            have head : Segment.Alike child.merged.segments child.segments := by
              cases child with
              | element child => exact ih child List.mem_cons_self
              | text content => exact .refl _
              | cdata content => exact .refl _
              | comment content => exact .refl _
            rw [Node.mergedAll]
            apply (Node.alike_joinText _ _).trans
            rw [List.flatMap_cons, List.flatMap_cons]
            exact head.append (ih' fun child member => ih child (List.mem_cons_of_mem _ member))
      rw [merged]
      cases children with
      | nil => exact .refl _
      | cons child rest =>
          have nonempty : Node.mergedAll (child :: rest) ≠ [] := Node.joinText_ne_nil _ _
          rw [segments_of_children name attributes nonempty,
            segments_of_children name attributes (List.cons_ne_nil child rest)]
          exact (nodes.append (.refl _)).behind _

/-- Joining texts does not show in the template. -/
theorem Template.compile_merged (root : Element) : compile root.merged = compile root := by
  have alike := root.alike_merged "" []
  rw [List.append_nil, List.append_nil] at alike
  rw [compile, compile, alike]

end ThemedSvg

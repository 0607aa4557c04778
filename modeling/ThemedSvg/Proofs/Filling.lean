/-
# Filling holes before and after compiling

A template is compiled once and filled for every rendering: literal text is escaped and
joined when the template is made, the values of holes are escaped when it is evaluated.
The holes could as well be filled in the tree, and the tree be written piece by piece.
-/

import ThemedSvg.Proofs.Readable
import ThemedSvg.Proofs.Writing

namespace ThemedSvg

/-- An attribute is written with its hole as it is with the text the hole resolves to. -/
theorem Attribute.written_resolved (params other : Params) (slot : Attribute) :
    (slot.resolved params).written other = slot.written params := rfl

theorem Attribute.literal?_resolved (params : Params) (slot : Attribute) :
    (slot.resolved params).value.literal? = some (slot.value.textUnder params) := rfl

namespace Element

theorem tagUnder_resolved (params other : Params) (name : String) (slots : List Attribute) :
    Markup.tagUnder other name (slots.map (Attribute.resolved params)) =
      Markup.tagUnder params name slots := by
  rw [Markup.tagUnder, Markup.tagUnder, List.flatMap_map,
    funext (Attribute.written_resolved params other)]

/-- Filling the holes of a tree first does not show in its markup, whatever parameters the
filled tree is written under. -/
theorem written_resolved (params other : Params) (root : Element) :
    (root.resolved params).written other = root.written params := by
  induction root with
  | element name attributes children ih =>
      have nodes : (children.map (Node.resolved params)).flatMap (Node.written other) =
          children.flatMap (Node.written params) := by
        rw [List.flatMap_map]
        apply List.flatMap_congr
        intro node member
        cases node with
        | element child => exact ih child member
        | text content => rfl
        | cdata content => rfl
        | comment content => rfl
      rw [resolved_mk]
      cases children with
      | nil =>
          rw [List.map_nil, written_of_empty, written_of_empty, tagUnder_resolved]
      | cons child rest =>
          rw [written_of_children _ _ _ (by simp), written_of_children _ _ _ (by simp), nodes,
            tagUnder_resolved]

/-- No hole is left in a tree whose holes are filled. -/
theorem each_hasLiterals_resolved (params : Params) (root : Element) :
    (root.resolved params).Each HasLiterals := by
  induction root with
  | element name attributes children ih =>
      rw [resolved_mk, each_mk]
      constructor
      · intro slot member
        obtain ⟨source, _, rfl⟩ := List.mem_map.mp member
        rw [Attribute.literal?_resolved]
        rfl
      · intro child member
        obtain ⟨node, inside, isChild⟩ := List.mem_map.mp member
        cases node with
        | element source =>
            cases isChild
            exact ih source inside
        | text content => cases isChild
        | cdata content => cases isChild
        | comment content => cases isChild

end Element

/-- Evaluating a template gives what writing the tree gives after each of its holes was
replaced by the text that it resolves to. Nothing in that tree depends on parameters. -/
theorem Template.evaluate_compile (root : Element) (params : Params) :
    (root.resolved params).Each Element.HasLiterals ∧
      ∀ other, (compile root).evaluate params =
        String.ofList ((root.resolved params).written other) := by
  refine ⟨root.each_hasLiterals_resolved params, ?_⟩
  intro other
  rw [← String.toList_inj, toList_evaluate_compile, String.toList_ofList,
    Element.written_resolved]

end ThemedSvg

/-
# Elements and those around them

The path of an occurrence is put together on the way down to its element, one label for each
element on the way. This module lists the elements of a document with the elements around
them, in document order, and says what the path is in terms of them: their labels joined by
angle brackets. Labels that say nothing leave no bracket behind as long as nothing was said
before them, so they do not count at the start of a path.
-/

import Mathlib.Data.List.Basic
import ThemedSvg.Catalog
import ThemedSvg.Proofs.Trees

namespace ThemedSvg

namespace Element

/-- What an element adds to a path: its tag with id and class. The id of an `svg` says
nothing. -/
def label (element : Element) : String :=
  let id := if element.name = "svg" then none else element.literal? "id"
  element.name ++ (id.map ("#" ++ ·)).getD ""
    ++ ((element.literal? "class").map ("." ++ ·)).getD ""

/-- Labels from the first on that says something. -/
def joinLabels (labels : List String) : String :=
  String.intercalate ">" (labels.dropWhile (· = ""))

theorem pathBelow_eq (parent : String) (element : Element) :
    pathBelow parent element = parent ++ (if parent = "" then "" else ">") ++ element.label := by
  simp only [pathBelow, label, String.append_assoc]

/-- Joined labels are empty only where none of them says anything. -/
theorem joinLabels_eq_empty_iff (labels : List String) :
    joinLabels labels = "" ↔ labels.dropWhile (· = "") = [] := by
  rw [joinLabels]
  cases rest : labels.dropWhile (· = "") with
  | nil => simp
  | cons first more =>
      have nonempty : first ≠ "" := by
        have head := List.head?_dropWhile_not (· = "") labels
        rw [rest] at head
        simpa using head
      cases more with
      | nil => simp [nonempty]
      | cons second more => simp [nonempty]

/-- The path of an element is that of its parent with its label behind it. -/
theorem pathBelow_joinLabels (labels : List String) (element : Element) :
    pathBelow (joinLabels labels) element = joinLabels (labels ++ [element.label]) := by
  rw [pathBelow_eq]
  by_cases isEmpty : joinLabels labels = ""
  · have absent := (joinLabels_eq_empty_iff labels).mp isEmpty
    rw [if_pos isEmpty, isEmpty, joinLabels, List.dropWhile_append, absent]
    by_cases isBare : element.label = ""
    · simp [isBare]
    · simp [isBare]
  · have present : labels.dropWhile (· = "") ≠ [] :=
      fun absent => isEmpty ((joinLabels_eq_empty_iff labels).mpr absent)
    rw [if_neg isEmpty, joinLabels, joinLabels, List.dropWhile_append,
      if_neg fun absent => present (List.isEmpty_iff.mp absent),
      String.intercalate_append_of_ne_nil present (List.cons_ne_nil _ _),
      String.intercalate_singleton]

end Element

/-- An element with the elements around it, the outermost first. -/
structure Lineage where
  above : List Element
  element : Element

namespace Lineage

/-- The elements from the root to the element itself. -/
def chain (lineage : Lineage) : List Element := lineage.above ++ [lineage.element]

/-- The path of the element. -/
def path (lineage : Lineage) : String := Element.joinLabels (lineage.chain.map Element.label)

end Lineage

mutual

/-- An element and all elements below it, in document order, with those around each. -/
def Element.lineages (above : List Element) : Element → List Lineage
  | ⟨name, attributes, children⟩ =>
      ⟨above, ⟨name, attributes, children⟩⟩ ::
        Node.lineagesOf (above ++ [⟨name, attributes, children⟩]) children

/-- The elements in a child. -/
def Node.lineages (above : List Element) : Node → List Lineage
  | .element child => child.lineages above
  | _ => []

/-- The elements in several children. -/
def Node.lineagesOf (above : List Element) : List Node → List Lineage
  | [] => []
  | child :: rest => child.lineages above ++ Node.lineagesOf above rest

end

theorem Element.lineages_eq_cons (root : Element) (above : List Element) :
    root.lineages above = ⟨above, root⟩ :: Node.lineagesOf (above ++ [root]) root.children := by
  cases root
  rfl

theorem Node.lineagesOf_eq_flatMap (above : List Element) (children : List Node) :
    Node.lineagesOf above children = children.flatMap (Node.lineages above) := by
  induction children with
  | nil => rfl
  | cons child rest ih => rw [Node.lineagesOf, ih, List.flatMap_cons]

/-- Each element of a document is there once, in its place. -/
theorem Element.map_element_lineages (root : Element) (above : List Element) :
    (root.lineages above).map (·.element) = root.elements := by
  induction root generalizing above with
  | element name attributes children ih =>
      rw [lineages, List.map_cons, Node.lineagesOf_eq_flatMap, List.map_flatMap, elements_mk]
      congr 1
      apply List.flatMap_congr
      intro node member
      cases node with
      | element child => exact ih child member _
      | text content => rfl
      | cdata content => rfl
      | comment content => rfl

end ThemedSvg

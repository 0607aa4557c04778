/-
# Writing trees

A template is evaluated piece by piece. Its markup is the same as what a direct
walk over the tree writes, each hole replaced by the text it resolves to. The
proofs about markup use the direct walk, which follows the tree.
-/

import ThemedSvg.Proofs.Trees
import ThemedSvg.Template.Compile

namespace ThemedSvg

/-- The text that a value has under parameters: its own, or what its hole resolves to. -/
def AttributeValue.textUnder (params : Params) : AttributeValue → String
  | literal text => text
  | lookup l => l.resolve params
  | style hook => hook.resolve params

namespace Attribute

/-- An attribute as written, with the space before it. -/
def written (params : Params) (slot : Attribute) : List Char :=
  ' ' :: (slot.name.toList ++
    '=' :: '"' :: (Markup.escape (slot.value.textUnder params).toList ++ ['"']))

/-- An attribute with its hole replaced by text. -/
def resolved (params : Params) (slot : Attribute) : Attribute :=
  text slot.name (slot.value.textUnder params)

theorem flatMap_evaluate_segments (params : Params) (slot : Attribute) :
    slot.segments.flatMap (Segment.evaluate params) = slot.written params := by
  cases slot with
  | mk name value =>
      cases value <;>
        simp [segments, written, AttributeValue.segment, AttributeValue.textUnder,
          Segment.evaluate]

end Attribute

/-- Character data as written. -/
def Markup.writtenCdata (content : String) : List Char :=
  ['<', '!', '[', 'C', 'D', 'A', 'T', 'A', '['] ++ content.toList ++ [']', ']', '>']

/-- The content of a start tag as written. -/
def Markup.tagUnder (params : Params) (name : String) (attributes : List Attribute) :
    List Char :=
  name.toList ++ attributes.flatMap (Attribute.written params)

/-- A comment as written. -/
def Markup.writtenComment (content : String) : List Char :=
  ['<', '!', '-', '-'] ++ content.toList ++ ['-', '-', '>']

mutual

/-- An element as written. One without children is an empty tag. -/
def Element.written (params : Params) : Element → List Char
  | ⟨name, attributes, children⟩ =>
      '<' :: (name.toList ++ attributes.flatMap (Attribute.written params) ++
        match children with
        | [] => ['/', '>']
        | child :: rest =>
            '>' :: (child.written params ++ Node.writtenAll params rest ++
              '<' :: '/' :: (name.toList ++ ['>'])))

/-- A child as written. -/
def Node.written (params : Params) : Node → List Char
  | .element e => e.written params
  | .text content => content.toList
  | .cdata content => Markup.writtenCdata content
  | .comment content => Markup.writtenComment content

/-- Several children as written. -/
def Node.writtenAll (params : Params) : List Node → List Char
  | [] => []
  | child :: rest => child.written params ++ Node.writtenAll params rest

end

mutual

/-- A tree with every hole replaced by text. -/
def Element.resolved (params : Params) : Element → Element
  | ⟨name, attributes, children⟩ =>
      ⟨name, attributes.map (Attribute.resolved params), Node.resolvedAll params children⟩

def Node.resolved (params : Params) : Node → Node
  | .element e => .element (e.resolved params)
  | node => node

def Node.resolvedAll (params : Params) : List Node → List Node
  | [] => []
  | child :: rest => child.resolved params :: Node.resolvedAll params rest

end

theorem Node.writtenAll_eq_flatMap (params : Params) (children : List Node) :
    Node.writtenAll params children = children.flatMap (Node.written params) := by
  induction children with
  | nil => rfl
  | cons child rest ih => rw [Node.writtenAll, ih, List.flatMap_cons]

theorem Node.resolvedAll_eq_map (params : Params) (children : List Node) :
    Node.resolvedAll params children = children.map (Node.resolved params) := by
  induction children with
  | nil => rfl
  | cons child rest ih => rw [Node.resolvedAll, ih, List.map_cons]

theorem Element.resolved_mk (params : Params) (name : String) (attributes : List Attribute)
    (children : List Node) :
    (Element.mk name attributes children).resolved params =
      ⟨name, attributes.map (Attribute.resolved params),
        children.map (Node.resolved params)⟩ := by
  rw [Element.resolved, Node.resolvedAll_eq_map]

theorem Element.written_of_empty (params : Params) (name : String)
    (attributes : List Attribute) :
    (Element.mk name attributes []).written params =
      '<' :: (Markup.tagUnder params name attributes ++ ['/', '>']) := by
  rw [Element.written, Markup.tagUnder]

theorem Element.written_of_children (params : Params) (name : String)
    (attributes : List Attribute) {children : List Node} (nonempty : children ≠ []) :
    (Element.mk name attributes children).written params =
      '<' :: (Markup.tagUnder params name attributes ++
        '>' :: (children.flatMap (Node.written params) ++
          '<' :: '/' :: (name.toList ++ ['>']))) := by
  cases children with
  | nil => exact absurd rfl nonempty
  | cons child rest =>
      rw [Element.written, Markup.tagUnder, Node.writtenAll_eq_flatMap, List.flatMap_cons]

/-- An element starts with a bracket. -/
theorem Element.exists_written (params : Params) (root : Element) :
    ∃ more, root.written params = '<' :: more := by
  obtain ⟨name, attributes, children⟩ := root
  cases children with
  | nil => exact ⟨_, written_of_empty params name attributes⟩
  | cons child rest =>
      exact ⟨_, written_of_children params name attributes (List.cons_ne_nil child rest)⟩

namespace Segment

/-- Joining neighbouring literals does not change what the pieces evaluate to. -/
theorem flatMap_evaluate_join (params : Params) (run : String) (segments : List Segment) :
    (join run segments).flatMap (evaluate params) =
      run.toList ++ segments.flatMap (evaluate params) := by
  have flushed (run : String) (rest : List Segment) :
      (flush run rest).flatMap (evaluate params) =
        run.toList ++ rest.flatMap (evaluate params) := by
    unfold flush
    split
    · next empty => simp [empty]
    · simp [evaluate]
  induction segments generalizing run with
  | nil => exact flushed run []
  | cons segment rest ih =>
      cases segment with
      | literal text => simp [join, ih, evaluate]
      | lookup l => simp [join, flushed, ih, evaluate]
      | style hook => simp [join, flushed, ih, evaluate]

end Segment

theorem Node.segmentsOf_eq_flatMap (children : List Node) :
    Node.segmentsOf children = children.flatMap Node.segments := by
  induction children with
  | nil => rfl
  | cons child rest ih => rw [Node.segmentsOf, ih, List.flatMap_cons]

theorem Element.segments_of_children (name : String) (attributes : List Attribute)
    {children : List Node} (nonempty : children ≠ []) :
    segments ⟨name, attributes, children⟩ =
      (.literal ("<" ++ name) :: attributes.flatMap Attribute.segments ++ [.literal ">"]) ++
        (children.flatMap Node.segments ++ [.literal ("</" ++ name ++ ">")]) := by
  cases children with
  | nil => exact absurd rfl nonempty
  | cons child rest =>
      rw [segments, Node.segmentsOf_eq_flatMap, List.flatMap_cons]
      simp

/-- The pieces of a child evaluate to the child as written, if those of its element do. -/
theorem Node.flatMap_evaluate_segments (params : Params) (node : Node)
    (inside : ∀ child, node = .element child →
      child.segments.flatMap (Segment.evaluate params) = child.written params) :
    node.segments.flatMap (Segment.evaluate params) = node.written params := by
  cases node with
  | element child => exact inside child rfl
  | text content => simp [Node.segments, Node.written, Segment.evaluate]
  | cdata content =>
      simp [Node.segments, Node.written, Segment.evaluate, Markup.writtenCdata]
  | comment content =>
      simp [Node.segments, Node.written, Segment.evaluate, Markup.writtenComment]

theorem Element.flatMap_evaluate_segments (params : Params) (root : Element) :
    root.segments.flatMap (Segment.evaluate params) = root.written params := by
  induction root with
  | element name attributes children ih =>
      have slots : (attributes.flatMap Attribute.segments).flatMap (Segment.evaluate params) =
          attributes.flatMap (Attribute.written params) := by
        rw [List.flatMap_assoc, funext (Attribute.flatMap_evaluate_segments params)]
      have nodes : (children.flatMap Node.segments).flatMap (Segment.evaluate params) =
          children.flatMap (Node.written params) := by
        rw [List.flatMap_assoc, List.flatMap_def, List.flatMap_def]
        apply congrArg List.flatten
        apply List.map_congr_left
        intro node member
        apply Node.flatMap_evaluate_segments
        rintro child rfl
        exact ih child member
      cases children with
      | nil =>
          rw [Element.segments, Element.written_of_empty, Markup.tagUnder,
            List.flatMap_append, List.flatMap_cons, slots]
          simp [Segment.evaluate]
      | cons child rest =>
          have nonempty := List.cons_ne_nil child rest
          rw [Element.segments_of_children name attributes nonempty,
            Element.written_of_children params name attributes nonempty, Markup.tagUnder, ← nodes]
          simp [Segment.evaluate, slots]

/-- The markup of a template is what a direct walk over its tree writes. -/
theorem Template.toList_evaluate_compile (root : Element) (params : Params) :
    ((compile root).evaluate params).toList = root.written params := by
  rw [evaluate, compile, String.toList_ofList, Segment.flatMap_evaluate_join,
    Element.flatMap_evaluate_segments]
  rfl

theorem Element.toList_serialize (root : Element) :
    root.serialize.toList = root.written Params.empty :=
  Template.toList_evaluate_compile root Params.empty

end ThemedSvg

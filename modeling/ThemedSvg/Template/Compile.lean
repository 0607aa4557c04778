/-
# Templates of trees

Compiling writes a tree as markup and leaves a hole where an attribute holds one.
The hooks put holes on the root: for its size, and for its style where a document
has no colors of its own.
-/

import ThemedSvg.Markup.Tree
import ThemedSvg.Template.Basic

namespace ThemedSvg

namespace AttributeValue

/-- A value between its quotes: escaped text, or a hole. -/
def segment : AttributeValue → Segment
  | literal text => .literal (String.ofList (Markup.escape text.toList))
  | lookup l => .lookup l
  | style hook => .style hook

end AttributeValue

namespace Attribute

/-- An attribute with the space before it. -/
def segments (slot : Attribute) : List Segment :=
  [.literal (" " ++ slot.name ++ "=\""), slot.value.segment, .literal "\""]

end Attribute

mutual

/-- The pieces of an element; one without children is written as an empty tag. -/
def Element.segments : Element → List Segment
  | ⟨name, attributes, children⟩ =>
      .literal ("<" ++ name) :: attributes.flatMap Attribute.segments ++
        match children with
        | [] => [.literal "/>"]
        | child :: rest =>
            .literal ">" :: child.segments ++ Node.segmentsOf rest ++ [.literal ("</" ++ name ++ ">")]

/-- The pieces of a child. -/
def Node.segments : Node → List Segment
  | .element e => e.segments
  | .text content => [.literal content]
  | .cdata content => [.literal ("<![CDATA[" ++ content ++ "]]>")]
  | .comment content => [.literal ("<!--" ++ content ++ "-->")]

/-- The pieces of several children. -/
def Node.segmentsOf : List Node → List Segment
  | [] => []
  | child :: rest => child.segments ++ Node.segmentsOf rest

end

namespace Template

/-- The template of a tree. -/
def compile (root : Element) : Template :=
  ⟨Segment.join "" root.segments⟩

end Template

namespace Element

/-- The markup of a tree with every hole at its fallback. -/
def serialize (root : Element) : String :=
  (Template.compile root).evaluate Params.empty

/-- The size of a root that neither its document nor a theme sizes. -/
def fullSize : String := "100%"

/-- A root dimension: its own parameter, else the common size, else all there is. -/
def sizeLookup (dimension : String) : Lookup :=
  ⟨["[" ++ dimension ++ "]", "[size]", "size"], fullSize⟩

/-- Opens height and width to themes if the root sets neither. -/
def injectSizeHooks (root : Element) : Element :=
  if root.hasAttribute "height" || root.hasAttribute "width" then root
  else
    (root.setAttribute "height" (.lookup (sizeLookup "height"))).setAttribute
      "width" (.lookup (sizeLookup "width"))

/-- Opens fill and stroke of the whole document to themes, behind its own style. -/
def injectStyleHook (root : Element) : Element :=
  root.setAttribute "style" (.style (StyleHook.on (root.literal? "style") ["fill", "stroke"]))

end Element

end ThemedSvg

/-
# Markup trees

A document is the tree of its root element. Attributes and children keep the
order in which they are written. Attribute values start as literal text; theming
replaces some of them by holes.
-/

import ThemedSvg.Template.Hole

namespace ThemedSvg

/-- What stands in an attribute's place. -/
inductive AttributeValue
  | literal (text : String)
  | lookup (lookup : Lookup)
  | style (hook : StyleHook)
  deriving DecidableEq

namespace AttributeValue

/-- The text of a value that no hole has replaced. -/
def literal? : AttributeValue → Option String
  | literal text => some text
  | _ => none

end AttributeValue

structure Attribute where
  name : String
  value : AttributeValue
  deriving DecidableEq

mutual

/-- An element with its attributes and children in document order. -/
structure Element where
  name : String
  attributes : List Attribute
  children : List Node

/-- A child of an element. Text is kept as written, entities included. -/
inductive Node
  | element (element : Element)
  | text (content : String)
  | cdata (content : String)
  | comment (content : String)

end

instance : Inhabited Element := ⟨⟨"", [], []⟩⟩

/-- The literal attributes of an element, by name. -/
abbrev AttributeMap := List (String × String)

namespace Attribute

/-- An attribute with literal text. -/
def text (name value : String) : Attribute := ⟨name, .literal value⟩

/-- Name and text of an attribute that no hole has replaced. -/
def entry? (slot : Attribute) : Option (String × String) :=
  slot.value.literal?.map (slot.name, ·)

/-- Puts a value into the first attribute of that name, or behind the last one. -/
def set (name : String) (value : AttributeValue) : List Attribute → List Attribute
  | [] => [⟨name, value⟩]
  | slot :: rest =>
      if slot.name = name then ⟨slot.name, value⟩ :: rest else slot :: set name value rest

end Attribute

namespace Node

/-- The element of an element node. -/
def element? : Node → Option Element
  | element e => some e
  | _ => none

end Node

namespace Element

/-- The text of the first attribute of that name, unless a hole has replaced it. -/
def literal? (element : Element) (name : String) : Option String :=
  (element.attributes.find? (·.name == name)).bind (·.value.literal?)

def hasAttribute (element : Element) (name : String) : Bool :=
  element.attributes.any (·.name == name)

/-- Sets an attribute in its present place, or behind the others. -/
def setAttribute (element : Element) (name : String) (value : AttributeValue) : Element :=
  { element with attributes := Attribute.set name value element.attributes }

/-- The literal attributes in document order. -/
def attributeMap (element : Element) : AttributeMap :=
  element.attributes.filterMap Attribute.entry?

def childElements (element : Element) : List Element :=
  element.children.filterMap Node.element?

end Element

end ThemedSvg

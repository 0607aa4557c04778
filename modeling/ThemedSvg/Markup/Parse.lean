/-
# Documents from events

The events of markup make a document if they form one complete element with
nothing but white space, comments and prolog around it. The tree is built on a
stack of open elements, event by event, so the first event that does not fit is
the one that is reported.
-/

import ThemedSvg.Markup.Fault
import ThemedSvg.Markup.Tree

namespace ThemedSvg.Markup

/-- An element that is still open: its children so far, the last one first. -/
structure OpenElement where
  name : String
  attributes : List Attribute
  reversed : List Node

namespace OpenElement

def add (parent : OpenElement) (child : Node) : OpenElement :=
  { parent with reversed := child :: parent.reversed }

/-- The element with the children it has got. -/
def close (parent : OpenElement) : Element :=
  ⟨parent.name, parent.attributes, parent.reversed.reverse⟩

end OpenElement

/-- A document under construction: the open elements, innermost first, and the
root, once it is closed. -/
structure Progress where
  stack : List OpenElement
  root : Option Element

namespace Progress

/-- Before the first event. -/
def start : Progress := ⟨[], none⟩

/-- Adds a node to the innermost open element, if there is one. -/
def add? (progress : Progress) (node : Node) : Option Progress :=
  match progress.stack with
  | [] => none
  | parent :: outer => some { progress with stack := parent.add node :: outer }

/-- Adds a complete element, as a child or as the root. -/
def addElement (progress : Progress) (position : Nat) (element : Element) :
    Except ParseFault Progress :=
  match progress.add? (.element element) with
  | some progress => .ok progress
  | none =>
      if progress.root.isNone then .ok { progress with root := some element }
      else .error (.malformed position .secondRoot)

/-- The element that a tag opens, with its attributes and no children. -/
def openElement (position : Nat) (content : List Char) : Except ParseFault OpenElement :=
  match attributes content with
  | .error fault => .error (.malformed position (.ofTag fault))
  | .ok pairs =>
      .ok {
        name := String.ofList (tagName content)
        attributes := pairs.map fun (key, value) =>
          Attribute.text (String.ofList key) (String.ofList value)
        reversed := [] }

/-- Takes in one event. -/
def step (progress : Progress) (placed : PlacedEvent) : Except ParseFault Progress :=
  let position := placed.start
  match placed.event with
  | .opening content =>
      if progress.root.isSome && progress.stack.isEmpty then
        .error (.malformed position .secondRoot)
      else do
        let element ← openElement position content
        return { progress with stack := element :: progress.stack }
  | .empty content => do
      let element ← openElement position content
      progress.addElement position element.close
  | .closing _ =>
      match progress.stack with
      | [] => .error (.malformed position .endWithoutStart)
      | element :: outer => { progress with stack := outer }.addElement position element.close
  | .text content =>
      match progress.add? (.text (String.ofList content)) with
      | some progress => .ok progress
      | none =>
          if Text.isBlank content then .ok progress
          else .error (.malformed position .textOutside)
  | .cdata content =>
      match progress.add? (.cdata (String.ofList content)) with
      | some progress => .ok progress
      | none => .error (.malformed position .cdataOutside)
  | .comment content => .ok ((progress.add? (.comment (String.ofList content))).getD progress)
  | .prolog => .ok progress

/-- The document, when the markup of `size` bytes has ended. -/
def finish (size : Nat) (progress : Progress) : Except ParseFault Element :=
  match progress.stack, progress.root with
  | element :: _, _ => .error (.unclosed element.name size)
  | [], none => .error .noRoot
  | [], some root => .ok root

end Progress

/-- The root element of markup. -/
def parse (markup : String) : Except ParseFault Element :=
  let (events, ending) := events markup.toList
  match events.foldlM Progress.step Progress.start with
  | .error fault => .error fault
  | .ok progress =>
      match ending with
      | .broken position fault => .error (.malformed position (.ofSyntax fault))
      | .complete => progress.finish markup.utf8ByteSize

end ThemedSvg.Markup

/-
# Documents as sequences of items

A tree can be told as a sequence: where its elements start and stop, and the texts and
comments between. Nothing is lost on the way, so two trees with the same items are the
same tree. The events of markup tell items too, and this module says which sequences of
events are content, elements and documents.
-/

import ThemedSvg.Proofs.Reading

namespace ThemedSvg

/-- What is met in a document from its start to its end. -/
inductive Item
  | start (name : String) (attributes : List Attribute)
  | stop (name : String)
  | text (content : String)
  | cdata (content : String)
  | comment (content : String)
  deriving DecidableEq

mutual

/-- The items of an element: its start, those of its children, and its stop. -/
def Element.items : Element → List Item
  | ⟨name, attributes, children⟩ =>
      .start name attributes :: (Node.itemsOf children ++ [.stop name])

/-- The items of a child. -/
def Node.items : Node → List Item
  | .element child => child.items
  | .text content => [.text content]
  | .cdata content => [.cdata content]
  | .comment content => [.comment content]

/-- The items of several children. -/
def Node.itemsOf : List Node → List Item
  | [] => []
  | child :: rest => child.items ++ Node.itemsOf rest

end

theorem Node.itemsOf_append (first second : List Node) :
    Node.itemsOf (first ++ second) = Node.itemsOf first ++ Node.itemsOf second := by
  induction first with
  | nil => rfl
  | cons child rest ih => rw [List.cons_append, Node.itemsOf, Node.itemsOf, ih, List.append_assoc]

/-- No child begins with a stop, so a stop ends the children before it. -/
theorem Node.items_ne_stop (child : Node) (name : String) (behind before : List Item) :
    child.items ++ behind ≠ .stop name :: before := by
  intro same
  cases child with
  | element child =>
      cases child
      cases same
  | text content => cases same
  | cdata content => cases same
  | comment content => cases same

mutual

/-- The items of an element end by themselves: what is behind them can be told apart. -/
theorem Element.items_append_inj {behind behind' : List Item} :
    (first second : Element) → first.items ++ behind = second.items ++ behind' →
      first = second ∧ behind = behind'
  | ⟨name, attributes, children⟩, ⟨name', attributes', children'⟩, same => by
      simp only [Element.items, List.cons_append, List.append_assoc, List.cons.injEq,
        Item.start.injEq] at same
      obtain ⟨⟨rfl, rfl⟩, same⟩ := same
      obtain ⟨rfl, stops⟩ := Node.itemsOf_append_inj children children' same
      cases stops
      exact ⟨rfl, rfl⟩

theorem Node.items_append_inj {behind behind' : List Item} :
    (first second : Node) → first.items ++ behind = second.items ++ behind' →
      first = second ∧ behind = behind'
  | .element first, .element second, same => by
      obtain ⟨rfl, rest⟩ := Element.items_append_inj first second same
      exact ⟨rfl, rest⟩
  | .text _, .text _, same | .cdata _, .cdata _, same | .comment _, .comment _, same => by
      cases same
      exact ⟨rfl, rfl⟩
  | .element ⟨_, _, _⟩, .text _, same | .element ⟨_, _, _⟩, .cdata _, same
  | .element ⟨_, _, _⟩, .comment _, same | .text _, .element ⟨_, _, _⟩, same
  | .text _, .cdata _, same | .text _, .comment _, same
  | .cdata _, .element ⟨_, _, _⟩, same | .cdata _, .text _, same
  | .cdata _, .comment _, same | .comment _, .element ⟨_, _, _⟩, same
  | .comment _, .text _, same | .comment _, .cdata _, same => by
      cases same

/-- The stop of an element ends its children. -/
theorem Node.itemsOf_append_inj {name name' : String} {behind behind' : List Item} :
    (first second : List Node) →
      Node.itemsOf first ++ .stop name :: behind = Node.itemsOf second ++ .stop name' :: behind' →
      first = second ∧ Item.stop name :: behind = Item.stop name' :: behind'
  | [], [], same => ⟨rfl, same⟩
  | [], child :: rest, same => by
      rw [Node.itemsOf, Node.itemsOf, List.append_assoc] at same
      exact absurd same.symm (child.items_ne_stop _ _ _)
  | child :: rest, [], same => by
      rw [Node.itemsOf, Node.itemsOf, List.append_assoc] at same
      exact absurd same (child.items_ne_stop _ _ _)
  | child :: rest, child' :: rest', same => by
      rw [Node.itemsOf, Node.itemsOf, List.append_assoc, List.append_assoc] at same
      obtain ⟨rfl, later⟩ := Node.items_append_inj child child' same
      obtain ⟨rfl, stops⟩ := Node.itemsOf_append_inj rest rest' later
      exact ⟨rfl, stops⟩

end

/-- A tree is told apart by its items. -/
theorem Element.items_inj {first second : Element} :
    first.items = second.items ↔ first = second := by
  constructor
  · intro same
    have whole : first.items ++ [] = second.items ++ [] := by rw [same]
    exact (Element.items_append_inj first second whole).1
  · rintro rfl
    rfl

namespace Markup

/-- The attributes that a tag's content is read as. -/
def slots (content : List Char) : List Attribute :=
  match attributes content with
  | .ok pairs => pairs.map Progress.slotOf
  | .error _ => []

namespace Event

/-- The items that an event tells. An empty tag is a start and a stop; of declarations,
instructions and document types nothing is told. -/
def items : Event → List Item
  | .opening content => [.start (String.ofList (tagName content)) (slots content)]
  | .empty content =>
      [.start (String.ofList (tagName content)) (slots content),
        .stop (String.ofList (tagName content))]
  | .closing name => [.stop (String.ofList name)]
  | .text content => [.text (String.ofList content)]
  | .cdata content => [.cdata (String.ofList content)]
  | .comment content => [.comment (String.ofList content)]
  | .prolog => []

/-- The attributes of a tag can be read, and no two have the same key. -/
def Decodes : Event → Prop
  | .opening content | .empty content =>
      ∃ pairs, attributes content = .ok pairs ∧ (pairs.map (·.1)).Nodup
  | _ => True

/-- What may stand around the root. -/
def IsOutside : Event → Prop
  | .text content => Text.isBlank content = true
  | .comment _ | .prolog => True
  | _ => False

/-- An event that is no half of a pair of tags. -/
def IsWhole : Event → Prop
  | .opening _ | .closing _ => False
  | _ => True

end Event

/-- Events between the tags of an element: each start tag has its end tag behind it, with
content between the two. -/
inductive IsContent : List Event → Prop
  | nil : IsContent []
  | whole {event : Event} {rest : List Event} : event.IsWhole → IsContent rest →
      IsContent (event :: rest)
  | paired {content : List Char} {inside rest : List Event} : IsContent inside →
      IsContent rest →
      IsContent (.opening content :: (inside ++ .closing (tagName content) :: rest))

/-- Events of one complete element. -/
inductive IsElement : List Event → Prop
  | empty (content : List Char) : IsElement [.empty content]
  | paired {content : List Char} {inside : List Event} : IsContent inside →
      IsElement (.opening content :: (inside ++ [.closing (tagName content)]))

theorem IsContent.append {first second : List Event} (isFirst : IsContent first)
    (isSecond : IsContent second) : IsContent (first ++ second) := by
  induction isFirst with
  | nil => exact isSecond
  | whole isWhole _ ih => exact .whole isWhole ih
  | @paired content inside rest isInside _ _ ih =>
      rw [List.cons_append, List.append_assoc, List.cons_append]
      exact .paired isInside ih

theorem IsElement.isContent {events : List Event} (isElement : IsElement events) :
    IsContent events := by
  cases isElement with
  | empty content => exact .whole trivial .nil
  | paired isInside => exact .paired isInside .nil

end Markup

end ThemedSvg

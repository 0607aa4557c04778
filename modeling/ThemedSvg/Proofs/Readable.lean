/-
# Trees that can be read back

A tree says more than markup can: a name could hold a space, a comment could hold its
own end, two texts could stand side by side. This module names the conditions under
which writing a tree loses nothing. Each of them is asked of every element by itself,
so they are stated for one element and lifted to the tree.
-/

import Mathlib.Data.List.Chain
import ThemedSvg.Proofs.Scanning
import ThemedSvg.Proofs.Trees

namespace ThemedSvg

namespace Node

/-- The text of a text node. -/
def text? : Node → Option String
  | text content => some content
  | _ => none

/-- The content of a node ends where its markup does. -/
def IsSound : Node → Prop
  | element _ => True
  | text content => content ≠ "" ∧ '<' ∉ content.toList
  | cdata content => ¬ Markup.HoldsTerminator ']' content.toList
  | comment content => ¬ Markup.HoldsTerminator '-' content.toList

instance : DecidablePred IsSound
  | element _ => isTrue trivial
  | text content => inferInstanceAs (Decidable (content ≠ "" ∧ '<' ∉ content.toList))
  | cdata content => inferInstanceAs (Decidable (¬ Markup.HoldsTerminator ']' content.toList))
  | comment content => inferInstanceAs (Decidable (¬ Markup.HoldsTerminator '-' content.toList))

/-- Two siblings that are not both text. -/
def IsApart (first second : Node) : Prop := first.text? = none ∨ second.text? = none

instance (first second : Node) : Decidable (IsApart first second) :=
  inferInstanceAs (Decidable (_ ∨ _))

end Node

namespace Element

/-- A condition holds of every element of a tree. -/
def Each (Holds : Element → Prop) (root : Element) : Prop :=
  ∀ element ∈ root.elements, Holds element

instance (Holds : Element → Prop) [DecidablePred Holds] (root : Element) :
    Decidable (root.Each Holds) :=
  inferInstanceAs (Decidable (∀ _ ∈ _, _))

theorem each_mk {Holds : Element → Prop} {name : String} {attributes : List Attribute}
    {children : List Node} :
    Each Holds ⟨name, attributes, children⟩ ↔
      Holds ⟨name, attributes, children⟩ ∧
        ∀ child, Node.element child ∈ children → child.Each Holds := by
  constructor
  · intro each
    exact ⟨each _ (mem_elements_self _), fun child member element inside =>
      each element (mem_elements_of_child member inside)⟩
  · rintro ⟨here, below⟩ element member
    rcases mem_elements_mk.mp member with rfl | ⟨child, isChild, inside⟩
    · exact here
    · exact below child isChild element inside

theorem Each.here {Holds : Element → Prop} {root : Element} (each : root.Each Holds) :
    Holds root :=
  each root (mem_elements_self root)

theorem Each.imp {Holds Holds' : Element → Prop} {root : Element} (each : root.Each Holds)
    (weaken : ∀ element, Holds element → Holds' element) : root.Each Holds' :=
  fun element member => weaken element (each element member)

/-- The names in the tags of an element are plain. -/
def HasPlainNames (element : Element) : Prop :=
  PlainName element.name ∧ ∀ slot ∈ element.attributes, PlainName slot.name

instance : DecidablePred HasPlainNames :=
  fun _ => inferInstanceAs (Decidable (_ ∧ _))

/-- No two attributes of an element have the same name. -/
def HasDistinctNames (element : Element) : Prop := (element.attributes.map (·.name)).Nodup

instance : DecidablePred HasDistinctNames :=
  fun _ => inferInstanceAs (Decidable (List.Nodup _))

/-- No attribute of an element holds a hole. -/
def HasLiterals (element : Element) : Prop :=
  ∀ slot ∈ element.attributes, slot.value.literal?.isSome

instance : DecidablePred HasLiterals :=
  fun _ => inferInstanceAs (Decidable (∀ _ ∈ _, _))

/-- No child of an element holds its own end. -/
def HasSoundContent (element : Element) : Prop := ∀ child ∈ element.children, child.IsSound

instance : DecidablePred HasSoundContent :=
  fun _ => inferInstanceAs (Decidable (∀ _ ∈ _, _))

/-- No two texts stand side by side in an element. -/
def HasTextsApart (element : Element) : Prop := element.children.IsChain Node.IsApart

instance : DecidablePred HasTextsApart :=
  fun _ => inferInstanceAs (Decidable (List.IsChain _ _))

/-- All names of a document are plain. -/
def Plain (root : Element) : Prop := root.Each HasPlainNames

instance : DecidablePred Plain :=
  fun _ => inferInstanceAs (Decidable (Each _ _))

/-- An element whose writing says where each of its parts ends. -/
structure IsReadable (element : Element) : Prop where
  names : element.HasPlainNames
  distinct : element.HasDistinctNames
  sound : element.HasSoundContent

def Readable (root : Element) : Prop := root.Each IsReadable

theorem readable_iff {root : Element} :
    root.Readable ↔ root.Plain ∧ root.Each HasDistinctNames ∧ root.Each HasSoundContent := by
  constructor
  · intro readable
    exact ⟨readable.imp fun _ here => here.names, readable.imp fun _ here => here.distinct,
      readable.imp fun _ here => here.sound⟩
  · rintro ⟨plain, distinct, sound⟩ element member
    exact ⟨plain element member, distinct element member, sound element member⟩

end Element

end ThemedSvg

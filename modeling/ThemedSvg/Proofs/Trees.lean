/-
# Elements of a tree

Most of what is said about a document is said about each of its elements. This
module supplies the induction over elements, the list of all elements in document
order, and with it the symbols as the elements of one name.
-/

import ThemedSvg.Sprite

namespace ThemedSvg

theorem Element.mk_eta (element : Element) :
    Element.mk element.name element.attributes element.children = element := by
  cases element
  rfl

/-- What passes from the elements among its children to an element holds of every
element. Texts and comments play no part in it. -/
@[elab_as_elim, induction_eliminator]
theorem Element.childInduction {motive : Element → Prop}
    (element : ∀ name attributes children,
      (∀ child, Node.element child ∈ children → motive child) →
        motive ⟨name, attributes, children⟩)
    (root : Element) : motive root :=
  match root with
  | ⟨name, attributes, children⟩ =>
      element name attributes children fun child _member =>
        Element.childInduction element child
termination_by root
decreasing_by
  have smaller := List.sizeOf_lt_of_mem _member
  simp only [Node.element.sizeOf_spec, Element.mk.sizeOf_spec] at smaller ⊢
  omega

mutual

/-- An element and all elements below it, in document order. -/
def Element.elements : Element → List Element
  | ⟨name, attributes, children⟩ => ⟨name, attributes, children⟩ :: Node.elementsOf children

/-- The elements in a child. -/
def Node.elements : Node → List Element
  | .element e => e.elements
  | _ => []

/-- The elements in several children. -/
def Node.elementsOf : List Node → List Element
  | [] => []
  | child :: rest => child.elements ++ Node.elementsOf rest

end

theorem Node.elementsOf_eq_flatMap (children : List Node) :
    Node.elementsOf children = children.flatMap Node.elements := by
  induction children with
  | nil => rfl
  | cons child rest ih => rw [Node.elementsOf, ih, List.flatMap_cons]

theorem Element.elements_mk (name : String) (attributes : List Attribute)
    (children : List Node) :
    (Element.mk name attributes children).elements =
      ⟨name, attributes, children⟩ :: children.flatMap Node.elements := by
  rw [Element.elements, Node.elementsOf_eq_flatMap]

/-- The elements below an element, in document order. -/
def Element.descendants (element : Element) : List Element := Node.elementsOf element.children

theorem Element.elements_eq_cons (root : Element) :
    root.elements = root :: root.descendants := by
  cases root
  rfl

/-- An element is the first of its elements. -/
theorem Element.mem_elements_self (root : Element) : root ∈ root.elements := by
  rw [elements_eq_cons]
  exact List.mem_cons_self

/-- What is below an element lies in one of its children. -/
theorem Element.mem_descendants {root inner : Element} :
    inner ∈ root.descendants ↔
      ∃ child, Node.element child ∈ root.children ∧ inner ∈ child.elements := by
  rw [descendants, Node.elementsOf_eq_flatMap, List.mem_flatMap]
  constructor
  · rintro ⟨node, member, inside⟩
    cases node with
    | element child => exact ⟨child, member, inside⟩
    | text content => simp [Node.elements] at inside
    | cdata content => simp [Node.elements] at inside
    | comment content => simp [Node.elements] at inside
  · rintro ⟨child, member, inside⟩
    exact ⟨_, member, inside⟩

/-- An element of a tree is its root or lies in a child. -/
theorem Element.mem_elements_mk {name : String} {attributes : List Attribute}
    {children : List Node} {inner : Element} :
    inner ∈ (Element.mk name attributes children).elements ↔
      inner = ⟨name, attributes, children⟩ ∨
        ∃ child, Node.element child ∈ children ∧ inner ∈ child.elements := by
  rw [elements_eq_cons, List.mem_cons, mem_descendants]

/-- The elements of a child belong to its parent. -/
theorem Element.mem_elements_of_child {name : String} {attributes : List Attribute}
    {children : List Node} {child inner : Element} (member : Node.element child ∈ children)
    (inside : inner ∈ child.elements) :
    inner ∈ (Element.mk name attributes children).elements :=
  mem_elements_mk.mpr (.inr ⟨child, member, inside⟩)

/-- The elements of a part of a tree are elements of the tree, in the same order. -/
theorem Element.elements_sublist {root inner : Element} (member : inner ∈ root.elements) :
    inner.elements.Sublist root.elements := by
  induction root with
  | element name attributes children ih =>
      rcases mem_elements_mk.mp member with rfl | ⟨child, isChild, inside⟩
      · exact List.Sublist.refl _
      · have below : child.elements.Sublist (children.flatMap Node.elements) :=
          List.sublist_flatten_of_mem (List.mem_map_of_mem isChild)
        rw [elements_mk]
        exact ((ih child isChild inside).trans below).cons _

theorem Element.mem_elements_of_mem_descendants {root inner : Element}
    (below : inner ∈ root.descendants) : inner ∈ root.elements := by
  rw [elements_eq_cons]
  exact List.mem_cons_of_mem _ below

/-- What is below an element that is below another one is below both. -/
theorem Element.mem_descendants_trans {outer middle inner : Element}
    (first : middle ∈ outer.descendants) (second : inner ∈ middle.descendants) :
    inner ∈ outer.descendants := by
  obtain ⟨child, isChild, inside⟩ := mem_descendants.mp first
  exact mem_descendants.mpr ⟨child, isChild,
    (elements_sublist inside).subset (mem_elements_of_mem_descendants second)⟩

theorem Node.symbolsOf_eq_flatMap (children : List Node) :
    Node.symbolsOf children = children.flatMap Node.symbols := by
  induction children with
  | nil => rfl
  | cons child rest ih => rw [Node.symbolsOf, ih, List.flatMap_cons]

/-- The symbols of a document are its elements of that name. -/
theorem Element.symbols_eq_filter (root : Element) :
    root.symbols = root.elements.filter (·.name == Sprite.tag) := by
  induction root with
  | element name attributes children ih =>
      have below : Node.symbolsOf children =
          (children.flatMap Node.elements).filter (·.name == Sprite.tag) := by
        rw [Node.symbolsOf_eq_flatMap, List.filter_flatMap, List.flatMap_def, List.flatMap_def]
        apply congrArg List.flatten
        apply List.map_congr_left
        intro node member
        cases node with
        | element child => exact ih child member
        | text content => rfl
        | cdata content => rfl
        | comment content => rfl
      rw [Element.symbols, below, Element.elements_mk]
      by_cases isSymbol : name = Sprite.tag
      · simp [isSymbol]
      · simp [isSymbol]

/-- The symbols in several children are the elements of that name among theirs. -/
theorem Node.symbolsOf_eq_filter (children : List Node) :
    Node.symbolsOf children = (Node.elementsOf children).filter (·.name == Sprite.tag) :=
  Element.symbols_eq_filter ⟨"", [], children⟩

theorem Element.mem_elements_of_mem_symbols {root symbol : Element}
    (member : symbol ∈ root.symbols) : symbol ∈ root.elements := by
  rw [Element.symbols_eq_filter, List.mem_filter] at member
  exact member.1

theorem Element.name_of_mem_symbols {root symbol : Element}
    (member : symbol ∈ root.symbols) : symbol.name = Sprite.tag := by
  rw [Element.symbols_eq_filter, List.mem_filter, beq_iff_eq] at member
  exact member.2

end ThemedSvg

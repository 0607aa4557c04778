/-
# Pieces of a template

A template joins neighbouring literals across the whole tree, so that its pieces do not
show where elements begin and end. What can still be told of them: a template opens with
the tag of its root, its holes are those of the tree, and around each hole stand the name
of its attribute and the quotes.
-/

import Mathlib.Data.List.Basic
import ThemedSvg.Proofs.Writing

namespace ThemedSvg

namespace Segment

variable {run : String} {before after : List Segment}

/-- Whether a piece is left to be filled. -/
def isHole : Segment → Bool
  | literal _ => false
  | _ => true

/-- A hole goes behind the text before it. -/
theorem join_hole {hole : Segment} (isHole : hole.isHole = true) (rest : List Segment) :
    join run (hole :: rest) = flush run (hole :: join "" rest) := by
  cases hole with
  | literal text => cases isHole
  | lookup l => rfl
  | style hook => rfl

theorem literal_or_isHole (segment : Segment) :
    (∃ text, segment = .literal text) ∨ segment.isHole = true := by
  cases segment with
  | literal text => exact .inl ⟨text, rfl⟩
  | lookup l => exact .inr rfl
  | style hook => exact .inr rfl

/-- Text that is there already is where the first piece begins. -/
theorem exists_join (nonempty : run ≠ "") (segments : List Segment) :
    ∃ more rest, join run segments = .literal (run ++ more) :: rest := by
  induction segments generalizing run with
  | nil => exact ⟨"", [], by rw [join, flush, if_neg nonempty, String.append_empty]⟩
  | cons segment rest ih =>
      rcases segment.literal_or_isHole with ⟨text, rfl⟩ | isHole
      · obtain ⟨more, rest', joined⟩ := @ih (run ++ text) (by simp [nonempty])
        exact ⟨text ++ more, rest', by rw [join, joined, String.append_assoc]⟩
      · exact ⟨"", _, by rw [join_hole isHole, flush, if_neg nonempty, String.append_empty]⟩

/-- Text that comes last is where the last piece ends. -/
theorem exists_join_concat (segments : List Segment) {text : String} (nonempty : text ≠ "") :
    ∃ rest more, join run (segments ++ [.literal text]) = rest ++ [.literal (more ++ text)] := by
  induction segments generalizing run with
  | nil => exact ⟨[], run, if_neg (by simp [nonempty])⟩
  | cons segment rest ih =>
      rcases segment.literal_or_isHole with ⟨text', rfl⟩ | isHole
      · exact ih
      · obtain ⟨rest', more, joined⟩ := @ih ""
        rw [List.cons_append, join_hole isHole, joined, flush]
        split
        · exact ⟨segment :: rest', more, rfl⟩
        · exact ⟨.literal run :: segment :: rest', more, rfl⟩

/-- Nothing is joined across a hole. -/
theorem join_append_hole {hole : Segment} (isHole : hole.isHole = true) :
    join run (before ++ hole :: after) = join run before ++ hole :: join "" after := by
  have flush_append (run : String) (rest : List Segment) :
      flush run (rest ++ hole :: join "" after) = flush run rest ++ hole :: join "" after := by
    rw [flush, flush]
    split <;> rfl
  induction before generalizing run with
  | nil => exact (join_hole isHole after).trans (flush_append run [])
  | cons segment rest ih =>
      rcases segment.literal_or_isHole with ⟨text, rfl⟩ | isHole'
      · exact ih
      · rw [List.cons_append, join_hole isHole', ih, join_hole isHole', ← flush_append]
        rfl

/-- Joining literals leaves the holes alone. -/
theorem filter_isHole_join (segments : List Segment) :
    (join run segments).filter isHole = segments.filter isHole := by
  have flushed (run : String) (rest : List Segment) :
      (flush run rest).filter isHole = rest.filter isHole := by
    rw [flush]
    split <;> rfl
  induction segments generalizing run with
  | nil => exact flushed run []
  | cons segment rest ih =>
      rcases segment.literal_or_isHole with ⟨text, rfl⟩ | isHole
      · exact ih
      · rw [join_hole isHole, flushed, List.filter_cons, List.filter_cons, ih]

end Segment

/-- Whether an attribute holds a hole. -/
def Attribute.isOpen (slot : Attribute) : Bool := slot.value.segment.isHole

namespace Element

/-- The attributes of a tree, in the order in which they are written. -/
def slots (root : Element) : List Attribute := root.elements.flatMap (·.attributes)

/-- The attributes of a tree that hold holes. -/
def openSlots (root : Element) : List Attribute := root.slots.filter Attribute.isOpen

end Element

/-- The attributes in a child that hold holes. -/
def Node.openSlots (node : Node) : List Attribute :=
  (node.elements.flatMap (·.attributes)).filter Attribute.isOpen

namespace Element

theorem slots_mk (name : String) (attributes : List Attribute) (children : List Node) :
    slots ⟨name, attributes, children⟩ =
      attributes ++ children.flatMap fun node => node.elements.flatMap (·.attributes) := by
  rw [slots, elements_mk, List.flatMap_cons, List.flatMap_assoc]

theorem openSlots_mk (name : String) (attributes : List Attribute) (children : List Node) :
    openSlots ⟨name, attributes, children⟩ =
      attributes.filter Attribute.isOpen ++ children.flatMap Node.openSlots := by
  rw [openSlots, slots_mk, List.filter_append, List.filter_flatMap]
  rfl

/-- The holes among the pieces of a tree are those of its attributes. -/
theorem filter_isHole_segments (root : Element) :
    root.segments.filter Segment.isHole = root.openSlots.map (·.value.segment) := by
  induction root with
  | element name attributes children ih =>
      have own : (attributes.flatMap Attribute.segments).filter Segment.isHole =
          (attributes.filter Attribute.isOpen).map (·.value.segment) := by
        induction attributes with
        | nil => rfl
        | cons slot rest ih' =>
            obtain ⟨name, value⟩ := slot
            rw [List.flatMap_cons, List.filter_append, ih', List.filter_cons]
            cases value <;> rfl
      have nodes : (children.flatMap Node.segments).filter Segment.isHole =
          (children.flatMap Node.openSlots).map (·.value.segment) := by
        rw [List.filter_flatMap, List.map_flatMap]
        apply List.flatMap_congr
        intro node member
        cases node with
        | element child => exact ih child member
        | text content => rfl
        | cdata content => rfl
        | comment content => rfl
      rw [openSlots_mk, List.map_append, ← nodes, ← own]
      cases children with
      | nil =>
          rw [segments]
          simp [Segment.isHole]
      | cons child rest =>
          rw [segments_of_children name attributes (List.cons_ne_nil child rest)]
          simp [Segment.isHole]

end Element

/-- The holes of a template are those of the attributes of its tree. -/
theorem Template.filter_isHole_compile (root : Element) :
    (compile root).segments.filter Segment.isHole = root.openSlots.map (·.value.segment) := by
  rw [compile, Segment.filter_isHole_join, Element.filter_isHole_segments]

/-! ## Where a hole is -/

/-- The attributes of an element come behind its name and before the end of its tag. -/
theorem Element.exists_segments (name : String) (attributes : List Attribute)
    (children : List Node) :
    ∃ mark ∈ ["/>", ">"], ∃ rest, segments ⟨name, attributes, children⟩ =
      .literal ("<" ++ name) ::
        (attributes.flatMap Attribute.segments ++ .literal mark :: rest) := by
  cases children with
  | nil => exact ⟨"/>", by simp, [], by rw [segments]; rfl⟩
  | cons child rest =>
      refine ⟨">", by simp,
        (child :: rest).flatMap Node.segments ++ [.literal ("</" ++ name ++ ">")], ?_⟩
      rw [segments_of_children name attributes (List.cons_ne_nil child rest)]
      simp

/-- The pieces of an attribute stand together among those of the tree. -/
theorem Element.segments_infix_of_mem_slots {root : Element} {slot : Attribute}
    (member : slot ∈ root.slots) : slot.segments <:+: root.segments := by
  induction root with
  | element name attributes children ih =>
      have inAll {items : List Attribute} (inside : slot ∈ items) :
          slot.segments <:+: items.flatMap Attribute.segments := by
        obtain ⟨front, behind, rfl⟩ := List.append_of_mem inside
        exact ⟨front.flatMap Attribute.segments, behind.flatMap Attribute.segments, by simp⟩
      rw [slots_mk, List.mem_append, List.mem_flatMap] at member
      rcases member with own | ⟨node, isChild, inside⟩
      · obtain ⟨mark, _, rest, pieces⟩ := exists_segments name attributes children
        rw [pieces]
        exact (inAll own).trans ⟨[.literal ("<" ++ name)], .literal mark :: rest, rfl⟩
      · cases node with
        | element child =>
            apply (ih child isChild inside).trans
            have nonempty : children ≠ [] := List.ne_nil_of_mem isChild
            obtain ⟨front, behind, rfl⟩ := List.append_of_mem isChild
            rw [segments_of_children name attributes nonempty, List.flatMap_append,
              List.flatMap_cons, Node.segments]
            exact ⟨(.literal ("<" ++ name) :: attributes.flatMap Attribute.segments ++
              [.literal ">"]) ++ front.flatMap Node.segments,
              behind.flatMap Node.segments ++ [.literal ("</" ++ name ++ ">")], by
                simp only [List.append_assoc]⟩
        | text content => simp [Node.elements] at inside
        | cdata content => simp [Node.elements] at inside
        | comment content => simp [Node.elements] at inside

/-- A hole stands between the name of its attribute and the closing quote. -/
theorem Template.exists_around_hole {root : Element} {slot : Attribute}
    (member : slot ∈ root.openSlots) :
    ∃ before text more after, (compile root).segments =
      before ++ .literal (text ++ (" " ++ slot.name ++ "=\"")) :: slot.value.segment ::
        .literal ("\"" ++ more) :: after := by
  obtain ⟨inside, isOpen⟩ := List.mem_filter.mp member
  obtain ⟨front, behind, pieces⟩ := Element.segments_infix_of_mem_slots inside
  obtain ⟨before, text, opened⟩ := @Segment.exists_join_concat "" front
    (" " ++ slot.name ++ "=\"") (by simp)
  obtain ⟨more, after, closed⟩ := @Segment.exists_join "\"" (by decide) behind
  refine ⟨before, text, more, after, ?_⟩
  have around : root.segments = (front ++ [.literal (" " ++ slot.name ++ "=\"")]) ++
      slot.value.segment :: .literal "\"" :: behind := by
    rw [← pieces, Attribute.segments]
    simp
  rw [compile, around, Segment.join_append_hole isOpen, opened, Segment.join]
  rw [String.empty_append, closed]
  simp

/-! ## The first piece -/

namespace Template

/-- The markup begins with a tag of this name, whatever the holes are filled with. -/
def OpensWith (name : String) (template : Template) : Prop :=
  ∃ mark ∈ [" ", "/", ">"], ∃ text rest,
    template.segments = .literal ("<" ++ name ++ mark ++ text) :: rest

/-- A template opens with the tag of its root. -/
theorem opensWith_compile (root : Element) : (compile root).OpensWith root.name := by
  have joined (mark text : String) {rest : List Segment} (isMark : mark ∈ [" ", "/", ">"])
      (pieces : root.segments = .literal ("<" ++ root.name) :: .literal (mark ++ text) :: rest) :
      (compile root).OpensWith root.name := by
    have nonempty : "<" ++ root.name ++ (mark ++ text) ≠ "" := by simp
    obtain ⟨more, rest', opened⟩ := Segment.exists_join nonempty rest
    refine ⟨mark, isMark, text ++ more, rest', ?_⟩
    rw [compile, pieces, Segment.join, Segment.join, String.empty_append, opened]
    simp only [String.append_assoc]
  obtain ⟨name, attributes, children⟩ := root
  obtain ⟨mark, isMark, rest, pieces⟩ := Element.exists_segments name attributes children
  cases attributes with
  | nil =>
      rcases List.mem_pair.mp isMark with rfl | rfl
      · exact joined "/" ">" (by simp) pieces
      · exact joined ">" "" (by simp) pieces
  | cons slot others =>
      exact joined " " (slot.name ++ "=\"") (by simp) (by
        rw [pieces, List.flatMap_cons, Attribute.segments, String.append_assoc]
        rfl)

end Template

end ThemedSvg

/-
# Text and holes in turn

The pieces of a template come from all over a tree: brackets, names, quotes, texts and holes. A
piece of text is added to the piece in front of it, if that is text as well, and no other piece
is looked at. This is enough, because a tree puts a quote behind each of its holes and a bracket
in front of everything: text and holes take turns, text comes first and last, and none of it is
empty.
-/

import Mathlib.Data.List.Chain
import ThemedSvg.Proofs.Pieces

namespace ThemedSvg

/-! ## One piece after the other -/

namespace Segment

variable {pieces holes emitted : List Segment} {hole : Segment} {text : String}

/-- Puts a piece behind the others. Text goes into the last piece, if that is text. -/
def emit (pieces : List Segment) : Segment → List Segment
  | literal text =>
      match pieces.getLast? with
      | some (literal last) => pieces.dropLast ++ [literal (last ++ text)]
      | _ => pieces ++ [literal text]
  | hole => pieces ++ [hole]

theorem emit_literal_of_literal (front : List Segment) (last text : String) :
    emit (front ++ [literal last]) (literal text) = front ++ [literal (last ++ text)] := by
  rw [emit, List.getLast?_concat, List.dropLast_concat]

theorem emit_hole (isHole : hole.isHole = true) (pieces : List Segment) :
    emit pieces hole = pieces ++ [hole] := by
  cases hole with
  | literal text => cases isHole
  | lookup l => rfl
  | style hook => rfl

theorem emit_literal_of_hole (isHole : hole.isHole = true) (pieces : List Segment)
    (text : String) : emit (pieces ++ [hole]) (literal text) = pieces ++ [hole, literal text] := by
  rw [emit, List.getLast?_concat]
  cases hole with
  | literal text => cases isHole
  | lookup l => simp
  | style hook => simp

/-- Pieces that begin and end with text, text and holes in turn, and no text empty. -/
inductive Alternates : List Segment → List Segment → Prop
  | text {text : String} (nonempty : text ≠ "") : Alternates [literal text] []
  | hole {pieces holes : List Segment} {hole : Segment} {text : String}
      (before : Alternates pieces holes) (isHole : hole.isHole = true) (nonempty : text ≠ "") :
      Alternates (pieces ++ [hole, literal text]) (holes ++ [hole])

namespace Alternates

/-- More text makes the last text longer. -/
theorem emit_text (alternates : Alternates pieces holes) (more : String) :
    Alternates (emit pieces (literal more)) holes := by
  cases alternates with
  | @text text nonempty =>
      have longer : emit [literal text] (literal more) = [literal (text ++ more)] :=
        emit_literal_of_literal [] text more
      rw [longer]
      exact .text (by simp [nonempty])
  | @hole pieces holes hole text before isHole nonempty =>
      have longer : emit (pieces ++ [hole, literal text]) (literal more) =
          pieces ++ [hole, literal (text ++ more)] := by
        simpa using emit_literal_of_literal (pieces ++ [hole]) text more
      rw [longer]
      exact .hole before isHole (by simp [nonempty])

/-- A hole begins the next turn, if there is text behind it. -/
theorem emit_hole (alternates : Alternates pieces holes) (isHole : hole.isHole = true)
    (nonempty : text ≠ "") :
    Alternates (emit (emit pieces hole) (literal text)) (holes ++ [hole]) := by
  rw [Segment.emit_hole isHole, emit_literal_of_hole isHole]
  exact .hole alternates isHole nonempty

end Alternates

/-! ## Quoted holes -/

/-- What is emitted has text behind each of its holes, and that text is not empty. -/
inductive Quoted : List Segment → Prop
  | nil : Quoted []
  | text (text : String) {rest : List Segment} (behind : Quoted rest) :
      Quoted (literal text :: rest)
  | hole {hole : Segment} {text : String} {rest : List Segment} (isHole : hole.isHole = true)
      (nonempty : text ≠ "") (behind : Quoted rest) : Quoted (hole :: literal text :: rest)

namespace Quoted

variable {more : List Segment}

theorem append (quoted : Quoted emitted) (quoted' : Quoted more) : Quoted (emitted ++ more) := by
  induction quoted with
  | nil => exact quoted'
  | text text _ ih => exact .text text ih
  | hole isHole nonempty _ ih => exact .hole isHole nonempty ih

theorem of_cons_literal (quoted : Quoted (literal text :: emitted)) : Quoted emitted := by
  cases quoted with
  | text _ behind => exact behind
  | hole isHole => cases isHole

theorem flatMap {α : Type} {items : List α} {emitted : α → List Segment}
    (each : ∀ item ∈ items, Quoted (emitted item)) : Quoted (items.flatMap emitted) := by
  induction items with
  | nil => exact .nil
  | cons item rest ih =>
      obtain ⟨first, others⟩ := List.forall_mem_cons.mp each
      exact first.append (ih others)

end Quoted

/-- Whatever is emitted with its holes quoted, the turns go on, and the holes are added in the
order in which they come. -/
theorem Alternates.foldl_emit (alternates : Alternates pieces holes) (quoted : Quoted emitted) :
    Alternates (emitted.foldl emit pieces) (holes ++ emitted.filter isHole) := by
  induction quoted generalizing pieces holes with
  | nil => rwa [List.filter_nil, List.append_nil]
  | text text _ ih => exact ih (alternates.emit_text text)
  | @hole hole text rest isHole nonempty _ ih =>
      have later := ih (alternates.emit_hole isHole nonempty)
      rw [List.append_assoc, List.singleton_append] at later
      rwa [List.filter_cons_of_pos isHole]

/-- Joining with the text in hand is the same as emitting behind that text. -/
theorem foldl_emit_eq_join (quoted : Quoted emitted) (front : List Segment) {last : String}
    (nonempty : last ≠ "") :
    emitted.foldl emit (front ++ [literal last]) = front ++ join last emitted := by
  induction quoted generalizing front last with
  | nil => rw [List.foldl_nil, join, flush, if_neg nonempty]
  | text text _ ih =>
      rw [List.foldl_cons, emit_literal_of_literal, ih front (by simp [nonempty]), join]
  | @hole hole text rest isHole nonempty' _ ih =>
      -- the hole ends the text in hand, and the quote behind it is the next text in hand
      have next := ih (front ++ [literal last, hole]) nonempty'
      rw [List.foldl_cons, List.foldl_cons, emit_hole isHole, emit_literal_of_hole isHole,
        join_hole isHole, flush, if_neg nonempty, join, String.empty_append]
      simpa using next

end Segment

/-! ## Trees -/

theorem Attribute.quoted_segments (slot : Attribute) : Segment.Quoted slot.segments := by
  obtain ⟨name, value⟩ := slot
  have quote : "\"" ≠ "" := by decide
  cases value with
  | literal text => exact .text _ (.text _ (.text _ .nil))
  | lookup l => exact .text _ (.hole rfl quote .nil)
  | style hook => exact .text _ (.hole rfl quote .nil)

/-- A tree quotes its holes. -/
theorem Element.quoted_segments (root : Element) : Segment.Quoted root.segments := by
  induction root with
  | element name attributes children ih =>
      have slots : Segment.Quoted (attributes.flatMap Attribute.segments) :=
        .flatMap fun slot _ => slot.quoted_segments
      have nodes : Segment.Quoted (children.flatMap Node.segments) := by
        apply Segment.Quoted.flatMap
        intro node member
        cases node with
        | element child => exact ih child member
        | text content => exact .text _ .nil
        | cdata content => exact .text _ .nil
        | comment content => exact .text _ .nil
      cases children with
      | nil =>
          rw [segments]
          exact .text _ (slots.append (.text _ .nil))
      | cons child rest =>
          rw [segments_of_children name attributes (List.cons_ne_nil child rest)]
          have head : Segment.Quoted
              (.literal ("<" ++ name) :: attributes.flatMap Attribute.segments ++ [.literal ">"]) :=
            .text _ (slots.append (.text _ .nil))
          exact head.append (nodes.append (.text _ .nil))

/-- A tree begins with a bracket, and quotes its holes behind it. -/
theorem Element.exists_quoted (root : Element) :
    ∃ rest, root.segments = .literal ("<" ++ root.name) :: rest ∧ Segment.Quoted rest := by
  obtain ⟨name, attributes, children⟩ := root
  obtain ⟨mark, _, rest, pieces⟩ := exists_segments name attributes children
  have quoted := quoted_segments ⟨name, attributes, children⟩
  rw [pieces] at quoted
  exact ⟨_, pieces, quoted.of_cons_literal⟩

/-- Compiling is putting the pieces of a tree one behind the other. -/
theorem Template.segments_compile (root : Element) :
    (compile root).segments = root.segments.foldl Segment.emit [] := by
  obtain ⟨rest, pieces, quoted⟩ := root.exists_quoted
  have bracket : "<" ++ root.name ≠ "" := by simp
  rw [compile, pieces, Segment.join, String.empty_append]
  exact (Segment.foldl_emit_eq_join quoted [] bracket).symm

namespace AttributeValue

/-- The hole that an attribute has in place of a text. -/
def hole? : AttributeValue → Option Segment
  | literal _ => none
  | lookup l => some (.lookup l)
  | style hook => some (.style hook)

theorem hole?_eq (value : AttributeValue) :
    value.hole? = if value.segment.isHole then some value.segment else none := by
  cases value <;> rfl

end AttributeValue

/-- The holes of a tree, element by element in document order, and in each element in the order
of its attributes. -/
def Element.holes (root : Element) : List Segment :=
  root.elements.flatMap fun element => element.attributes.filterMap (·.value.hole?)

theorem Element.filter_isHole_eq_holes (root : Element) :
    root.segments.filter Segment.isHole = root.holes := by
  have own (slots : List Attribute) : (slots.filter Attribute.isOpen).map (·.value.segment) =
      slots.filterMap (·.value.hole?) := by
    rw [← List.filterMap_eq_map, List.filterMap_filter]
    apply List.filterMap_congr
    intro slot _
    rw [AttributeValue.hole?_eq]
    rfl
  rw [filter_isHole_segments, openSlots, own, slots, List.filterMap_flatMap, holes]

theorem Template.alternates_compile (root : Element) :
    Segment.Alternates (compile root).segments root.holes := by
  obtain ⟨rest, pieces, quoted⟩ := root.exists_quoted
  have bracket : "<" ++ root.name ≠ "" := by simp
  have turns := (Segment.Alternates.text bracket).foldl_emit quoted
  rw [segments_compile, ← root.filter_isHole_eq_holes, pieces]
  exact turns

/-! ## Templates -/

namespace Template

/-- A template with these holes is in normal form: it begins and ends with text, each piece is
followed by one of the other kind, and no text is empty. -/
structure IsNormal (template : Template) (holes : List Segment) : Prop where
  first : ∃ text, template.segments.head? = some (.literal text)
  last : ∃ text, template.segments.getLast? = some (.literal text)
  turns : template.segments.IsChain fun piece next => next.isHole = !piece.isHole
  nonempty : Segment.literal "" ∉ template.segments
  inOrder : template.segments.filter Segment.isHole = holes
  length : template.segments.length = 2 * holes.length + 1

variable {template : Template} {holes : List Segment}

/-- The pieces grow by a hole and the text behind it, and stay in normal form. -/
theorem isNormal_of_alternates {pieces : List Segment}
    (alternates : Segment.Alternates pieces holes) : IsNormal ⟨pieces⟩ holes := by
  induction alternates with
  | @text text nonempty =>
      exact {
        first := ⟨text, rfl⟩
        last := ⟨text, rfl⟩
        turns := .singleton _
        nonempty := by simpa using nonempty
        inOrder := rfl
        length := rfl }
  | @hole pieces holes hole text before isHole nonempty normal =>
      obtain ⟨first, isFirst⟩ := normal.first
      obtain ⟨last, isLast⟩ := normal.last
      dsimp only at isFirst isLast
      have notText : ∀ text, Segment.literal text ≠ hole := by
        rintro text rfl
        cases isHole
      exact {
        first := ⟨first, by simp [isFirst]⟩
        last := ⟨text, by simp⟩
        turns := by
          -- the last piece so far is text, so that a hole can follow
          apply normal.turns.append
          · exact .cons_cons (by rw [isHole]; rfl) (.singleton _)
          · rw [isLast]
            simpa [Segment.isHole] using isHole
        nonempty := by
          rw [List.mem_append, not_or]
          exact ⟨normal.nonempty, by simp [notText, nonempty.symm]⟩
        inOrder := by
          rw [List.filter_append, normal.inOrder, List.filter_cons_of_pos isHole]
          rfl
        length := by
          rw [List.length_append, normal.length, List.length_append]
          simp only [List.length_cons, List.length_nil]
          omega }

/-- A single text is what is left without holes, and only then. -/
theorem IsNormal.holes_eq_nil_iff (normal : template.IsNormal holes) :
    holes = [] ↔ ∃ text, template.segments = [.literal text] := by
  have length := normal.length
  constructor
  · rintro rfl
    obtain ⟨text, isFirst⟩ := normal.first
    obtain ⟨piece, only⟩ := List.length_eq_one_iff.mp length
    rw [only, List.head?_cons, Option.some.injEq] at isFirst
    exact ⟨text, by rw [only, isFirst]⟩
  · rintro ⟨text, only⟩
    rw [only, List.length_singleton] at length
    exact List.length_eq_zero_iff.mp (by omega)

/-- Every tree is compiled to normal form, with its own holes in their order. -/
theorem isNormal_compile (root : Element) :
    (compile root).IsNormal root.holes ∧
      (root.holes = [] ↔ ∃ text, (compile root).segments = [.literal text]) :=
  have normal := isNormal_of_alternates (alternates_compile root)
  ⟨normal, normal.holes_eq_nil_iff⟩

example :
    (compile ⟨"svg", [⟨"fill", .lookup ⟨["color0"], "red"⟩⟩, .text "id" "a"], []⟩).segments =
      [.literal "<svg fill=\"", .lookup ⟨["color0"], "red"⟩, .literal "\" id=\"a\"/>"] := by
  decide +kernel

end Template

end ThemedSvg

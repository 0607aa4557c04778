/-
# Catalog and template of an asset

The walk over a document files the colors of one element after the other, and the compiler
writes the attributes of one element after the other. Both meet the same elements in the
same order. What each element adds to the catalog is what it leaves open in the template, if
not in the same order: colors are filed with fill before stroke, and attributes are written
as they stand. The hooks add the size of the root behind its own attributes.
-/

import ThemedSvg.Proofs.Lineages
import ThemedSvg.Proofs.Overrides

namespace ThemedSvg

namespace Element

/-- A paint of an element with its spelling, if that is a color. -/
def spelledColor? (element : Element) (paint : Paint) : Option (Paint × String) :=
  ((element.literal? paint.name).filter fun spelling => (Rgba.read? spelling).isSome).map
    (paint, ·)

/-- The paints of an element that are colors, fill before stroke. -/
def spelledColors (element : Element) : List (Paint × String) :=
  Paint.all.filterMap element.spelledColor?

theorem spelledColors_eq (element : Element) :
    element.spelledColors =
      (element.spelledColor? .fill).toList ++ (element.spelledColor? .stroke).toList := by
  rw [spelledColors, Paint.all]
  cases fill : element.spelledColor? .fill <;> cases stroke : element.spelledColor? .stroke <;>
    simp [fill, stroke]

end Element

/-- The occurrences that an element is filed as: one for each paint that is a color, fill
before stroke, under the path of the element and with the keys that it has as written. -/
structure Lineage.Files (lineage : Lineage) (group : List Occurrence) : Prop where
  paints : group.map (fun occurrence => (occurrence.paint, occurrence.spelling)) =
    lineage.element.spelledColors
  paths : ∀ occurrence ∈ group, occurrence.path = lineage.path
  keys : ∀ occurrence ∈ group, ∃ rank, occurrence.keys =
    lineage.element.candidateKeys occurrence.paint occurrence.number rank

/-- The occurrences of one element as its attributes stand: as they are filed, or with fill
and stroke the other way round. -/
def Turned (filed written : List Occurrence) : Prop := written = filed ∨ written = filed.reverse

theorem Turned.perm {filed written : List Occurrence} (turned : Turned filed written) :
    written.Perm filed := by
  rcases turned with rfl | rfl
  · exact .refl _
  · exact List.reverse_perm _

theorem perm_flatten {groups written : List (List Occurrence)}
    (turned : List.Forall₂ Turned groups written) : written.flatten.Perm groups.flatten := by
  induction turned with
  | nil => exact .refl _
  | cons head _ ih => exact head.perm.append ih

/-- Two things can only stand in two orders. -/
theorem eq_or_eq_reverse_of_perm {α : Type} {items others : List α} (perm : others.Perm items)
    (few : items.length ≤ 2) : others = items ∨ others = items.reverse := by
  match items, few with
  | [], _ => exact .inl perm.eq_nil
  | [first], _ => exact .inl (List.perm_singleton.mp perm)
  | [first, second], _ =>
      obtain ⟨before, behind, rfl⟩ := List.append_of_mem
        (perm.mem_iff.mpr List.mem_cons_self)
      have rest := List.perm_singleton.mp (List.perm_middle.symm.trans perm).cons_inv
      rcases List.append_eq_singleton_iff.mp rest with ⟨rfl, rfl⟩ | ⟨rfl, rfl⟩
      · exact .inl rfl
      · exact .inr rfl

/-! ## One element -/

namespace Catalog

variable {catalog : Catalog}

/-- One paint is filed as an occurrence if it is a color. -/
theorem InStep.exists_recordPaint (inStep : catalog.InStep) (path : String) (element : Element)
    (paint : Paint) :
    ∃ new : Option Occurrence,
      (Catalog.recordPaint path (catalog, element) paint).1.occurrences =
        catalog.occurrences ++ new.toList ∧
      new.map (fun occurrence => (occurrence.paint, occurrence.spelling)) =
        element.spelledColor? paint ∧
      ∀ occurrence ∈ new, occurrence.path = path ∧ ∃ rank, occurrence.keys =
        element.candidateKeys occurrence.paint occurrence.number rank := by
  cases isPaint : element.paint? paint with
  | none =>
      refine ⟨none, ?_, ?_, by simp⟩
      · rw [recordPaint_of_none isPaint, Option.toList_none, List.append_nil]
      · rw [Element.paint?, Option.bind_eq_none_iff] at isPaint
        rw [Element.spelledColor?, Option.map_none, eq_comm, Option.map_eq_none_iff,
          Option.filter_eq_none_iff]
        intro spelling spelled
        rw [isPaint spelling spelled]
        exact Bool.false_ne_true
  | some color =>
      obtain ⟨spelling, spelled, isColor⟩ := Option.bind_eq_some_iff.mp isPaint
      obtain ⟨entry, _, _, recorded⟩ := recordPaint_of_some inStep.lists spelled isColor path
      rw [recorded]
      refine ⟨some (catalog.occurrenceOf element paint path spelling color
        ((catalog.colors ++ [color.canonical]).eraseDups.idxOf color.canonical)), ?_, ?_, ?_⟩
      · rw [add, occurrences_intern, Option.toList_some]
      · rw [Element.spelledColor?, spelled, Option.filter_some, isColor]
        rfl
      · rintro occurrence ⟨⟩
        exact ⟨rfl, _, rfl⟩

/-- An element is filed as what it is as written: that its fill was opened before hides
neither its stroke nor its keys. -/
theorem InStep.exists_record (inStep : catalog.InStep) (element : Element) (path : String) :
    ∃ group, (catalog.record element path).1.occurrences = catalog.occurrences ++ group ∧
      group.map (fun occurrence => (occurrence.paint, occurrence.spelling)) =
        element.spelledColors ∧
      ∀ occurrence ∈ group, occurrence.path = path ∧ ∃ rank, occurrence.keys =
        element.candidateKeys occurrence.paint occurrence.number rank := by
  obtain ⟨fill, filled, isFill, ofFill⟩ := inStep.exists_recordPaint path element .fill
  obtain ⟨stroke, stroked, isStroke, ofStroke⟩ :=
    (inStep.recordPaint path element .fill).exists_recordPaint path
      (Catalog.recordPaint path (catalog, element) .fill).2 .stroke
  have kept (paint : Paint) (number rank : Nat) :
      (Catalog.recordPaint path (catalog, element) .fill).2.candidateKeys paint number rank =
        element.candidateKeys paint number rank := by
    rcases recordPaint_snd path element .fill with same | ⟨value, same⟩
    · rw [same]
    · rw [same, Element.candidateKeys_eq, Element.candidateKeys_eq,
        Element.themeKeys_setAttribute]
  have isStroke' : stroke.map (fun occurrence => (occurrence.paint, occurrence.spelling)) =
      element.spelledColor? .stroke := by
    rw [isStroke, Element.spelledColor?, Element.spelledColor?]
    rcases recordPaint_snd path element .fill with same | ⟨value, same⟩
    · rw [same]
    · rw [same, Element.literal?_setAttribute_of_ne (by decide)]
  refine ⟨fill.toList ++ stroke.toList, ?_, ?_, ?_⟩
  · exact stroked.trans (by rw [filled, List.append_assoc])
  · rw [Element.spelledColors_eq, ← isFill, ← isStroke', List.map_append, Option.toList_map,
      Option.toList_map]
  · intro occurrence member
    rcases List.mem_append.mp member with member | member
    · exact ofFill occurrence (Option.mem_toList.mp member)
    · obtain ⟨isPath, rank, keys⟩ := ofStroke occurrence (Option.mem_toList.mp member)
      exact ⟨isPath, rank, keys.trans (kept _ _ _)⟩

/-- What an element leaves open are its occurrences. There are two of them at most, so they
can only stand in one order or the other. -/
theorem InStep.exists_turned (inStep : catalog.InStep) (above : List Element) {name : String}
    {attributes : List Attribute} {children : List Node}
    (literals : Element.HasLiterals ⟨name, attributes, children⟩) {path : String}
    (isPath : path = Lineage.path ⟨above, ⟨name, attributes, children⟩⟩) :
    ∃ group written,
      (catalog.record ⟨name, attributes, []⟩ path).1.occurrences =
        catalog.occurrences ++ group ∧
      Lineage.Files ⟨above, ⟨name, attributes, children⟩⟩ group ∧ Turned group written ∧
      (catalog.record ⟨name, attributes, []⟩ path).2.attributes.filter Attribute.isOpen =
        written.map Occurrence.slot := by
  obtain ⟨group, added, paints, each⟩ := inStep.exists_record ⟨name, attributes, []⟩ path
  obtain ⟨new, added', opened⟩ := inStep.opens_record ⟨name, attributes, []⟩ path
  obtain rfl : new = group := List.append_cancel_left (added'.symm.trans added)
  have closed : attributes.filter Attribute.isOpen = [] := by
    rw [List.filter_eq_nil_iff]
    intro slot member
    rw [Attribute.not_isOpen_of_literal? (literals slot member)]
    exact Bool.false_ne_true
  rw [closed, List.nil_append] at opened
  have few : (new.map Occurrence.slot).length ≤ 2 := by
    have count := congrArg List.length paints
    rw [List.length_map, Element.spelledColors_eq, List.length_append] at count
    have atMostOne (paint : Option (Paint × String)) : paint.toList.length ≤ 1 := by
      cases paint <;> simp
    have fill := atMostOne (Element.spelledColor? ⟨name, attributes, []⟩ .fill)
    have stroke := atMostOne (Element.spelledColor? ⟨name, attributes, []⟩ .stroke)
    rw [List.length_map]
    omega
  have files : Lineage.Files ⟨above, ⟨name, attributes, children⟩⟩ new :=
    ⟨paints, fun occurrence member => (each occurrence member).1.trans isPath,
      fun occurrence member => (each occurrence member).2⟩
  rcases eq_or_eq_reverse_of_perm opened few with same | same
  · exact ⟨new, new, added, files, .inl rfl, same⟩
  · exact ⟨new, new.reverse, added, files, .inr rfl, by rw [same, List.map_reverse]⟩

/-! ## The walk -/

/-- From one catalog to the other, each of some elements was filed in turn, and `slots` are
what they left open in this order. -/
def Agrees (first second : Catalog) (lineages : List Lineage) (slots : List Attribute) : Prop :=
  ∃ groups written, second.occurrences = first.occurrences ++ groups.flatten ∧
    List.Forall₂ Lineage.Files lineages groups ∧ List.Forall₂ Turned groups written ∧
    slots = written.flatten.map Occurrence.slot

section

variable {first second third : Catalog} {lineages lineages' : List Lineage}
  {slots slots' : List Attribute}

theorem Agrees.refl (catalog : Catalog) : catalog.Agrees catalog [] [] :=
  ⟨[], [], (List.append_nil _).symm, .nil, .nil, rfl⟩

theorem Agrees.append (agrees : first.Agrees second lineages slots)
    (agrees' : second.Agrees third lineages' slots') :
    first.Agrees third (lineages ++ lineages') (slots ++ slots') := by
  obtain ⟨groups, written, added, files, turned, rfl⟩ := agrees
  obtain ⟨groups', written', added', files', turned', rfl⟩ := agrees'
  refine ⟨groups ++ groups', written ++ written', ?_, List.rel_append files files',
    List.rel_append turned turned', ?_⟩
  · rw [added', added, List.flatten_append, List.append_assoc]
  · rw [List.flatten_append, List.map_append]

end

end Catalog

/-- The walk over an element files it and the elements below it one after the other. -/
def Element.AgreesInStep (root : Element) : Prop :=
  ∀ {catalog : Catalog} (above : List Element), catalog.InStep → root.Each HasLiterals →
    catalog.Agrees (root.annotate catalog (joinLabels (above.map label))).1
      (root.lineages above) (root.annotate catalog (joinLabels (above.map label))).2.openSlots

namespace Node

theorem agreesInStep_all {children : List Node} {catalog : Catalog}
    (inside : ∀ child, Node.element child ∈ children → child.AgreesInStep)
    (literals : ∀ child, Node.element child ∈ children → child.Each Element.HasLiterals)
    (above : List Element) (inStep : catalog.InStep) :
    catalog.Agrees
      (annotateAll catalog (Element.joinLabels (above.map Element.label)) children).1
      (lineagesOf above children)
      ((annotateAll catalog (Element.joinLabels (above.map Element.label)) children).2.flatMap
        openSlots) := by
  induction children generalizing catalog with
  | nil => exact .refl catalog
  | cons child rest ih =>
      have later {catalog : Catalog} := @ih catalog
        (fun source member => inside source (List.mem_cons_of_mem _ member))
        (fun source member => literals source (List.mem_cons_of_mem _ member))
      rw [annotateAll_cons, lineagesOf]
      cases child with
      | element child =>
          have head := inside child List.mem_cons_self above inStep
            (literals child List.mem_cons_self)
          have inStep' := (child.opensInStep (Element.joinLabels (above.map Element.label))
            inStep).1
          exact head.append (later inStep')
      | text content => exact later inStep
      | cdata content => exact later inStep
      | comment content => exact later inStep

end Node

namespace Element

/-- The walk over a root: its own attributes first, and then what is below it. -/
theorem agrees_root {root : Element} {catalog : Catalog}
    (inside : ∀ child, Node.element child ∈ root.children → child.AgreesInStep)
    (above : List Element) (inStep : catalog.InStep) (literals : root.Each HasLiterals) :
    let annotated := root.annotate catalog (joinLabels (above.map label))
    ∃ (middle : Catalog) (group written : List Occurrence),
      middle.occurrences = catalog.occurrences ++ group ∧
      Lineage.Files ⟨above, root⟩ group ∧ Turned group written ∧
      annotated.2.attributes.filter Attribute.isOpen = written.map Occurrence.slot ∧
      middle.Agrees annotated.1 (Node.lineagesOf (above ++ [root]) root.children)
        (annotated.2.children.flatMap Node.openSlots) := by
  obtain ⟨name, attributes, children⟩ := root
  have isPath : pathBelow (joinLabels (above.map label)) ⟨name, attributes, []⟩ =
      Lineage.path ⟨above, ⟨name, attributes, children⟩⟩ := by
    rw [pathBelow_joinLabels, Lineage.path, Lineage.chain, List.map_append]
    rfl
  obtain ⟨group, written, added, files, turned, own⟩ :=
    inStep.exists_turned above literals.here isPath
  have below := Node.agreesInStep_all inside (each_mk.mp literals).2
    (above ++ [⟨name, attributes, children⟩]) (inStep.record ⟨name, attributes, []⟩
      (pathBelow (joinLabels (above.map label)) ⟨name, attributes, []⟩))
  dsimp only
  rw [annotate_mk]
  refine ⟨_, group, written, added, files, turned, own, ?_⟩
  rw [isPath] at below ⊢
  exact below

theorem agreesInStep (root : Element) : root.AgreesInStep := by
  induction root with
  | element name attributes children ih =>
      intro catalog above inStep literals
      obtain ⟨middle, group, written, added, files, turned, own, below⟩ :=
        agrees_root ih above inStep literals
      have head : catalog.Agrees middle [⟨above, ⟨name, attributes, children⟩⟩]
          (written.map Occurrence.slot) :=
        ⟨[group], [written], by simpa using added, .cons files .nil, .cons turned .nil,
          by simp⟩
      rw [lineages_eq_cons, openSlots_eq, own]
      exact head.append below

end Element

end ThemedSvg

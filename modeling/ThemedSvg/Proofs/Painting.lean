/-
# From holes to themed paints

The walk leaves lookups where colors were. With the parameters in them they are the
paints of the themed document: the counters of the catalog run along with the numbers
and ranks that the tree determines. This module follows the walk over an element, its
children and the root with its hooks.
-/

import ThemedSvg.Asset
import ThemedSvg.Proofs.Filing
import ThemedSvg.Proofs.Serialization

namespace ThemedSvg

/-! ## Setting attributes -/

theorem Paint.name_ne {paint other : Paint} (differ : other ≠ paint) :
    other.name ≠ paint.name := by
  revert differ
  cases other <;> cases paint <;> decide

/-- Setting an attribute keeps the names, or puts the new one behind them. -/
theorem Attribute.map_name_set (name : String) (value : AttributeValue) (slots : List Attribute) :
    (Attribute.set name value slots).map (·.name) =
      if name ∈ slots.map (·.name) then slots.map (·.name)
      else slots.map (·.name) ++ [name] := by
  induction slots with
  | nil => simp [Attribute.set]
  | cons slot rest ih =>
      rw [Attribute.set]
      by_cases isNamed : slot.name = name
      · rw [if_pos isNamed]
        simp [isNamed]
      · rw [if_neg isNamed, List.map_cons, ih]
        simp only [List.map_cons, List.mem_cons, Ne.symm isNamed, false_or]
        split <;> rfl

namespace Element

theorem map_resolved_set (params : Params) (name : String) (value : AttributeValue)
    (slots : List Attribute) :
    (Attribute.set name value slots).map (Attribute.resolved params) =
      Attribute.set name (.literal (value.textUnder params))
        (slots.map (Attribute.resolved params)) := by
  induction slots with
  | nil => rfl
  | cons slot rest ih =>
      rw [Attribute.set, List.map_cons, Attribute.set]
      by_cases isNamed : slot.name = name
      · rw [if_pos isNamed, if_pos (show (slot.resolved params).name = name from isNamed)]
        rfl
      · rw [if_neg isNamed, if_neg (show ¬ (slot.resolved params).name = name from isNamed),
          List.map_cons, ih]

/-- Filling a hole that was put in sets the text it resolves to. -/
theorem resolved_setAttribute (params : Params) (element : Element) (name : String)
    (value : AttributeValue) :
    (element.setAttribute name value).resolved params =
      (element.resolved params).setAttribute name (.literal (value.textUnder params)) := by
  obtain ⟨tag, attributes, children⟩ := element
  rw [setAttribute, setAttribute, resolved_mk, resolved_mk, map_resolved_set]

theorem find?_eq_none_iff {element : Element} {name : String} :
    element.attributes.find? (·.name == name) = none ↔ element.hasAttribute name = false := by
  rw [List.find?_eq_none, hasAttribute, List.any_eq_false]

theorem hasAttribute_setAttribute_of_ne {name other : String} (differ : other ≠ name)
    (element : Element) (value : AttributeValue) :
    (element.setAttribute name value).hasAttribute other = element.hasAttribute other := by
  rw [hasAttribute, hasAttribute, setAttribute]
  dsimp only
  induction element.attributes with
  | nil => simp [Attribute.set, Ne.symm differ]
  | cons slot rest ih =>
      rw [Attribute.set]
      split
      · next isNamed => simp [isNamed]
      · rw [List.any_cons, List.any_cons, ih]

theorem literal?_setAttribute_self (element : Element) (name : String) (value : AttributeValue) :
    (element.setAttribute name value).literal? name = value.literal? := by
  rw [literal?, setAttribute]
  dsimp only
  induction element.attributes with
  | nil => simp [Attribute.set]
  | cons slot rest ih =>
      rw [Attribute.set]
      split
      · next isNamed => simp [isNamed]
      · next differs =>
          rw [List.find?_cons, beq_eq_false_iff_ne.mpr differs]
          exact ih

theorem hasAttribute_setAttribute_self (element : Element) (name : String)
    (value : AttributeValue) : (element.setAttribute name value).hasAttribute name = true := by
  rw [hasAttribute, setAttribute]
  dsimp only
  induction element.attributes with
  | nil => simp [Attribute.set]
  | cons slot rest ih =>
      rw [Attribute.set]
      split
      · next isNamed => simp [isNamed]
      · rw [List.any_cons, ih, Bool.or_true]

/-- An element with some of its paints set. -/
inductive Repaints (element : Element) : Element → Prop
  | refl : Repaints element element
  | set {element' : Element} (paint : Paint) (value : AttributeValue) :
      Repaints element element' → Repaints element (element'.setAttribute paint.name value)

theorem ne_paint_of_not_mem {name : String} (notPaint : name ∉ Paint.all.map Paint.name)
    (paint : Paint) : name ≠ paint.name := by
  rintro rfl
  exact notPaint (List.mem_map_of_mem (by cases paint <;> decide))

/-- Painting touches no other attribute. -/
theorem Repaints.attribute_eq {element element' : Element} (repaints : element.Repaints element')
    {name : String} (notPaint : name ∉ Paint.all.map Paint.name) :
    element'.literal? name = element.literal? name ∧
      element'.hasAttribute name = element.hasAttribute name := by
  induction repaints with
  | refl => exact ⟨rfl, rfl⟩
  | set paint value _ ih =>
      have differ := ne_paint_of_not_mem notPaint paint
      rw [literal?_setAttribute_of_ne differ, hasAttribute_setAttribute_of_ne differ]
      exact ih

theorem Repaints.name_eq {element element' : Element} (repaints : element.Repaints element') :
    element'.name = element.name := by
  induction repaints with
  | refl => rfl
  | set paint value _ ih => exact ih

end Element

/-! ## One element -/

namespace Element

variable {element : Element} {paint other : Paint}

theorem paint?_setAttribute_of_ne (differ : other ≠ paint) (element : Element)
    (value : AttributeValue) :
    (element.setAttribute paint.name value).paint? other = element.paint? other := by
  rw [paint?, paint?, literal?_setAttribute_of_ne (Paint.name_ne differ)]

theorem themedPaint?_setAttribute_of_ne (differ : other ≠ paint) (element : Element)
    (value : AttributeValue) (theme : Theme) (colors : List String) (number : Nat) :
    (element.setAttribute paint.name value).themedPaint? theme colors number other =
      element.themedPaint? theme colors number other := by
  rw [themedPaint?, themedPaint?, literal?_setAttribute_of_ne (Paint.name_ne differ)]
  simp only [themeKeys_setAttribute]

theorem isSome_themedPaint? (theme : Theme) (colors : List String) (number : Nat)
    (element : Element) (paint : Paint) :
    (element.themedPaint? theme colors number paint).isSome = (element.paint? paint).isSome := by
  unfold themedPaint? paint?
  cases element.literal? paint.name with
  | none => rfl
  | some spelling =>
      simp only [Option.bind_some, Option.bind_eq_bind]
      cases Rgba.read? spelling <;> rfl

end Element

namespace Catalog

variable {catalog : Catalog} {seen colors : List String}

/-- Filing one paint of an element takes in its color, if it is one, and leaves behind
what becomes the themed paint. -/
theorem recordPaint_eq (files : catalog.Files seen) (element : Element) (paint : Paint)
    (ahead : seen ++ ((element.paint? paint).map Rgba.canonical).toList <+: colors)
    (path : String) :
    ∃ catalog' element', recordPaint path (catalog, element) paint = (catalog', element') ∧
      catalog'.Files (seen ++ ((element.paint? paint).map Rgba.canonical).toList) ∧
      (element' = element ∨ ∃ value, element' = element.setAttribute paint.name value) ∧
      ∀ params, element'.resolved params =
        (element.resolved params).withPaint? paint
          (element.themedPaint? params.get? colors seen.length paint) := by
  cases isPaint : element.paint? paint with
  | none =>
      refine ⟨catalog, element, recordPaint_of_none isPaint path, ?_, .inl rfl, fun params => ?_⟩
      · simpa using files
      · have none := element.isSome_themedPaint? params.get? colors seen.length paint
        rw [isPaint, Option.isSome_none, Option.isSome_eq_false_iff, Option.isNone_iff_eq_none]
          at none
        rw [none]
        rfl
  | some color =>
      obtain ⟨spelling, spelled, isColor⟩ := Option.bind_eq_some_iff.mp isPaint
      rw [isPaint] at ahead
      obtain ⟨filed, hole⟩ := files.recordPaint spelled isColor ahead path
      refine ⟨(recordPaint path (catalog, element) paint).1,
        (recordPaint path (catalog, element) paint).2, rfl, filed, .inr ⟨_, hole⟩,
        fun params => ?_⟩
      have themed : element.themedPaint? params.get? colors seen.length paint =
          some (Theme.first params.get? (element.themeKeys paint seen.length
            (colors.eraseDups.idxOf color.canonical)) spelling) := by
        unfold Element.themedPaint?
        rw [spelled]
        simp only [Option.bind_eq_bind, Option.bind_some, isColor]
        rfl
      rw [hole, Element.resolved_setAttribute, themed]
      rfl

theorem repaints_recordPaint {element : Element} {state : Catalog × Element}
    (repaints : element.Repaints state.2) (path : String) (paint : Paint) :
    element.Repaints (recordPaint path state paint).2 := by
  unfold recordPaint
  dsimp only
  split
  · exact repaints
  · split
    · exact repaints
    · split
      · exact repaints
      · exact .set paint _ repaints

/-- Filing sets paints and nothing else. -/
theorem repaints_record (catalog : Catalog) (element : Element) (path : String) :
    element.Repaints (catalog.record element path).2 :=
  have start : element.Repaints (catalog, element).2 := .refl
  repaints_recordPaint (repaints_recordPaint start path .fill) path .stroke

/-- Filing an element takes in its colors, and leaves behind what becomes the element
with its paints themed. -/
theorem record_eq (files : catalog.Files seen) {element : Element}
    (ahead : seen ++ element.ownColors <+: colors) (path : String) :
    (catalog.record element path).1.Files (seen ++ element.ownColors) ∧
      ∀ params, element.resolved params = element →
        (catalog.record element path).2.resolved params =
          element.repainted params.get? colors seen.length := by
  have own : element.ownColors =
      ((element.paint? .fill).map Rgba.canonical).toList ++
        ((element.paint? .stroke).map Rgba.canonical).toList := by
    rw [Element.ownColors, Paint.all]
    cases fill : element.paint? .fill <;> cases stroke : element.paint? .stroke <;>
      simp [fill, stroke]
  rw [own, ← List.append_assoc] at ahead ⊢
  obtain ⟨catalog', filled, first, files', isFilled, resolves⟩ := recordPaint_eq files element
    .fill ((List.prefix_append _ _).trans ahead) path
  have other : filled.paint? .stroke = element.paint? .stroke ∧ ∀ theme number,
      filled.themedPaint? theme colors number .stroke =
        element.themedPaint? theme colors number .stroke := by
    rcases isFilled with rfl | ⟨value, rfl⟩
    · exact ⟨rfl, fun _ _ => rfl⟩
    · exact ⟨Element.paint?_setAttribute_of_ne (by decide) element value, fun theme number =>
        Element.themedPaint?_setAttribute_of_ne (by decide) element value theme colors number⟩
  rw [← other.1] at ahead ⊢
  obtain ⟨catalog'', stroked, second, files'', isStroked, resolves'⟩ :=
    recordPaint_eq files' filled .stroke ahead path
  have recorded : catalog.record element path = (catalog'', stroked) := by
    rw [record, Paint.all, List.foldl_cons, List.foldl_cons, List.foldl_nil, first, second]
  rw [recorded]
  refine ⟨files'', ?_⟩
  intro params isLiteral
  have behind : (seen ++ ((element.paint? .fill).map Rgba.canonical).toList).length =
      if (element.themedPaint? params.get? colors seen.length .fill).isSome
        then seen.length + 1 else seen.length := by
    rw [element.isSome_themedPaint?]
    cases element.paint? .fill <;> simp
  rw [resolves', resolves, isLiteral, behind, other.2]
  rfl

end Catalog

end ThemedSvg

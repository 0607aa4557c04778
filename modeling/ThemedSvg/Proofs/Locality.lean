/-
# Recording is local

Recording an element opens those of its paints that spell a color, and changes nothing else of
it. A catalog keeps its entries and its occurrences and gets more of them behind those. In an
element that was recorded there is no color left to find, so that recording it again, under any
path and with any catalog, changes nothing at all.
-/

import ThemedSvg.Proofs.Painting
import ThemedSvg.Proofs.Recording

namespace ThemedSvg

/-! ## Attributes by their place -/

/-- Setting an attribute that is there changes the first one of its name. -/
theorem Attribute.set_eq_set {name : String} {slots : List Attribute} {place : Nat}
    (first : slots.findIdx? (·.name == name) = some place) (value : AttributeValue) :
    Attribute.set name value slots = slots.set place ⟨name, value⟩ := by
  induction slots generalizing place with
  | nil => cases first
  | cons slot rest ih =>
      rw [List.findIdx?_cons] at first
      rw [Attribute.set]
      by_cases isNamed : slot.name = name
      · rw [if_pos (beq_iff_eq.mpr isNamed)] at first
        cases first
        rw [if_pos isNamed, isNamed, List.set_cons_zero]
      · rw [if_neg (by simpa using isNamed)] at first
        obtain ⟨before, found, rfl⟩ := Option.map_eq_some_iff.mp first
        rw [if_neg isNamed, ih found, List.set_cons_succ]

namespace Element

/-- The place of the first attribute of a name. -/
def placeOf? (element : Element) (name : String) : Option Nat :=
  element.attributes.findIdx? (·.name == name)

/-- The attribute at a place is the first one of a paint, and its text spells a color. -/
def HoldsPaintAt (element : Element) (paint : Paint) (place : Nat) : Prop :=
  element.placeOf? paint.name = some place ∧
    ∃ spelling color, element.attributes[place]? = some ⟨paint.name, .literal spelling⟩ ∧
      Rgba.read? spelling = some color

/-- The attribute at a place is the first fill or the first stroke, and spells a color. -/
def HoldsColorAt (element : Element) (place : Nat) : Prop :=
  ∃ paint, element.HoldsPaintAt paint place

/-- From one element to the other the attributes at some places were given other values, and
nothing else was changed. -/
structure ChangesAt (places : Nat → Prop) (before after : Element) : Prop where
  name : after.name = before.name
  children : after.children = before.children
  names : after.attributes.map (·.name) = before.attributes.map (·.name)
  changed : ∀ place : Nat, after.attributes[place]? ≠ before.attributes[place]? ↔ places place

section

variable {element after : Element} {paint other : Paint} {place : Nat} {name : String}

theorem placeOf?_congr (names : after.attributes.map (·.name) = element.attributes.map (·.name))
    (name : String) : after.placeOf? name = element.placeOf? name := by
  have byName (slots : List Attribute) : slots.findIdx? (·.name == name) =
      (slots.map (·.name)).findIdx? (· == name) := by
    rw [List.findIdx?_map]
    rfl
  rw [placeOf?, byName, names, ← byName, placeOf?]

/-- What is found at the place of a name has that name. -/
theorem name_eq_of_placeOf? (first : element.placeOf? name = some place) :
    ∃ value, element.attributes[place]? = some ⟨name, value⟩ := by
  obtain ⟨inside, isNamed, -⟩ := List.findIdx?_eq_some_iff_getElem.mp first
  refine ⟨element.attributes[place].value, ?_⟩
  rw [List.getElem?_eq_getElem inside, ← beq_iff_eq.mp isNamed]

theorem literal?_of_placeOf? (first : element.placeOf? name = some place) :
    element.literal? name = element.attributes[place]?.bind (·.value.literal?) := by
  rw [placeOf?] at first
  rw [literal?, List.find?_eq_bind_findIdx?_getElem?, first, Option.bind_some]

theorem exists_placeOf? {spelling : String} (spelled : element.literal? name = some spelling) :
    ∃ place, element.placeOf? name = some place := by
  rw [literal?, List.find?_eq_bind_findIdx?_getElem?] at spelled
  obtain ⟨slot, found, -⟩ := Option.bind_eq_some_iff.mp spelled
  obtain ⟨place, first, -⟩ := Option.bind_eq_some_iff.mp found
  exact ⟨place, first⟩

theorem holdsPaintAt_iff :
    element.HoldsPaintAt paint place ↔
      element.placeOf? paint.name = some place ∧ (element.paint? paint).isSome := by
  apply and_congr_right
  intro first
  obtain ⟨value, found⟩ := name_eq_of_placeOf? first
  rw [Element.paint?, literal?_of_placeOf? first, found, Option.bind_some,
    Option.isSome_iff_exists]
  cases value with
  | literal spelling => simp [AttributeValue.literal?]
  | lookup l => simp [AttributeValue.literal?]
  | style hook => simp [AttributeValue.literal?]

/-- Two paints do not stand at one place. -/
theorem HoldsPaintAt.not_of_ne (differ : other ≠ paint) (holds : element.HoldsPaintAt paint place) :
    ¬ element.HoldsPaintAt other place := by
  rintro ⟨-, spelling', _, found', -⟩
  obtain ⟨-, spelling, _, found, -⟩ := holds
  rw [found, Option.some.injEq, Attribute.mk.injEq] at found'
  exact Paint.name_ne differ found'.1.symm

theorem ChangesAt.refl (element : Element) : element.ChangesAt (fun _ => False) element :=
  ⟨rfl, rfl, rfl, fun _ => iff_of_false (fun differs => differs rfl) id⟩

/-- Changes at other places come together. -/
theorem ChangesAt.trans {middle : Element} {places places' : Nat → Prop}
    (first : ChangesAt places element middle) (second : ChangesAt places' middle after)
    (apart : ∀ place, places place → ¬ places' place) :
    ChangesAt (fun place => places place ∨ places' place) element after where
  name := second.name.trans first.name
  children := second.children.trans first.children
  names := second.names.trans first.names
  changed := by
    intro place
    by_cases here : places place
    · have kept := not_not.mp (mt (second.changed place).mp (apart place here))
      rw [kept, first.changed place]
      simp [apart place here]
    · have kept := not_not.mp (mt (first.changed place).mp here)
      rw [← kept, second.changed place]
      simp [here]

/-- Setting an attribute to something else changes it where it stands. -/
theorem changesAt_setAttribute {value own : AttributeValue}
    (first : element.placeOf? name = some place)
    (found : element.attributes[place]? = some ⟨name, own⟩) (differs : value ≠ own) :
    element.ChangesAt (· = place) (element.setAttribute name value) where
  name := rfl
  children := rfl
  names := by
    have isNamed : name ∈ element.attributes.map (·.name) :=
      List.mem_map.mpr ⟨_, List.mem_of_getElem? found, rfl⟩
    exact (Attribute.map_name_set name value element.attributes).trans (if_pos isNamed)
  changed := by
    intro other
    rw [setAttribute, Attribute.set_eq_set first]
    by_cases here : other = place
    · obtain ⟨inside, -⟩ := List.getElem?_eq_some_iff.mp found
      rw [here, List.getElem?_set_self inside, found]
      simp [differs]
    · rw [List.getElem?_set_ne (Ne.symm here)]
      simp [here]

end

end Element

/-! ## What recording makes of an element -/

namespace Catalog

variable {catalog : Catalog} {seen : List String}

/-- Filing a paint changes it where it holds a color, and changes nothing else. -/
theorem Lists.changesAt_recordPaint (lists : catalog.Lists seen) (path : String)
    (element : Element) (paint : Paint) :
    element.ChangesAt (element.HoldsPaintAt paint)
      (recordPaint path (catalog, element) paint).2 := by
  have holds (place : Nat) : element.HoldsPaintAt paint place ↔
      element.placeOf? paint.name = some place ∧ (element.paint? paint).isSome :=
    Element.holdsPaintAt_iff
  cases isPaint : element.paint? paint with
  | none =>
      have nowhere : element.HoldsPaintAt paint = fun _ => False := by
        funext place
        simp [holds, isPaint]
      rw [recordPaint_of_none isPaint, nowhere]
      exact .refl element
  | some color =>
      obtain ⟨spelling, spelled, isColor⟩ := Option.bind_eq_some_iff.mp isPaint
      obtain ⟨place, first⟩ := Element.exists_placeOf? spelled
      obtain ⟨-, own, _, found, -⟩ := (holds place).mpr ⟨first, by simp [isPaint]⟩
      have here : element.HoldsPaintAt paint = (· = place) := by
        funext other
        simp [holds, isPaint, first, eq_comm]
      obtain ⟨entry, -, -, recorded⟩ := recordPaint_of_some lists spelled isColor path
      rw [recorded, here]
      exact Element.changesAt_setAttribute first found nofun

/-- A paint that was filed holds no color any more. -/
theorem Lists.paint?_recordPaint (lists : catalog.Lists seen) (path : String)
    (element : Element) (paint : Paint) :
    (recordPaint path (catalog, element) paint).2.paint? paint = none := by
  cases isPaint : element.paint? paint with
  | none =>
      rw [recordPaint_of_none isPaint]
      exact isPaint
  | some color =>
      obtain ⟨spelling, spelled, isColor⟩ := Option.bind_eq_some_iff.mp isPaint
      obtain ⟨entry, -, -, recorded⟩ := recordPaint_of_some lists spelled isColor path
      rw [recorded, Element.paint?, Element.literal?_setAttribute_self]
      rfl

/-- Filing one paint leaves the other as it is. -/
theorem paint?_recordPaint_of_ne (path : String) (element : Element) {paint other : Paint}
    (differ : other ≠ paint) :
    (recordPaint path (catalog, element) paint).2.paint? other = element.paint? other := by
  rcases recordPaint_snd path element paint with same | ⟨value, same⟩
  · rw [same]
  · rw [same, Element.paint?_setAttribute_of_ne differ]

/-- Recording changes the paints that hold a color, and changes nothing else. -/
theorem InStep.changesAt_record (inStep : catalog.InStep) (element : Element) (path : String) :
    element.ChangesAt element.HoldsColorAt (catalog.record element path).2 := by
  have fill := inStep.lists.changesAt_recordPaint path element .fill
  have stroke := (inStep.recordPaint path element .fill).lists.changesAt_recordPaint path
    (Catalog.recordPaint path (catalog, element) .fill).2 .stroke
  have kept : (Catalog.recordPaint path (catalog, element) .fill).2.HoldsPaintAt .stroke =
      element.HoldsPaintAt .stroke := by
    funext place
    rw [Element.holdsPaintAt_iff, Element.holdsPaintAt_iff, Element.placeOf?_congr fill.names,
      paint?_recordPaint_of_ne path element (by decide)]
  have both : element.HoldsColorAt =
      fun place => element.HoldsPaintAt .fill place ∨ element.HoldsPaintAt .stroke place := by
    funext place
    apply propext
    constructor
    · rintro ⟨paint, holds⟩
      cases paint
      · exact .inl holds
      · exact .inr holds
    · rintro (holds | holds)
      · exact ⟨.fill, holds⟩
      · exact ⟨.stroke, holds⟩
  rw [kept] at stroke
  rw [both]
  exact fill.trans stroke fun place holds => holds.not_of_ne (by decide)

/-- In an element that was recorded there is no color left. -/
theorem InStep.paint?_record (inStep : catalog.InStep) (element : Element) (path : String)
    (paint : Paint) : (catalog.record element path).2.paint? paint = none := by
  have filled := inStep.lists.paint?_recordPaint path element .fill
  have stroked := (inStep.recordPaint path element .fill).lists.paint?_recordPaint path
    (Catalog.recordPaint path (catalog, element) .fill).2 .stroke
  cases paint with
  | fill => exact (paint?_recordPaint_of_ne path _ (by decide)).trans filled
  | stroke => exact stroked

/-- An element without colors is nothing to any catalog. -/
theorem record_of_colorless {element : Element} (colorless : ∀ paint, element.paint? paint = none)
    (later : Catalog) (path : String) : later.record element path = (later, element) := by
  rw [record, Paint.all, List.foldl_cons, List.foldl_cons, List.foldl_nil,
    recordPaint_of_none (colorless .fill), recordPaint_of_none (colorless .stroke)]

/-! ## What recording makes of a catalog -/

/-- From one catalog to the other more was recorded: entries keep what they are, and count
more, and occurrences stay as they are. -/
structure Extends (before after : Catalog) : Prop where
  entries : ∀ (place : Nat) (entry : ColorEntry), before.entries[place]? = some entry →
    ∃ entry', after.entries[place]? = some entry' ∧ entry'.index = entry.index ∧
      entry'.key = entry.key ∧ entry'.color = entry.color ∧
      entry.selectors <+: entry'.selectors
  occurrences : before.occurrences <+: after.occurrences

theorem Extends.refl (catalog : Catalog) : catalog.Extends catalog where
  entries _ entry found := ⟨entry, found, rfl, rfl, rfl, List.prefix_rfl⟩
  occurrences := List.prefix_rfl

theorem Extends.trans {before middle after : Catalog} (first : before.Extends middle)
    (second : middle.Extends after) : before.Extends after where
  entries := by
    intro place entry found
    obtain ⟨entry', found', index, key, color, selectors⟩ := first.entries place entry found
    obtain ⟨entry'', found'', index', key', color', selectors'⟩ :=
      second.entries place entry' found'
    exact ⟨entry'', found'', index'.trans index, key'.trans key, color'.trans color,
      selectors.trans selectors'⟩
  occurrences := first.occurrences.trans second.occurrences

theorem extends_intern (catalog : Catalog) (color : Rgba) :
    catalog.Extends (catalog.intern color).1 := by
  unfold intern
  dsimp only
  split
  · exact .refl catalog
  · refine ⟨?_, List.prefix_rfl⟩
    intro place entry found
    have inside := (List.getElem?_eq_some_iff.mp found).1
    refine ⟨entry, ?_, rfl, rfl, rfl, List.prefix_rfl⟩
    rw [List.getElem?_append_left inside, found]

theorem extends_add {place : Nat} {entry : ColorEntry}
    (found : catalog.entries[place]? = some entry) (occurrence : Occurrence) :
    catalog.Extends (catalog.add place entry occurrence) where
  entries := by
    intro other entry' found'
    by_cases here : place = other
    · subst here
      cases found.symm.trans found'
      have inside := (List.getElem?_eq_some_iff.mp found).1
      refine ⟨count occurrence.selector entry, ?_, rfl, rfl, rfl, List.prefix_append _ _⟩
      rw [add, List.getElem?_set_self inside]
    · refine ⟨entry', ?_, rfl, rfl, rfl, List.prefix_rfl⟩
      rw [add, List.getElem?_set_ne here, found']
  occurrences := List.prefix_append _ _

theorem extends_recordPaint (path : String) (element : Element) (paint : Paint) :
    catalog.Extends (recordPaint path (catalog, element) paint).1 := by
  unfold recordPaint
  dsimp only
  split
  · exact .refl catalog
  · split
    · exact .refl catalog
    · next color _ =>
        split
        · exact .refl catalog
        · next found => exact (extends_intern catalog color).trans (extends_add found _)

theorem extends_record (catalog : Catalog) (element : Element) (path : String) :
    catalog.Extends (catalog.record element path).1 :=
  (extends_recordPaint path element .fill).trans (extends_recordPaint path _ .stroke)

/-- Recording an element with any catalog opens its colors and nothing else, and extends the
catalog. Recording it again, later and under any path, changes nothing. -/
theorem record_local (calls : List (Element × String)) (element : Element) (path : String) :
    element.ChangesAt element.HoldsColorAt ((recordAll calls).record element path).2 ∧
      (recordAll calls).Extends ((recordAll calls).record element path).1 ∧
      ∀ (later : Catalog) (path' : String),
        later.record ((recordAll calls).record element path).2 path' =
          (later, ((recordAll calls).record element path).2) := by
  have inStep := inStep_recordAll calls
  refine ⟨inStep.changesAt_record element path, extends_record _ element path, ?_⟩
  intro later path'
  exact record_of_colorless (inStep.paint?_record element path) later path'

end Catalog

end ThemedSvg

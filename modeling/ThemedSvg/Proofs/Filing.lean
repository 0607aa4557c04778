/-
# Filing colors

A catalog under construction stands for the colors that were met so far: it counts
them and has an entry for each distinct one, in the order of first appearance. This
module shows that filing keeps this so, and that the number and the index it gives an
occurrence are the number of colors before it and its rank.
-/

import Mathlib.Data.List.Basic
import ThemedSvg.Proofs.Theme

namespace ThemedSvg

/-- The rank of a color does not change when more colors follow. -/
theorem idxOf_eraseDups_append {color : String} {colors : List String}
    (member : color ∈ colors) (more : List String) :
    (colors ++ more).eraseDups.idxOf color = colors.eraseDups.idxOf color := by
  rw [List.eraseDups_append, List.idxOf_append, if_pos (List.mem_eraseDups.mpr member)]

/-- A color that came before does not come as a new one. -/
theorem eraseDups_concat_of_mem {color : String} {colors : List String}
    (known : color ∈ colors) : (colors ++ [color]).eraseDups = colors.eraseDups := by
  rw [List.eraseDups_append]
  simp [List.cons_removeAll, known]

theorem eraseDups_concat_of_not_mem {color : String} {colors : List String}
    (new : color ∉ colors) : (colors ++ [color]).eraseDups = colors.eraseDups ++ [color] := by
  rw [List.eraseDups_append]
  simp [List.cons_removeAll, List.eraseDups_cons, new]

namespace Catalog

/-- The entries of a catalog are those of some colors in document order, and its places
lead to them. -/
structure Lists (catalog : Catalog) (colors : List String) : Prop where
  keys : catalog.entries.map (·.key) = colors.eraseDups
  places : ∀ key, Keyed.find? key catalog.places = catalog.entries.findIdx? (·.key == key)

/-- The catalog of some colors in document order. -/
structure Files (catalog : Catalog) (colors : List String) : Prop
    extends Lists catalog colors where
  count : catalog.occurrences.length = colors.length

theorem files_empty : Files empty [] := ⟨⟨rfl, fun _ => rfl⟩, rfl⟩

theorem Files.isEmpty_iff {catalog : Catalog} {colors : List String}
    (files : catalog.Files colors) : catalog.isEmpty = true ↔ colors = [] := by
  have keys := files.keys
  rw [isEmpty, List.isEmpty_iff]
  cases colors with
  | nil =>
      rw [List.eraseDups_nil, List.map_eq_nil_iff] at keys
      simp [keys]
  | cons color rest =>
      rw [List.eraseDups_cons] at keys
      simp only [List.cons_ne_nil, iff_false]
      intro none
      rw [none] at keys
      cases keys

section

variable {catalog : Catalog} {colors : List String} {color : Rgba}

theorem Lists.length (lists : catalog.Lists colors) :
    catalog.entries.length = colors.eraseDups.length := by
  rw [← lists.keys, List.length_map]

/-- The place of a key is its rank among the distinct colors. -/
theorem Lists.place_eq (lists : catalog.Lists colors) (key : String) :
    Keyed.find? key catalog.places =
      if key ∈ colors then some (colors.eraseDups.idxOf key) else none := by
  have search : catalog.entries.findIdx? (·.key == key) = colors.eraseDups.idxOf? key := by
    rw [← lists.keys, List.idxOf?, List.findIdx?_map]
    rfl
  rw [lists.places, search]
  by_cases known : key ∈ colors
  · rw [if_pos known]
    exact List.findIdx?_eq_some_iff_findIdx_eq.mpr
      ⟨List.idxOf_lt_length_of_mem (List.mem_eraseDups.mpr known), rfl⟩
  · rw [if_neg known, List.idxOf?_eq_none_iff, List.mem_eraseDups]
    exact known

theorem Lists.intern_of_mem (lists : catalog.Lists colors) (known : color.canonical ∈ colors) :
    catalog.intern color = (catalog, colors.eraseDups.idxOf color.canonical) := by
  unfold intern
  dsimp only
  rw [lists.place_eq, if_pos known]

/-- A new color gets the entry behind the others. -/
theorem Lists.intern_of_not_mem (lists : catalog.Lists colors) (new : color.canonical ∉ colors) :
    catalog.intern color =
      (⟨catalog.entries ++ [⟨color, color.canonical, catalog.entries.length, 0, []⟩],
        Keyed.insert color.canonical catalog.entries.length catalog.places,
        catalog.occurrences⟩, catalog.entries.length) := by
  unfold intern
  dsimp only
  rw [lists.place_eq, if_neg new]

theorem occurrences_intern (catalog : Catalog) (color : Rgba) :
    (catalog.intern color).1.occurrences = catalog.occurrences := by
  unfold intern
  dsimp only
  split <;> rfl

/-- Finding the place of a color lists it, and the place is its rank. -/
theorem Lists.intern (lists : catalog.Lists colors) (color : Rgba) :
    (catalog.intern color).1.Lists (colors ++ [color.canonical]) ∧
      (catalog.intern color).2 =
        (colors ++ [color.canonical]).eraseDups.idxOf color.canonical := by
  by_cases known : color.canonical ∈ colors
  · rw [lists.intern_of_mem known, eraseDups_concat_of_mem known]
    exact ⟨⟨by rw [lists.keys, eraseDups_concat_of_mem known], lists.places⟩, rfl⟩
  · have unlisted : color.canonical ∉ colors.eraseDups :=
      fun listed => known (List.mem_eraseDups.mp listed)
    rw [lists.intern_of_not_mem known, eraseDups_concat_of_not_mem known]
    refine ⟨⟨?_, ?_⟩, ?_⟩
    · rw [List.map_append, lists.keys, eraseDups_concat_of_not_mem known]
      rfl
    · intro key
      dsimp only
      rw [List.findIdx?_append, List.findIdx?_singleton]
      by_cases same : key = color.canonical
      · subst same
        have absent : catalog.entries.findIdx? (·.key == color.canonical) = none := by
          rw [← lists.places, lists.place_eq, if_neg known]
        rw [Keyed.find?_insert_self, absent]
        simp
      · rw [Keyed.find?_insert_of_ne same, lists.places]
        simp [Ne.symm same]
    · rw [List.idxOf_append, if_neg unlisted, lists.length]
      simp

/-- The place of a color leads to its entry. -/
theorem Lists.exists_entry (lists : catalog.Lists colors) {key : String} (known : key ∈ colors) :
    ∃ entry, catalog.entries[colors.eraseDups.idxOf key]? = some entry ∧ entry.key = key := by
  have found := List.getElem?_idxOf (List.mem_eraseDups.mpr known)
  rw [← lists.keys, List.getElem?_map, Option.map_eq_some_iff] at found
  rw [← lists.keys]
  exact found

/-- Counting an occurrence leaves the list of colors alone. -/
theorem Lists.add (lists : catalog.Lists colors) {place : Nat} {entry : ColorEntry}
    (found : catalog.entries[place]? = some entry) (occurrence : Occurrence) :
    (catalog.add place entry occurrence).Lists colors := by
  have keys : (catalog.add place entry occurrence).entries.map (·.key) =
      catalog.entries.map (·.key) := by
    have inside := (List.getElem?_eq_some_iff.mp found).1
    apply List.ext_getElem?
    intro other
    rw [Catalog.add, List.getElem?_map, List.getElem?_map, List.getElem?_set, if_pos inside]
    split
    · next here =>
        rw [← here, found]
        rfl
    · rfl
  have search (entries : List ColorEntry) (key : String) :
      entries.findIdx? (·.key == key) = (entries.map (·.key)).findIdx? (· == key) := by
    rw [List.findIdx?_map]
    rfl
  refine ⟨by rw [keys, lists.keys], ?_⟩
  intro key
  rw [search, keys, ← search]
  exact lists.places key

end

end Catalog

namespace Element

theorem literal?_setAttribute_of_ne {name other : String} (differ : other ≠ name)
    (element : Element) (value : AttributeValue) :
    (element.setAttribute name value).literal? other = element.literal? other := by
  rw [literal?, literal?, setAttribute]
  dsimp only
  congr 1
  induction element.attributes with
  | nil => simp [Attribute.set, Ne.symm differ]
  | cons slot rest ih =>
      rw [Attribute.set]
      split
      · next isNamed => simp [isNamed, Ne.symm differ]
      · rw [List.find?_cons, List.find?_cons, ih]

/-- Neither the id nor the class is a paint, so no hole hides them from the keys. -/
theorem themeKeys_setAttribute (element : Element) (paint : Paint) (value : AttributeValue)
    (other : Paint) (number rank : Nat) :
    (element.setAttribute paint.name value).themeKeys other number rank =
      element.themeKeys other number rank := by
  have notId : "id" ≠ paint.name := by cases paint <;> decide
  have notClass : "class" ≠ paint.name := by cases paint <;> decide
  rw [themeKeys, themeKeys, literal?_setAttribute_of_ne notId,
    literal?_setAttribute_of_ne notClass]
  rfl

theorem candidateKeys_eq (element : Element) (paint : Paint) (number group : Nat) :
    element.candidateKeys paint number group = element.themeKeys paint number group := by
  rw [candidateKeys, themeKeys]
  cases element.literal? "id" <;> cases element.literal? "class" <;> rfl

end Element

namespace Catalog

variable {catalog : Catalog} {seen colors : List String} {element : Element} {paint : Paint}

/-- What is no color is left as it is. -/
theorem recordPaint_of_none (isNone : element.paint? paint = none) (path : String) :
    recordPaint path (catalog, element) paint = (catalog, element) := by
  unfold recordPaint
  unfold Element.paint? at isNone
  dsimp only
  cases spelled : element.literal? paint.name with
  | none => rfl
  | some spelling =>
      rw [spelled, Option.bind_some] at isNone
      dsimp only
      rw [isNone]

/-- Filing a paint leaves everything else of an element as it is. -/
theorem recordPaint_snd (path : String) (element : Element) (paint : Paint) :
    (recordPaint path (catalog, element) paint).2 = element ∨
      ∃ value, (recordPaint path (catalog, element) paint).2 =
        element.setAttribute paint.name value := by
  unfold recordPaint
  dsimp only
  split
  · exact .inl rfl
  · split
    · exact .inl rfl
    · split
      · exact .inl rfl
      · exact .inr ⟨_, rfl⟩

/-- The occurrence that a color of an element is filed as. -/
def occurrenceOf (catalog : Catalog) (element : Element) (paint : Paint) (path spelling : String)
    (color : Rgba) (rank : Nat) : Occurrence :=
  ⟨catalog.occurrences.length, paint, color.canonical, path, spelling,
    element.candidateKeys paint catalog.occurrences.length rank⟩

/-- A color is counted under its entry, and gives way to a lookup over the keys that
reach it. -/
theorem recordPaint_of_some (lists : catalog.Lists seen) {spelling : String} {color : Rgba}
    (spelled : element.literal? paint.name = some spelling)
    (isColor : Rgba.read? spelling = some color) (path : String) :
    let interned := (catalog.intern color).1
    let rank := (seen ++ [color.canonical]).eraseDups.idxOf color.canonical
    let occurrence := catalog.occurrenceOf element paint path spelling color rank
    ∃ entry, interned.entries[rank]? = some entry ∧ entry.key = color.canonical ∧
      recordPaint path (catalog, element) paint =
        (interned.add rank entry occurrence,
          element.setAttribute paint.name (.lookup occurrence.lookup)) := by
  obtain ⟨listed, place⟩ := lists.intern color
  obtain ⟨entry, found, isKey⟩ :=
    listed.exists_entry (List.mem_append_right _ (List.mem_singleton_self _))
  refine ⟨entry, found, isKey, ?_⟩
  rw [← place] at found ⊢
  unfold recordPaint occurrenceOf
  dsimp only
  rw [spelled]
  dsimp only
  rw [isColor]
  dsimp only
  rw [found]
  dsimp only
  rw [occurrences_intern, isKey]

/-- Filing a color puts it behind those that were seen before, and its keys are those that
the colors of the document say. -/
theorem Files.recordPaint (files : catalog.Files seen) {spelling : String} {color : Rgba}
    (spelled : element.literal? paint.name = some spelling)
    (isColor : Rgba.read? spelling = some color)
    (ahead : seen ++ [color.canonical] <+: colors) (path : String) :
    (recordPaint path (catalog, element) paint).1.Files (seen ++ [color.canonical]) ∧
      (recordPaint path (catalog, element) paint).2 =
        element.setAttribute paint.name (.lookup
          ⟨element.themeKeys paint seen.length (colors.eraseDups.idxOf color.canonical),
            spelling⟩) := by
  obtain ⟨entry, found, isKey, recorded⟩ := recordPaint_of_some files.toLists spelled isColor path
  obtain ⟨more, rfl⟩ := ahead
  have member : color.canonical ∈ seen ++ [color.canonical] :=
    List.mem_append_right _ (List.mem_singleton_self _)
  rw [recorded]
  refine ⟨⟨(files.intern color).1.add found _, ?_⟩, ?_⟩
  · rw [Catalog.add, occurrences_intern, List.length_append, List.length_append, files.count]
    rfl
  · dsimp only
    rw [occurrenceOf, Occurrence.lookup, files.count, Element.candidateKeys_eq,
      idxOf_eraseDups_append member]

end Catalog

end ThemedSvg

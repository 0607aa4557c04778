/-
# Catalogs under any recording

A catalog keeps each color in three ways: as an entry, as the place under its key, and as
the occurrences that spell it. This module shows that they stay in step whatever is
recorded, one element after the other, under any paths: elements with repeated attributes
and elements that were opened to themes before are recorded like any others.
-/

import Mathlib.Algebra.BigOperators.Group.List.Lemmas
import Mathlib.Algebra.GroupWithZero.Nat
import ThemedSvg.Proofs.Filing

namespace ThemedSvg

/-- Dropping repetitions leaves none. -/
theorem nodup_eraseDups (colors : List String) : colors.eraseDups.Nodup :=
  match colors with
  | [] => List.nodup_nil
  | color :: rest => by
      rw [List.eraseDups_cons, List.nodup_cons]
      exact ⟨by simp, nodup_eraseDups (rest.filter fun other => !other == color)⟩
termination_by colors.length
decreasing_by exact Nat.lt_succ_of_le (List.length_filter_le _ _)

/-- A place in a list with one more item is one of the list, or the last one. -/
theorem getElem?_concat_eq_some {α : Type} {items : List α} {last item : α} {place : Nat} :
    (items ++ [last])[place]? = some item ↔
      items[place]? = some item ∨ place = items.length ∧ item = last := by
  rw [List.getElem?_append]
  split
  · next inside =>
      refine ⟨.inl, ?_⟩
      rintro (found | ⟨behind, _⟩)
      · exact found
      · omega
  · next outside =>
      have none : items[place]? = none := List.getElem?_eq_none (by omega)
      rw [none, List.getElem?_singleton]
      by_cases isLast : place = items.length
      · simp [isLast, eq_comm]
      · simp [isLast, show place - items.length ≠ 0 by omega]

namespace Catalog

/-- The selectors of the occurrences of a color, in document order. -/
def selectorsOf (key : String) (occurrences : List Occurrence) : List String :=
  (occurrences.filter (·.color == key)).map Occurrence.selector

/-- The colors of the occurrences, in document order. -/
def colors (catalog : Catalog) : List String := catalog.occurrences.map (·.color)

/-! ## One entry, one occurrence -/

/-- An entry that stands at its place and counts the occurrences of its color. -/
structure Tallies (occurrences : List Occurrence) (place : Nat) (entry : ColorEntry) : Prop where
  index : entry.index = place
  canonical : entry.key = entry.color.canonical
  selectors : entry.selectors = selectorsOf entry.key occurrences
  count : entry.count = entry.selectors.length

/-- An occurrence that stands at its place, with the keys that its number and the rank of
its color give it. -/
structure Numbered (colors : List String) (place : Nat) (occurrence : Occurrence) : Prop where
  number : occurrence.number = place
  spelled : ∃ color, Rgba.read? occurrence.spelling = some color ∧
    color.canonical = occurrence.color
  keys : ∃ element : Element, occurrence.keys = element.candidateKeys occurrence.paint
    occurrence.number (colors.eraseDups.idxOf occurrence.color)

section

variable {occurrences : List Occurrence} {place : Nat} {entry : ColorEntry}
  {occurrence : Occurrence} {colors : List String}

theorem selectorsOf_concat (key : String) (occurrences : List Occurrence)
    (occurrence : Occurrence) :
    selectorsOf key (occurrences ++ [occurrence]) =
      selectorsOf key occurrences ++
        if occurrence.color = key then [occurrence.selector] else [] := by
  rw [selectorsOf, List.filter_append, List.map_append, List.filter_singleton, ← selectorsOf]
  by_cases isKey : occurrence.color = key
  · simp [isKey]
  · have differs : (occurrence.color == key) = false := beq_eq_false_iff_ne.mpr isKey
    simp [isKey, differs]

/-- A color without occurrences is counted by an entry that counts nothing. -/
theorem Tallies.new {color : Rgba} (new : color.canonical ∉ occurrences.map (·.color))
    (place : Nat) : Tallies occurrences place ⟨color, color.canonical, place, 0, []⟩ where
  index := rfl
  canonical := rfl
  selectors := by
    have none : occurrences.filter (·.color == color.canonical) = [] := by
      rw [List.filter_eq_nil_iff]
      intro other member isKey
      exact new (List.mem_map.mpr ⟨other, member, beq_iff_eq.mp isKey⟩)
    rw [selectorsOf, none, List.map_nil]
  count := rfl

/-- Counting an occurrence under its color keeps the entry right. -/
theorem Tallies.counted (tallies : Tallies occurrences place entry)
    (isKey : occurrence.color = entry.key) :
    Tallies (occurrences ++ [occurrence]) place (Catalog.count occurrence.selector entry) where
  index := tallies.index
  canonical := tallies.canonical
  selectors := by
    rw [selectorsOf_concat]
    exact congr (congrArg _ tallies.selectors) (if_pos isKey).symm
  count := by
    rw [Catalog.count, List.length_append, ← tallies.count, List.length_singleton]

/-- An occurrence of another color is nothing to an entry. -/
theorem Tallies.passed (tallies : Tallies occurrences place entry)
    (notKey : occurrence.color ≠ entry.key) :
    Tallies (occurrences ++ [occurrence]) place entry where
  index := tallies.index
  canonical := tallies.canonical
  selectors := by
    rw [selectorsOf_concat, if_neg notKey, List.append_nil]
    exact tallies.selectors
  count := tallies.count

/-- More colors behind it do not change the rank of an occurrence. -/
theorem Numbered.append (numbered : Numbered colors place occurrence)
    (member : occurrence.color ∈ colors) (more : List String) :
    Numbered (colors ++ more) place occurrence where
  number := numbered.number
  spelled := numbered.spelled
  keys := by
    rw [idxOf_eraseDups_append member]
    exact numbered.keys

end

/-! ## Steps -/

/-- The parts of a catalog agree with each other. -/
structure InStep (catalog : Catalog) : Prop where
  lists : catalog.Lists catalog.colors
  entries : ∀ place entry, catalog.entries[place]? = some entry →
    Tallies catalog.occurrences place entry
  occurrences : ∀ place occurrence, catalog.occurrences[place]? = some occurrence →
    Numbered catalog.colors place occurrence

theorem inStep_empty : empty.InStep where
  lists := files_empty.toLists
  entries place entry found := by cases found
  occurrences place occurrence found := by cases found

theorem Lists.nodup {catalog : Catalog} {colors : List String} (lists : catalog.Lists colors) :
    (catalog.entries.map (·.key)).Nodup := by
  rw [lists.keys]
  exact nodup_eraseDups colors

/-- Two places of one key are one place. -/
theorem Lists.place_unique {catalog : Catalog} {colors : List String}
    (lists : catalog.Lists colors) {place other : Nat} {entry entry' : ColorEntry}
    (found : catalog.entries[place]? = some entry)
    (found' : catalog.entries[other]? = some entry') (same : entry'.key = entry.key) :
    other = place := by
  have inside := (List.getElem?_eq_some_iff.mp found').1
  apply (List.getElem?_inj (by rwa [List.length_map]) lists.nodup).mp
  rw [List.getElem?_map, List.getElem?_map, found, found', Option.map_some, Option.map_some,
    same]

/-- Finding the place of a color leaves every entry with the right count. -/
theorem InStep.tallies_intern {catalog : Catalog} (inStep : catalog.InStep) (color : Rgba)
    {place : Nat} {entry : ColorEntry}
    (found : (catalog.intern color).1.entries[place]? = some entry) :
    Tallies catalog.occurrences place entry := by
  by_cases known : color.canonical ∈ catalog.colors
  · rw [inStep.lists.intern_of_mem known] at found
    exact inStep.entries place entry found
  · rw [inStep.lists.intern_of_not_mem known] at found
    rcases getElem?_concat_eq_some.mp found with old | ⟨rfl, rfl⟩
    · exact inStep.entries place entry old
    · exact .new known _

/-- Adding an occurrence brings a catalog into step that is ahead by its color. -/
theorem inStep_add {catalog : Catalog} {place : Nat} {entry : ColorEntry}
    {occurrence : Occurrence} (lists : catalog.Lists (catalog.colors ++ [occurrence.color]))
    (entries : ∀ place entry, catalog.entries[place]? = some entry →
      Tallies catalog.occurrences place entry)
    (occurrences : ∀ place occurrence, catalog.occurrences[place]? = some occurrence →
      Numbered catalog.colors place occurrence)
    (found : catalog.entries[place]? = some entry) (isKey : occurrence.color = entry.key)
    (last : Numbered (catalog.colors ++ [occurrence.color]) catalog.occurrences.length
      occurrence) :
    (catalog.add place entry occurrence).InStep := by
  have colors_add : (catalog.add place entry occurrence).colors =
      catalog.colors ++ [occurrence.color] := by
    rw [colors, add, List.map_append]
    rfl
  refine ⟨by rw [colors_add]; exact lists.add found occurrence, ?_, ?_⟩
  · intro other entry' found'
    rw [add, List.getElem?_set] at found'
    split at found'
    · next here =>
        rw [if_pos (List.getElem?_eq_some_iff.mp found).1] at found'
        cases found'
        rw [here] at found
        exact (entries other entry found).counted isKey
    · next elsewhere =>
        refine (entries other entry' found').passed ?_
        intro same
        exact elsewhere (lists.place_unique found found' (same.symm.trans isKey)).symm
  · intro other occurrence' found'
    rw [colors_add]
    rcases getElem?_concat_eq_some.mp found' with old | ⟨rfl, rfl⟩
    · exact (occurrences other occurrence' old).append
        (List.mem_map_of_mem (List.mem_of_getElem? old)) _
    · exact last

/-- Filing one paint keeps the parts of a catalog in step. -/
theorem InStep.recordPaint {catalog : Catalog} (inStep : catalog.InStep) (path : String)
    (element : Element) (paint : Paint) :
    (recordPaint path (catalog, element) paint).1.InStep := by
  cases isPaint : element.paint? paint with
  | none =>
      rw [recordPaint_of_none isPaint]
      exact inStep
  | some color =>
      obtain ⟨spelling, spelled, isColor⟩ := Option.bind_eq_some_iff.mp isPaint
      obtain ⟨entry, found, isKey, recorded⟩ :=
        recordPaint_of_some inStep.lists spelled isColor path
      have same := catalog.occurrences_intern color
      have colors_intern : (catalog.intern color).1.colors = catalog.colors := by
        rw [colors, same, ← colors]
      rw [recorded]
      apply inStep_add
      · rw [colors_intern]
        exact (inStep.lists.intern color).1
      · rw [same]
        exact fun place entry => inStep.tallies_intern color
      · rw [same, colors_intern]
        exact inStep.occurrences
      · exact found
      · exact isKey.symm
      · rw [same, colors_intern]
        exact ⟨rfl, ⟨color, isColor, rfl⟩, element, rfl⟩

theorem InStep.record {catalog : Catalog} (inStep : catalog.InStep) (element : Element)
    (path : String) : (catalog.record element path).1.InStep :=
  (inStep.recordPaint path element .fill).recordPaint path _ .stroke

/-! ## Runs -/

/-- The catalog after some calls of `record`, each with an element and a path. -/
def recordAll (calls : List (Element × String)) : Catalog :=
  calls.foldl (fun catalog call => (catalog.record call.1 call.2).1) empty

/-- What recording an element preserves holds after every run. -/
theorem recordAll_induct {motive : Catalog → Prop} (start : motive empty)
    (step : ∀ catalog element path, motive catalog → motive (catalog.record element path).1)
    (calls : List (Element × String)) : motive (recordAll calls) := by
  have run (catalog : Catalog) (holds : motive catalog) :
      motive (calls.foldl (fun catalog call => (catalog.record call.1 call.2).1) catalog) := by
    induction calls generalizing catalog with
    | nil => exact holds
    | cons call rest ih => exact ih _ (step catalog call.1 call.2 holds)
  exact run empty start

theorem inStep_recordAll (calls : List (Element × String)) : (recordAll calls).InStep :=
  recordAll_induct inStep_empty (fun _ element path inStep => inStep.record element path) calls

/-! ## Facts about catalogs in step -/

section

variable {catalog : Catalog}

theorem InStep.mem_keys (inStep : catalog.InStep) {key : String} :
    key ∈ catalog.entries.map (·.key) ↔ key ∈ catalog.colors := by
  rw [inStep.lists.keys, List.mem_eraseDups]

/-- The rank of the color of an occurrence is the one place with an entry for it. -/
theorem InStep.key_at_iff (inStep : catalog.InStep) {occurrence : Occurrence}
    (member : occurrence ∈ catalog.occurrences) {place : Nat} :
    (catalog.entries[place]?).map (·.key) = some occurrence.color ↔
      place = catalog.colors.eraseDups.idxOf occurrence.color := by
  have known : occurrence.color ∈ catalog.colors := List.mem_map_of_mem member
  obtain ⟨entry, found, isKey⟩ := inStep.lists.exists_entry known
  constructor
  · intro here
    obtain ⟨entry', found', isKey'⟩ := Option.map_eq_some_iff.mp here
    exact inStep.lists.place_unique found found' (isKey'.trans isKey.symm)
  · rintro rfl
    rw [found, Option.map_some, isKey]

theorem InStep.numbered (inStep : catalog.InStep) {occurrence : Occurrence}
    (member : occurrence ∈ catalog.occurrences) :
    Numbered catalog.colors occurrence.number occurrence := by
  obtain ⟨place, found⟩ := List.mem_iff_getElem?.mp member
  have numbered := inStep.occurrences place occurrence found
  rw [numbered.number]
  exact numbered

theorem InStep.tallies (inStep : catalog.InStep) {entry : ColorEntry}
    (member : entry ∈ catalog.entries) :
    Tallies catalog.occurrences entry.index entry := by
  obtain ⟨place, found⟩ := List.mem_iff_getElem?.mp member
  have tallies := inStep.entries place entry found
  rw [tallies.index]
  exact tallies

theorem InStep.count_eq (inStep : catalog.InStep) {entry : ColorEntry}
    (member : entry ∈ catalog.entries) : entry.count = catalog.colors.count entry.key := by
  have tallies := inStep.tallies member
  rw [tallies.count, tallies.selectors, selectorsOf, List.length_map,
    ← List.countP_eq_length_filter, colors, List.count, List.countP_map]
  rfl

/-- Each occurrence is counted once. -/
theorem InStep.sum_count (inStep : catalog.InStep) :
    (catalog.entries.map (·.count)).sum = catalog.occurrences.length := by
  have byKey : catalog.entries.map (·.count) =
      (catalog.entries.map (·.key)).map fun key => catalog.colors.count key := by
    rw [List.map_map]
    exact List.map_congr_left fun entry member => inStep.count_eq member
  have distinct : (catalog.entries.map (·.key)).Perm catalog.colors.dedup := by
    rw [List.perm_ext_iff_of_nodup inStep.lists.nodup catalog.colors.nodup_dedup]
    intro key
    rw [inStep.mem_keys, List.mem_dedup]
  rw [byKey, (distinct.map _).sum_eq, List.sum_map_count_dedup_eq_length, colors,
    List.length_map]

/-- Looking up a spelling finds the entry of its color. -/
theorem InStep.get?_eq_some_iff (inStep : catalog.InStep) {spelling : String}
    {entry : ColorEntry} :
    catalog.get? spelling = some entry ↔
      entry ∈ catalog.entries ∧
        ∃ color, Rgba.read? spelling = some color ∧ color.canonical = entry.key := by
  have search (key : String) :
      (Keyed.find? key catalog.places).bind (catalog.entries[·]?) = some entry ↔
        entry ∈ catalog.entries ∧ key = entry.key := by
    rw [inStep.lists.place_eq]
    by_cases known : key ∈ catalog.colors
    · obtain ⟨found, isFound, isKey⟩ := inStep.lists.exists_entry known
      rw [if_pos known, Option.bind_some, isFound]
      constructor
      · intro same
        cases same
        exact ⟨List.mem_of_getElem? isFound, isKey.symm⟩
      · rintro ⟨member, rfl⟩
        obtain ⟨place, here⟩ := List.mem_iff_getElem?.mp member
        rw [inStep.lists.place_unique isFound here isKey.symm, isFound] at here
        exact here
    · rw [if_neg known, Option.bind_none]
      refine iff_of_false nofun ?_
      rintro ⟨member, rfl⟩
      exact known (inStep.mem_keys.mp (List.mem_map_of_mem member))
  unfold get?
  cases Rgba.read? spelling with
  | none => simp
  | some color =>
      simp only [Option.bind_eq_bind, Option.bind_some, Option.some.injEq, exists_eq_left']
      exact search color.canonical

theorem InStep.exists_get?_iff (inStep : catalog.InStep) {spelling : String} :
    (∃ entry, catalog.get? spelling = some entry) ↔
      ∃ color, Rgba.read? spelling = some color ∧
        ∃ occurrence ∈ catalog.occurrences, occurrence.color = color.canonical := by
  constructor
  · rintro ⟨entry, found⟩
    obtain ⟨member, color, isColor, isKey⟩ := inStep.get?_eq_some_iff.mp found
    obtain ⟨occurrence, inside, same⟩ :=
      List.mem_map.mp (inStep.mem_keys.mp (List.mem_map_of_mem member))
    exact ⟨color, isColor, occurrence, inside, same.trans isKey.symm⟩
  · rintro ⟨color, isColor, occurrence, inside, same⟩
    obtain ⟨entry, member, isKey⟩ :=
      List.mem_map.mp (inStep.mem_keys.mpr (List.mem_map_of_mem inside))
    exact ⟨entry, inStep.get?_eq_some_iff.mpr ⟨member, color, isColor, (isKey.trans same).symm⟩⟩

end

/-- What a reader of a catalog can rely on. -/
structure Consistent (catalog : Catalog) : Prop where
  /-- Entries know their places. -/
  index : ∀ (place : Nat) (entry : ColorEntry), catalog.entries[place]? = some entry →
    entry.index = place
  /-- Each color has one entry, under its canonical text. -/
  distinct : (catalog.entries.map (·.key)).Nodup
  canonical : ∀ entry ∈ catalog.entries, entry.key = entry.color.canonical
  /-- The entries are in the order in which their colors appear first. -/
  order : catalog.entries.map (·.key) = (catalog.occurrences.map (·.color)).eraseDups
  /-- The places lead to the entries, and nowhere else. -/
  places : ∀ key, Keyed.find? key catalog.places = catalog.entries.findIdx? (·.key == key)
  /-- Occurrences are numbered in document order. -/
  number : ∀ (place : Nat) (occurrence : Occurrence),
    catalog.occurrences[place]? = some occurrence → occurrence.number = place
  /-- An occurrence spells its color. -/
  spelled : ∀ occurrence ∈ catalog.occurrences, ∃ color,
    Rgba.read? occurrence.spelling = some color ∧ color.canonical = occurrence.color
  /-- The keys of an occurrence begin with its number. -/
  numberKey : ∀ occurrence ∈ catalog.occurrences,
    occurrence.keys.head? = some s!"color{occurrence.number}"
  /-- One place has the color of an occurrence, and its keys name that place. -/
  groupKey : ∀ occurrence ∈ catalog.occurrences, ∃ group : Nat,
    (∀ place : Nat, (catalog.entries[place]?).map ColorEntry.key = some occurrence.color ↔
        place = group) ∧
      s!"colorGroup{group}" ∈ occurrence.keys
  /-- An entry counts its selectors, at least one. -/
  count : ∀ entry ∈ catalog.entries, 0 < entry.count ∧ entry.count = entry.selectors.length
  /-- The selectors of an entry are those of the occurrences of its color, in their order. -/
  selectors : ∀ entry ∈ catalog.entries, entry.selectors =
    (catalog.occurrences.filter (·.color == entry.key)).map fun occurrence =>
      occurrence.path ++ "[" ++ occurrence.paint.name ++ "]"
  /-- Each occurrence is counted once. -/
  total : (catalog.entries.map (·.count)).sum = catalog.occurrences.length
  /-- A spelling is found if its color occurs. -/
  found : ∀ spelling, (∃ entry, catalog.get? spelling = some entry) ↔
    ∃ color, Rgba.read? spelling = some color ∧
      ∃ occurrence ∈ catalog.occurrences, occurrence.color = color.canonical
  /-- What is found is the entry of that color. -/
  foundEntry : ∀ spelling entry, catalog.get? spelling = some entry ↔
    entry ∈ catalog.entries ∧
      ∃ color, Rgba.read? spelling = some color ∧ color.canonical = entry.key

/-- A catalog is consistent after any calls of `record`. -/
theorem consistent_recordAll (calls : List (Element × String)) :
    (recordAll calls).Consistent := by
  have inStep := inStep_recordAll calls
  exact {
    index := fun place entry found => (inStep.entries place entry found).index
    distinct := inStep.lists.nodup
    canonical := fun entry member => (inStep.tallies member).canonical
    order := inStep.lists.keys
    places := inStep.lists.places
    number := fun place occurrence found => (inStep.occurrences place occurrence found).number
    spelled := fun occurrence member => (inStep.numbered member).spelled
    numberKey := by
      intro occurrence member
      obtain ⟨element, keys⟩ := (inStep.numbered member).keys
      rw [keys]
      rfl
    groupKey := by
      intro occurrence member
      obtain ⟨element, keys⟩ := (inStep.numbered member).keys
      refine ⟨_, fun place => inStep.key_at_iff member, ?_⟩
      rw [keys, Element.candidateKeys]
      simp
    count := by
      intro entry member
      refine ⟨?_, (inStep.tallies member).count⟩
      rw [inStep.count_eq member, List.count_pos_iff]
      exact inStep.mem_keys.mp (List.mem_map_of_mem member)
    selectors := by
      intro entry member
      rw [(inStep.tallies member).selectors, selectorsOf]
      apply List.map_congr_left
      intro occurrence _
      rw [Occurrence.selector, Paint.selector, String.append_assoc, String.append_assoc,
        String.append_assoc]
    total := inStep.sum_count
    found := fun spelling => inStep.exists_get?_iff
    foundEntry := fun spelling entry => inStep.get?_eq_some_iff }

end Catalog

end ThemedSvg

/-
# Overrides

A parameter that names an occurrence by its number reaches that occurrence and nothing
else, and one that names the rank of a color reaches the occurrences of that color. The
other keys of a template are marked by brackets, or are the size, so no id, class or tag
can be mistaken for a number.
-/

import ThemedSvg.Proofs.Holes
import ThemedSvg.Proofs.Theming

namespace ThemedSvg

/-! ## What evaluation reads -/

theorem Lookup.resolve_congr {lookup : Lookup} {params other : Params}
    (agree : ∀ key ∈ lookup.keys, params.get? key = other.get? key) :
    lookup.resolve params = lookup.resolve other := by
  rw [resolve, resolve, ← List.head?_filterMap, ← List.head?_filterMap,
    List.filterMap_congr agree]

theorem StyleHook.resolve_congr {hook : StyleHook} {params other : Params}
    (agree : ∀ property ∈ hook.properties,
      params.get? (key property) = other.get? (key property)) :
    hook.resolve params = hook.resolve other := by
  rw [resolve, resolve]
  apply congrArg String.ofList
  apply List.foldl_ext
  intro style property member
  rw [apply, apply, agree property member]

/-- A lookup one of whose keys is the only one that is given resolves to its value. -/
theorem Lookup.resolve_of_only {lookup : Lookup} {params : Params} {key value : String}
    (member : key ∈ lookup.keys)
    (only : ∀ other, params.get? other = if other = key then some value else none) :
    lookup.resolve params = value := by
  have isGiven : (lookup.keys.findSome? params.get?).isSome := by
    rw [List.findSome?_isSome_iff]
    exact ⟨key, member, by rw [only, if_pos rfl, Option.isSome_some]⟩
  obtain ⟨first, found⟩ := Option.isSome_iff_exists.mp isGiven
  obtain ⟨other, _, given⟩ := List.exists_of_findSome?_eq_some found
  rw [only, Option.ite_none_right_eq_some] at given
  rw [resolve, found, Option.getD_some, Option.some.inj given.2]

/-- The first key that is given counts. -/
theorem Lookup.resolve_of_head? {lookup : Lookup} {params : Params} {key value : String}
    (first : lookup.keys.head? = some key) (given : params.get? key = some value) :
    lookup.resolve params = value := by
  obtain ⟨rest, keys⟩ := List.head?_eq_some_iff.mp first
  rw [resolve, keys, List.findSome?_cons, given]
  rfl

namespace Segment

/-- The keys that a piece looks up. -/
def keys : Segment → List String
  | literal _ => []
  | lookup l => l.keys
  | style hook => hook.properties.map StyleHook.key

/-- A piece is the same under parameters that agree on its keys. -/
theorem evaluate_congr {segment : Segment} {params other : Params}
    (agree : ∀ key ∈ segment.keys, params.get? key = other.get? key) :
    segment.evaluate params = segment.evaluate other := by
  cases segment with
  | literal text => rfl
  | lookup l => rw [evaluate, evaluate, Lookup.resolve_congr agree]
  | style hook =>
      rw [evaluate, evaluate, StyleHook.resolve_congr]
      intro property member
      exact agree _ (List.mem_map_of_mem member)

end Segment

namespace Params

/-- What is set is found on top of the defaults, and nothing else is found otherwise. -/
theorem get?_insert_mergedOver (params defaults : Params) {key value : String}
    (nonempty : value ≠ "") (other : String) :
    ((params.insert key value).mergedOver defaults).get? other =
      if other = key then some value else (params.mergedOver defaults).get? other := by
  rw [get?_mergedOver, get?_mergedOver, themeOver, themeOver, insert]
  split
  · next same =>
      rw [same, Keyed.find?_insert_self]
      simp [nonempty]
  · next differs => rw [Keyed.find?_insert_of_ne differs]

end Params

/-! ## Unmarked keys -/

section

variable {stem : String} {n m : Nat}

theorem toList_counted (stem : String) (n : Nat) :
    (stem ++ toString n).toList = stem.toList ++ Nat.toDigits 10 n := by
  rw [String.toList_append, ← Nat.toList_repr]
  rfl

/-- A count can be read off its key. -/
theorem counted_inj (same : stem ++ toString n = stem ++ toString m) : n = m := by
  have digits := congrArg String.toList same
  rw [toList_counted, toList_counted] at digits
  rw [← @Nat.ofDigitChars_ten_toDigits n, List.append_cancel_left digits,
    Nat.ofDigitChars_ten_toDigits]

/-- Behind its stem, a key that counts has nothing but digits. -/
theorem not_mem_counted {c : Char} (notStem : c ∉ stem.toList) (notDigit : c.isDigit = false)
    (n : Nat) : c ∉ (stem ++ toString n).toList := by
  rw [toList_counted, List.mem_append, not_or]
  refine ⟨notStem, ?_⟩
  intro member
  rw [Nat.isDigit_of_mem_toDigits (by decide) (by decide) member] at notDigit
  cases notDigit

end

theorem number_ne_group (number group : Nat) : s!"color{number}" ≠ s!"colorGroup{group}" := by
  intro same
  have notNumber : 'G' ∉ (s!"color{number}").toList :=
    not_mem_counted (by decide) (by decide) number
  rw [same, toList_counted] at notNumber
  exact notNumber (List.mem_append_left _ (by decide))

/-- A key that is no selector and not the size. -/
structure IsUnmarked (key : String) : Prop where
  bracket : ']' ∉ key.toList
  size : key ≠ "size"

theorem isUnmarked_counted {stem : String} (bracket : ']' ∉ stem.toList)
    (isColor : 'c' ∈ stem.toList) (n : Nat) : IsUnmarked (stem ++ toString n) where
  bracket := not_mem_counted bracket (by decide) n
  size same := by
    have inside : 'c' ∈ "size".toList := by
      rw [← same, toList_counted]
      exact List.mem_append_left _ isColor
    exact absurd inside (by decide)

theorem isUnmarked_number (number : Nat) : IsUnmarked s!"color{number}" :=
  isUnmarked_counted (by decide) (by decide) number

theorem isUnmarked_group (group : Nat) : IsUnmarked s!"colorGroup{group}" :=
  isUnmarked_counted (by decide) (by decide) group

namespace Element

/-- The unmarked keys of a paint are its number and the rank of its color. -/
theorem mem_candidateKeys_iff {element : Element} {paint : Paint} {number group : Nat}
    {key : String} (unmarked : IsUnmarked key) :
    key ∈ element.candidateKeys paint number group ↔
      key = s!"color{number}" ∨ key = s!"colorGroup{group}" := by
  have unselected (before : String) : key ≠ before ++ paint.selector := by
    rintro rfl
    exact unmarked.bracket (by simp [Paint.selector])
  have notOptional (mark : String) (name : Option String) :
      key ∉ (name.map fun text => mark ++ text ++ paint.selector).toList := by
    cases name with
    | none => exact List.not_mem_nil
    | some text => exact fun member => unselected _ (List.mem_singleton.mp member)
  have notKind : key ≠ paint.selector := unselected ""
  have notColor : key ≠ "[color]" := by
    rintro rfl
    exact unmarked.bracket (by decide)
  rw [candidateKeys]
  simp only [List.mem_append, List.mem_cons, List.not_mem_nil, or_false, notOptional,
    unselected, notKind, notColor]

end Element

namespace Catalog.InStep

variable {catalog : Catalog} {occurrence : Occurrence}

/-- The number of an occurrence is in no other keys. -/
theorem number_mem_keys_iff (inStep : catalog.InStep) (member : occurrence ∈ catalog.occurrences)
    {number : Nat} : s!"color{number}" ∈ occurrence.keys ↔ number = occurrence.number := by
  obtain ⟨element, keys⟩ := (inStep.numbered member).keys
  rw [keys, Element.mem_candidateKeys_iff (isUnmarked_number number)]
  constructor
  · rintro (same | same)
    · exact counted_inj same
    · exact absurd same (number_ne_group _ _)
  · rintro rfl
    exact .inl rfl

/-- The place of an entry is in the keys of the occurrences of its color. -/
theorem group_mem_keys_iff (inStep : catalog.InStep) (member : occurrence ∈ catalog.occurrences)
    {group : Nat} {entry : ColorEntry} (found : catalog.entries[group]? = some entry) :
    s!"colorGroup{group}" ∈ occurrence.keys ↔ occurrence.color = entry.key := by
  obtain ⟨element, keys⟩ := (inStep.numbered member).keys
  have here : (catalog.entries[group]?).map (·.key) = some occurrence.color ↔ _ :=
    inStep.key_at_iff member
  rw [found, Option.map_some, Option.some.injEq] at here
  rw [eq_comm, here, keys, Element.mem_candidateKeys_iff (isUnmarked_group group)]
  constructor
  · rintro (same | same)
    · exact absurd same.symm (number_ne_group _ _)
    · exact counted_inj same
  · rintro rfl
    exact .inr rfl

/-- Occurrences stand at their numbers, so no two have the same. -/
theorem eq_of_number_eq (inStep : catalog.InStep) {other : Occurrence}
    (member : occurrence ∈ catalog.occurrences) (member' : other ∈ catalog.occurrences)
    (same : occurrence.number = other.number) : occurrence = other := by
  obtain ⟨place, found⟩ := List.mem_iff_getElem?.mp member
  obtain ⟨place', found'⟩ := List.mem_iff_getElem?.mp member'
  have here : place = place' := by
    rw [← (inStep.occurrences place _ found).number, same,
      (inStep.occurrences place' _ found').number]
  rw [here, found'] at found
  exact (Option.some.inj found).symm

theorem nodup_occurrences (inStep : catalog.InStep) : catalog.occurrences.Nodup := by
  rw [List.nodup_iff_getElem?_ne_getElem?]
  intro place place' before inside same
  have found := List.getElem?_eq_getElem inside
  rw [found] at same
  have here := (inStep.occurrences place _ same).number
  rw [(inStep.occurrences place' _ found).number] at here
  omega

/-- No two occurrences leave the same lookup behind. -/
theorem eq_of_lookup_eq (inStep : catalog.InStep) {other : Occurrence}
    (member : occurrence ∈ catalog.occurrences) (member' : other ∈ catalog.occurrences)
    (same : occurrence.lookup = other.lookup) : occurrence = other := by
  have own := (inStep.number_mem_keys_iff member).mpr rfl
  rw [show occurrence.keys = other.keys from congrArg Lookup.keys same,
    inStep.number_mem_keys_iff member'] at own
  exact inStep.eq_of_number_eq member member' own

theorem nodup_lookups (inStep : catalog.InStep) :
    (catalog.occurrences.map Occurrence.lookup).Nodup := by
  apply List.Nodup.map_on _ inStep.nodup_occurrences
  intro first member second member' same
  exact inStep.eq_of_lookup_eq member member' same

end Catalog.InStep

/-! ## Where an occurrence is -/

/-- What is in a list once is at one place. -/
theorem Segment.place_unique {segments : List Segment} {segment : Segment}
    (once : segments.count segment ≤ 1) {place other : Nat}
    (found : segments[place]? = some segment) (found' : segments[other]? = some segment) :
    other = place := by
  induction segments generalizing place other with
  | nil => cases found
  | cons first rest ih =>
      rw [List.count_cons] at once
      have twice {later : Nat} (behind : rest[later]? = some segment) (same : first = segment) :
          False := by
        have := List.count_pos_iff.mpr (List.mem_of_getElem? behind)
        rw [if_pos (beq_iff_eq.mpr same)] at once
        omega
      cases place with
      | zero =>
          cases other with
          | zero => rfl
          | succ later => exact (twice found' (Option.some.inj found)).elim
      | succ place =>
          cases other with
          | zero => exact (twice found (Option.some.inj found')).elim
          | succ other => rw [ih (by omega) found found']

/-- Hooks read marked keys only. -/
theorem Attribute.IsHook.not_isUnmarked {slot : Attribute} (isHook : slot.IsHook) {key : String}
    (read : key ∈ slot.value.segment.keys) : ¬ IsUnmarked key := by
  intro unmarked
  cases isHook with
  | size dimension =>
      have inSize : key ∈ ["[" ++ dimension ++ "]", "[size]", "size"] := read
      simp only [List.mem_cons, List.not_mem_nil, or_false] at inSize
      rcases inSize with rfl | rfl | rfl
      · exact unmarked.bracket (by simp)
      · exact unmarked.bracket (by decide)
      · exact unmarked.size rfl
  | style base =>
      have inStyle : key ∈ ["[fill]", "[stroke]"] := read
      rcases List.mem_pair.mp inStyle with rfl | rfl
      · exact unmarked.bracket (by decide)
      · exact unmarked.bracket (by decide)

/-- The hole of an occurrence is at a place and nowhere else, in the quotes of an attribute
with the name of its paint. -/
structure Template.OpensAt (template : Template) (occurrence : Occurrence) (place : Nat) :
    Prop where
  unique : ∀ other : Nat, template.segments[other]? = some (.lookup occurrence.lookup) ↔
    other = place
  quoted : ∃ before text more after, template.segments =
    before ++ .literal (text ++ (" " ++ occurrence.paint.name ++ "=\"")) ::
      .lookup occurrence.lookup :: .literal ("\"" ++ more) :: after

namespace Asset

variable {asset : Asset} {tree : Element} {hooks : List Attribute}

/-- Unmarked keys are read by the holes of occurrences only. -/
theorem LeavesOpen.exists_occurrence (leaves : asset.LeavesOpen tree hooks) {segment : Segment}
    (member : segment ∈ asset.template.segments) {key : String} (read : key ∈ segment.keys)
    (unmarked : IsUnmarked key) :
    ∃ occurrence ∈ asset.catalog.occurrences, segment = .lookup occurrence.lookup ∧
      key ∈ occurrence.keys := by
  have isHole : segment.isHole = true := by
    cases segment with
    | literal text => cases read
    | lookup l => rfl
    | style hook => rfl
  have inside : segment ∈ asset.template.segments.filter Segment.isHole :=
    List.mem_filter.mpr ⟨member, isHole⟩
  rw [leaves.template, Template.filter_isHole_compile] at inside
  obtain ⟨slot, isOpen, rfl⟩ := List.mem_map.mp inside
  rcases List.mem_append.mp (leaves.slots.mem_iff.mp isOpen) with own | isHook
  · obtain ⟨occurrence, known, rfl⟩ := List.mem_map.mp own
    exact ⟨occurrence, known, rfl, read⟩
  · exact absurd unmarked ((leaves.hooks slot isHook).not_isUnmarked read)

/-- The hole of an occurrence is in a template once. -/
theorem LeavesOpen.count_lookup (leaves : asset.LeavesOpen tree hooks)
    (inStep : asset.catalog.InStep) {occurrence : Occurrence}
    (member : occurrence ∈ asset.catalog.occurrences) :
    asset.template.segments.count (.lookup occurrence.lookup) = 1 := by
  have isHole : (Segment.lookup occurrence.lookup).isHole = true := rfl
  have own : (asset.catalog.occurrences.map fun other => Segment.lookup other.lookup).count
      (.lookup occurrence.lookup) = 1 := by
    have distinct := inStep.nodup_lookups.map (f := Segment.lookup) fun _ _ => Segment.lookup.inj
    rw [List.map_map] at distinct
    exact List.count_eq_one_of_mem distinct (List.mem_map_of_mem member)
  have none : (hooks.map (·.value.segment)).count (.lookup occurrence.lookup) = 0 := by
    rw [List.count_eq_zero]
    intro inside
    obtain ⟨slot, isHook, same⟩ := List.mem_map.mp inside
    have read : s!"color{occurrence.number}" ∈ slot.value.segment.keys := by
      rw [same]
      exact (inStep.number_mem_keys_iff member).mpr rfl
    exact (leaves.hooks slot isHook).not_isUnmarked read (isUnmarked_number _)
  rw [← List.count_filter isHole, leaves.template, Template.filter_isHole_compile,
    (leaves.slots.map _).count_eq, List.map_append, List.count_append, List.map_map, none]
  exact own

/-- The hole of an occurrence stands where its attribute was. -/
theorem LeavesOpen.exists_opensAt (leaves : asset.LeavesOpen tree hooks)
    (inStep : asset.catalog.InStep) {occurrence : Occurrence}
    (member : occurrence ∈ asset.catalog.occurrences) :
    ∃ place, asset.template.OpensAt occurrence place := by
  have isOpen : occurrence.slot ∈ tree.openSlots :=
    leaves.slots.mem_iff.mpr (List.mem_append_left _ (List.mem_map_of_mem member))
  obtain ⟨before, text, more, after, around⟩ := Template.exists_around_hole isOpen
  rw [← leaves.template] at around
  have once := leaves.count_lookup inStep member
  obtain ⟨place, found⟩ := List.mem_iff_getElem?.mp (List.count_pos_iff.mp (once ▸ Nat.one_pos))
  refine ⟨place, fun other => ⟨fun found' => Segment.place_unique once.le found found', ?_⟩, before,
    text, more, after, around⟩
  rintro rfl
  exact found

/-! ## Pieces of renderings -/

/-- The markup under parameters laid over the asset's defaults, piece by piece. -/
def pieces (asset : Asset) (params : Params) : List (List Char) :=
  asset.template.segments.map (Segment.evaluate (params.mergedOver asset.options.defaults))

theorem markup_eq_pieces (asset : Asset) (params : Params) :
    asset.markup params = String.ofList (asset.pieces params).flatten := rfl

theorem getElem?_pieces (asset : Asset) (params : Params) (place : Nat) :
    (asset.pieces params)[place]? = (asset.template.segments[place]?).map
      (Segment.evaluate (params.mergedOver asset.options.defaults)) :=
  List.getElem?_map

/-- A parameter that the hole at a place does not look up makes no difference there. -/
theorem getElem?_pieces_insert {place : Nat} {key value : String} (nonempty : value ≠ "")
    (unread : ∀ segment ∈ asset.template.segments[place]?, key ∉ segment.keys)
    (params : Params) :
    (asset.pieces (params.insert key value))[place]? = (asset.pieces params)[place]? := by
  rw [getElem?_pieces, getElem?_pieces]
  apply Option.map_congr
  intro segment found
  apply Segment.evaluate_congr
  intro other read
  rw [Params.get?_insert_mergedOver _ _ nonempty, if_neg]
  rintro rfl
  exact unread segment found read

/-- The hole of an occurrence is filled with the value of its number, and nothing else is
filled with it. -/
theorem LeavesOpen.pieces_insert_number (leaves : asset.LeavesOpen tree hooks)
    (inStep : asset.catalog.InStep) {occurrence : Occurrence}
    (member : occurrence ∈ asset.catalog.occurrences) {place : Nat}
    (opens : asset.template.OpensAt occurrence place) (params : Params) {value : String}
    (nonempty : value ≠ "") :
    asset.pieces (params.insert s!"color{occurrence.number}" value) =
      (asset.pieces params).set place (Markup.escape value.toList) := by
  have here := (opens.unique place).mpr rfl
  apply List.ext_getElem?
  intro other
  rw [List.getElem?_set]
  by_cases isHere : place = other
  · subst isHere
    obtain ⟨element, keys⟩ := (inStep.numbered member).keys
    have first : occurrence.lookup.keys.head? = some s!"color{occurrence.number}" := by
      rw [Occurrence.lookup, keys]
      rfl
    have inside : place < (asset.pieces params).length := by
      rw [pieces, List.length_map]
      exact (List.getElem?_eq_some_iff.mp here).1
    have given : ((params.insert s!"color{occurrence.number}" value).mergedOver
        asset.options.defaults).get? s!"color{occurrence.number}" = some value := by
      rw [Params.get?_insert_mergedOver _ _ nonempty, if_pos rfl]
    rw [if_pos rfl, if_pos inside, getElem?_pieces, here, Option.map_some, Segment.evaluate,
      Lookup.resolve_of_head? first given]
  · rw [if_neg isHere]
    apply getElem?_pieces_insert nonempty
    intro segment found read
    obtain ⟨occurrence', member', rfl, read'⟩ := leaves.exists_occurrence
      (List.mem_of_getElem? found) read (isUnmarked_number _)
    have same := inStep.eq_of_number_eq member member'
      ((inStep.number_mem_keys_iff member').mp read')
    subst same
    exact isHere ((opens.unique other).mp found).symm

/-- Whether the attribute of an occurrence of a color is at a place. -/
def HoldsColor (asset : Asset) (key : String) (place : Nat) : Prop :=
  ∃ occurrence ∈ asset.catalog.occurrences,
    occurrence.color = key ∧ asset.template.OpensAt occurrence place

/-- Without other parameters, the rank of a color fills the holes of its occurrences. -/
theorem pieces_insert_group (inStep : asset.catalog.InStep)
    (bare : asset.options.defaults = .empty) {group : Nat} {entry : ColorEntry}
    (found : asset.catalog.entries[group]? = some entry) {value : String}
    (nonempty : value ≠ "") {place : Nat} (holds : asset.HoldsColor entry.key place) :
    (asset.pieces (Params.empty.insert s!"colorGroup{group}" value))[place]? =
      some (Markup.escape value.toList) := by
  obtain ⟨occurrence, member, isKey, opens⟩ := holds
  have read : s!"colorGroup{group}" ∈ occurrence.lookup.keys :=
    (inStep.group_mem_keys_iff member found).mpr isKey
  rw [getElem?_pieces, (opens.unique place).mpr rfl, Option.map_some, Segment.evaluate, bare,
    Lookup.resolve_of_only read (Params.get?_insert_mergedOver .empty .empty nonempty)]

/-- The rank of a color is nothing to the other pieces. -/
theorem LeavesOpen.pieces_insert_group_of_not_holdsColor (leaves : asset.LeavesOpen tree hooks)
    (inStep : asset.catalog.InStep) {group : Nat} {entry : ColorEntry}
    (found : asset.catalog.entries[group]? = some entry) {value : String}
    (nonempty : value ≠ "") {place : Nat} (holds : ¬ asset.HoldsColor entry.key place)
    (params : Params) :
    (asset.pieces (params.insert s!"colorGroup{group}" value))[place]? =
      (asset.pieces params)[place]? := by
  apply getElem?_pieces_insert nonempty
  intro segment here read
  obtain ⟨occurrence, member, rfl, read'⟩ := leaves.exists_occurrence
    (List.mem_of_getElem? here) read (isUnmarked_group group)
  obtain ⟨place', opens⟩ := leaves.exists_opensAt inStep member
  obtain rfl := (opens.unique place).mp here
  exact holds ⟨occurrence, member, (inStep.group_mem_keys_iff member found).mp read', opens⟩

/-- The number of an occurrence overrides its attribute and nothing else. Without defaults,
the rank of a color overrides the attributes of its occurrences and nothing else. -/
theorem overrides_hit_targets {source : Source} {options : AssetOptions} {markup : String}
    (built : build source options markup = .ok asset) :
    (∀ params, asset.markup params = String.ofList (asset.pieces params).flatten) ∧
      (∀ occurrence ∈ asset.catalog.occurrences,
        ∃ place, asset.template.OpensAt occurrence place ∧ ∀ params value, value ≠ "" →
          asset.pieces (params.insert s!"color{occurrence.number}" value) =
            (asset.pieces params).set place (Markup.escape value.toList)) ∧
      (options.defaults = .empty → ∀ (group : Nat) (entry : ColorEntry),
        asset.catalog.entries[group]? = some entry → ∀ value, value ≠ "" → ∀ place : Nat,
          (asset.HoldsColor entry.key place →
            (asset.pieces (Params.empty.insert s!"colorGroup{group}" value))[place]? =
              some (Markup.escape value.toList)) ∧
          (¬ asset.HoldsColor entry.key place →
            (asset.pieces (Params.empty.insert s!"colorGroup{group}" value))[place]? =
              (asset.pieces Params.empty)[place]?)) := by
  obtain ⟨rfl, inStep, tree, hooks, leaves⟩ := leavesOpen_of_build built
  refine ⟨asset.markup_eq_pieces, ?_, ?_⟩
  · intro occurrence member
    obtain ⟨place, opens⟩ := leaves.exists_opensAt inStep member
    exact ⟨place, opens, fun params value nonempty =>
      leaves.pieces_insert_number inStep member opens params nonempty⟩
  · intro bare group entry found value nonempty place
    exact ⟨pieces_insert_group inStep bare found nonempty, fun holds =>
      leaves.pieces_insert_group_of_not_holdsColor inStep found nonempty holds Params.empty⟩

theorem overrides_hit_targets_banner :
    ∃ asset, build .inline .standard banner.serialize = .ok asset ∧
      ∃ occurrence ∈ asset.catalog.occurrences, occurrence.number = 1 ∧
        ∃ place, asset.template.OpensAt occurrence place ∧
          asset.pieces (bannerParams.insert "color1" "lime") =
            (asset.pieces bannerParams).set place "lime".toList := by
  have parsed : Markup.parse banner.serialize = .ok banner :=
    Markup.parse_serialize_of_apart (by decide +kernel) (by decide)
  have built := build_eq_ok_direct .inline .standard (.ofParse parsed (by decide)) parsed
  obtain ⟨_, overrides, _⟩ := overrides_hit_targets built
  have second : ∃ occurrence ∈ (direct .inline .standard banner).catalog.occurrences,
      occurrence.number = 1 := by
    rw [catalog_direct]
    decide +kernel
  obtain ⟨occurrence, member, isSecond⟩ := second
  obtain ⟨place, opens, pieces⟩ := overrides occurrence member
  rw [isSecond] at pieces
  exact ⟨_, built, occurrence, member, isSecond, place, opens,
    pieces bannerParams "lime" (by decide)⟩

end Asset

end ThemedSvg

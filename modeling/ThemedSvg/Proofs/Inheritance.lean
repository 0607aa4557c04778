/-
# Inherited attributes

The document of a symbol has the symbol's own attributes, and behind them those of the
document around it that the symbol does not have and that are not empty. As the document
around a nested symbol is that of a symbol in turn, an attribute comes down along a path
until a symbol sets it, even to nothing. This module follows the attributes from each
sprite on a path to the next one. Only the style is left out, for showing a symbol takes
a declaration from it.
-/

import ThemedSvg.Proofs.Resolution

namespace ThemedSvg

namespace AttributeMap

/-- What an element that has attributes of its own takes from those around it. -/
def passedOn (own outer : AttributeMap) : AttributeMap :=
  outer.filter fun entry => entry.2 ≠ "" ∧ entry.1 ∉ own.map (·.1)

/-- Attributes are an element's own ones and those that it takes from around it, apart from
what becomes of the style. -/
structure Inherits (own outer inner : AttributeMap) : Prop where
  /-- An own value counts even if it is empty, one from around only if it is not. -/
  value : ∀ name, name ≠ "style" →
    inner.lookup name = (own.lookup name).or ((outer.lookup name).filter (· != ""))
  /-- The own attributes come first, and both parts keep their order. -/
  order : inner.filter (·.1 != "style") = (own ++ passedOn own outer).filter (·.1 != "style")
  /-- The style has its place among them, if it is there at all. -/
  names : (inner.map (·.1)).Sublist ((own ++ passedOn own outer).map (·.1))
  distinct : (inner.map (·.1)).Nodup

variable {own outer entries : AttributeMap} {name : String}

theorem mem_passedOn {entry : String × String} :
    entry ∈ passedOn own outer ↔
      entry ∈ outer ∧ entry.2 ≠ "" ∧ entry.1 ∉ own.map (·.1) := by
  rw [passedOn, List.mem_filter, decide_eq_true_iff]

theorem nodup_passedOn (around : (outer.map (·.1)).Nodup) :
    ((passedOn own outer).map (·.1)).Nodup :=
  around.sublist (List.filter_sublist.map _)

/-- An attribute that is taken keeps no later one away if those have other names. -/
theorem passedOn_cons {entry : String × String} {rest : AttributeMap}
    (absent : entry.1 ∉ rest.map (·.1)) :
    passedOn own (entry :: rest) =
      passedOn own [entry] ++ passedOn (own ++ passedOn own [entry]) rest := by
  have same : passedOn (own ++ passedOn own [entry]) rest = passedOn own rest := by
    apply List.filter_congr
    intro other member
    have differs : other.1 ∉ (passedOn own [entry]).map (·.1) := by
      intro inside
      obtain ⟨first, isTaken, isName⟩ := List.mem_map.mp inside
      rw [List.mem_singleton.mp (mem_passedOn.mp isTaken).1] at isName
      exact absent (List.mem_map.mpr ⟨other, member, isName.symm⟩)
    simp only [List.map_append, List.mem_append, or_iff_left differs]
  rw [same, passedOn, passedOn, passedOn, ← List.filter_append, List.singleton_append]

/-- No name is taken that is there already. -/
theorem nodup_append_passedOn (distinct : (own.map (·.1)).Nodup)
    (around : (outer.map (·.1)).Nodup) :
    ((own ++ passedOn own outer).map (·.1)).Nodup := by
  rw [List.map_append]
  refine distinct.append (nodup_passedOn around) ?_
  intro taken inside
  rw [List.mem_map]
  rintro ⟨entry, member, rfl⟩
  exact (mem_passedOn.mp member).2.2 inside

/-- The own value goes before the one from around. -/
theorem lookup_append_passedOn (around : (outer.map (·.1)).Nodup) :
    (own ++ passedOn own outer).lookup name =
      (own.lookup name).or ((outer.lookup name).filter (· != "")) := by
  rw [List.lookup_append]
  cases found : own.lookup name with
  | some value => rfl
  | none =>
      have absent : name ∉ own.map (·.1) := by
        rw [List.lookup_eq_none_iff] at found
        rw [List.mem_map]
        rintro ⟨entry, member, rfl⟩
        simpa using found entry member
      rw [Option.none_or, Option.none_or]
      ext value
      rw [Keyed.lookup_eq_some_iff_mem (nodup_passedOn around), mem_passedOn,
        Option.filter_eq_some_iff, Keyed.lookup_eq_some_iff_mem around]
      simp [absent]

/-- The order of the attributes says what they are. -/
theorem Inherits.of_order {inner : AttributeMap} (own_distinct : (own.map (·.1)).Nodup)
    (around : (outer.map (·.1)).Nodup)
    (order : inner.filter (·.1 != "style") = (own ++ passedOn own outer).filter (·.1 != "style"))
    (names : (inner.map (·.1)).Sublist ((own ++ passedOn own outer).map (·.1))) :
    Inherits own outer inner := by
  have together := nodup_append_passedOn own_distinct around
  have distinct := together.sublist names
  refine { value := ?_, order, names, distinct }
  intro name notStyle
  rw [← lookup_append_passedOn around]
  ext value
  rw [Keyed.lookup_eq_some_iff_mem distinct, Keyed.lookup_eq_some_iff_mem together]
  have kept (entries : AttributeMap) :
      (name, value) ∈ entries.filter (·.1 != "style") ↔ (name, value) ∈ entries := by
    simp [notStyle]
  rw [← kept, order, kept]

end AttributeMap

/-- Setting an attribute leaves those with other names as they are. -/
theorem Attribute.filter_name_set {name : String} {value : AttributeValue}
    {slots : List Attribute} :
    (set name value slots).filter (·.name != name) = slots.filter (·.name != name) := by
  induction slots with
  | nil => simp [set]
  | cons slot rest ih =>
      rw [set]
      split
      · next same => simp [same]
      · rw [List.filter_cons, List.filter_cons, ih]

namespace Element

variable {element : Element}

theorem map_fst_attributeMap (literals : element.HasLiterals) :
    element.attributeMap.map (·.1) = element.attributes.map (·.name) := by
  obtain ⟨tag, attributes, children⟩ := element
  unfold attributeMap
  unfold HasLiterals at literals
  induction attributes with
  | nil => rfl
  | cons slot rest ih =>
      obtain ⟨here, later⟩ := List.forall_mem_cons.mp literals
      obtain ⟨text, isText⟩ := Option.isSome_iff_exists.mp here
      have entry : slot.entry? = some (slot.name, text) := by
        rw [Attribute.entry?, isText, Option.map_some]
      rw [List.filterMap_cons_some entry, List.map_cons, List.map_cons, ih later]

theorem hasAttribute_iff_mem (literals : element.HasLiterals) (name : String) :
    element.hasAttribute name = true ↔ name ∈ element.attributeMap.map (·.1) := by
  rw [map_fst_attributeMap literals, hasAttribute, List.any_eq_true, List.mem_map]
  simp

theorem filter_attributeMap (element : Element) (name : String) :
    element.attributeMap.filter (·.1 != name) =
      (element.attributes.filter (·.name != name)).filterMap Attribute.entry? := by
  rw [attributeMap, List.filter_filterMap, List.filterMap_filter]
  congr
  funext slot
  rw [Attribute.entry?]
  cases slot.value.literal? with
  | none => simp
  | some text => rfl

end Element

namespace Sprite

open Attribute AttributeMap

variable {entries : AttributeMap} {element : Element}

theorem attributeMap_inherit (literals : element.HasLiterals) {entry : String × String}
    (named : entry.1 ≠ "") :
    (inherit element entry).attributeMap =
      element.attributeMap ++ passedOn element.attributeMap [entry] := by
  have present := Element.hasAttribute_iff_mem literals entry.1
  by_cases taken : entry.2 ≠ "" ∧ entry.1 ∉ element.attributeMap.map (·.1)
  · have added : inherit element entry = { element with
        attributes := element.attributes ++ [Attribute.text entry.1 entry.2] } := by
      rw [← present] at taken
      simp [inherit, named, taken.1, taken.2]
    rw [added, Element.attributeMap, List.filterMap_append, passedOn,
      List.filter_cons_of_pos (by simpa using taken)]
    rfl
  · have skipped : inherit element entry = element := by
      rw [← present, not_and_or, not_not, not_not] at taken
      exact if_pos (by simpa [or_assoc] using .inr taken)
    rw [skipped, passedOn, List.filter_cons_of_neg (by simpa using taken), List.filter_nil,
      List.append_nil]

/-- Taking attributes one after the other comes to taking those that are not there. -/
theorem attributeMap_foldl_inherit (source : AllSource element.attributes)
    (plain : ∀ entry ∈ entries, PlainName entry.1) (distinct : (entries.map (·.1)).Nodup) :
    (entries.foldl inherit element).attributeMap =
      element.attributeMap ++ passedOn element.attributeMap entries := by
  induction entries generalizing element with
  | nil => simp [passedOn]
  | cons entry rest ih =>
      obtain ⟨absent, distinct⟩ := List.nodup_cons.mp distinct
      obtain ⟨here, later⟩ := List.forall_mem_cons.mp plain
      rw [List.foldl_cons, ih (allSource_inherit source here) later distinct,
        attributeMap_inherit source.literals here.1, passedOn_cons absent, List.append_assoc]

/-- Showing an element changes nothing but its style. -/
theorem filter_attributeMap_shown (element : Element) :
    (shown element).attributeMap.filter (·.1 != "style") =
      element.attributeMap.filter (·.1 != "style") := by
  rw [Element.filter_attributeMap, Element.filter_attributeMap]
  rcases shown_cases element with same | same | ⟨style, _, same⟩
  · rw [same]
  · rw [same, List.filter_filter]
    simp only [Bool.and_self]
  · rw [same, Element.setAttribute, filter_name_set]

/-- Showing an element gives it no new attribute. -/
theorem names_shown_sublist (source : AllSource element.attributes) :
    ((shown element).attributeMap.map (·.1)).Sublist (element.attributeMap.map (·.1)) := by
  rw [Element.map_fst_attributeMap (allSource_shown source).literals,
    Element.map_fst_attributeMap source.literals]
  rcases shown_cases element with same | same | ⟨style, hasStyle, same⟩
  · rw [same]
  · rw [same]
    exact List.filter_sublist.map _
  · have present : "style" ∈ element.attributes.map (·.name) := by
      obtain ⟨slot, found, _⟩ := Option.bind_eq_some_iff.mp hasStyle
      exact List.mem_map.mpr ⟨slot, List.mem_of_find?_eq_some found,
        by simpa using List.find?_some found⟩
    rw [same, Element.setAttribute, map_name_set, if_pos present]

end Sprite

namespace Element

variable {root symbol : Element}

theorem IsAccepted.nodup_attributeMap (accepted : root.IsAccepted) :
    (root.attributeMap.map (·.1)).Nodup := by
  rw [map_fst_attributeMap accepted.literals]
  exact accepted.distinct

/-- What is inherited on the way from a document into that of a symbol in it. -/
theorem IsSource.inherits_standalone (isSource : root.IsSource)
    (member : symbol ∈ root.elements) :
    AttributeMap.Inherits symbol.attributeMap root.attributeMap
      (Sprite.standalone symbol root.attributeMap).attributeMap := by
  have around := isSource.accepted.here.nodup_attributeMap
  have accepted := (isSource.accepted.inside member).here
  have source : Attribute.AllSource symbol.attributes :=
    ⟨(isSource.plain.inside member).here.2, accepted.literals, accepted.distinct⟩
  have plain : ∀ entry ∈ root.attributeMap, PlainName entry.1 := fun entry inside =>
    plainName_of_mem_attributeMap isSource.plain.here inside
  let renamed : Element := { symbol with name := "svg" }
  have renamed_source : Attribute.AllSource renamed.attributes := source
  have together : (root.attributeMap.foldl Sprite.inherit renamed).attributeMap =
      symbol.attributeMap ++ AttributeMap.passedOn symbol.attributeMap root.attributeMap :=
    Sprite.attributeMap_foldl_inherit renamed_source plain around
  refine .of_order accepted.nodup_attributeMap around ?_ ?_
  · rw [← together]
    exact Sprite.filter_attributeMap_shown _
  · rw [← together]
    exact Sprite.names_shown_sublist (Sprite.allSource_foldl_inherit renamed_source plain)

theorem LeadsThrough.length_eq {ids : List String} {chain : List Element}
    (leads : root.LeadsThrough ids chain) : chain.length = ids.length := by
  simpa using congrArg List.length leads.ids

end Element

/-! ## Paths -/

namespace Asset

variable {root : Element}

theorem rootAttributes_direct (source : Source) (options : AssetOptions) (root : Element) :
    (direct source options root).rootAttributes = root.attributeMap := by
  rw [direct_eq]
  rfl

/-- The induction is on the path to the encloser: behind its first id it is a path in the
document of the symbol with that id. -/
theorem inherits_resolve_direct (source : Source) {options : AssetOptions}
    (bare : options.affixes = .empty) (isSource : root.IsSource) (names : root.HasNamedSymbols)
    {ids : List String} {id : String} {chain : List Element} {symbol : Element}
    (leads : root.LeadsThrough (ids ++ [id]) (chain ++ [symbol])) :
    ∃ encloser sprite, (direct source options root).resolve ids = .ok encloser ∧
      (direct source options root).resolve (ids ++ [id]) = .ok sprite ∧
        AttributeMap.Inherits symbol.attributeMap encloser.rootAttributes
          sprite.rootAttributes := by
  induction ids generalizing source options root chain with
  | nil =>
      obtain rfl : chain = [] := by simpa using leads.length_eq
      obtain ⟨member, isNamed, _⟩ := (Element.leadsThrough_cons_iff root.attributeMap).mp leads
      refine ⟨_, _, rfl, (resolve_direct_cons_eq_ok_iff source bare).mpr
        ⟨symbol, (Element.lastGiven?_eq_some_iff names).mpr ⟨member, isNamed⟩, rfl⟩, ?_⟩
      rw [rootAttributes_direct, rootAttributes_direct]
      exact isSource.inherits_standalone (Element.mem_elements_of_mem_symbols member)
  | cons first ids ih =>
      cases chain with
      | nil => exact absurd leads.length_eq (by simp)
      | cons outer chain =>
          obtain ⟨member, isNamed, inside⟩ :=
            (Element.leadsThrough_cons_iff root.attributeMap).mp leads
          have found := (Element.lastGiven?_eq_some_iff names).mpr ⟨member, isNamed⟩
          have bare' : options.forSprites.affixes = .empty := rfl
          obtain ⟨encloser, sprite, toEncloser, toSprite, inherits⟩ :=
            ih (.sprite first) bare'
              (isSource.standalone (Element.mem_elements_of_mem_symbols member))
              (names.of_sublist (Element.symbols_standalone_sublist member)) inside
          exact ⟨encloser, sprite,
            (resolve_direct_cons_eq_ok_iff source bare).mpr ⟨outer, found, toEncloser⟩,
            (resolve_direct_cons_eq_ok_iff source bare).mpr ⟨outer, found, toSprite⟩, inherits⟩

/-- In an asset without affixes, paths of ids resolve along chains of nested symbols, and the
sprite at the end of a path inherits its attributes from the one before it. The one before
the first sprite is the sheet. -/
theorem resolve_inherits {markup : String} (parsed : Markup.parse markup = .ok root)
    (plain : root.Plain) (names : root.HasNamedSymbols) (source : Source)
    (options : AssetOptions) (bare : options.affixes = .empty) :
    ∃ asset, build source options markup = .ok asset ∧
      asset.rootAttributes = root.attributeMap ∧
      (∀ ids sprite, asset.resolve ids = .ok sprite → ∃ chain, root.LeadsThrough ids chain) ∧
      ∀ ids id chain symbol, root.LeadsThrough (ids ++ [id]) (chain ++ [symbol]) →
        ∃ encloser sprite, asset.resolve ids = .ok encloser ∧
          asset.resolve (ids ++ [id]) = .ok sprite ∧
            AttributeMap.Inherits symbol.attributeMap encloser.rootAttributes
              sprite.rootAttributes := by
  have isSource := Element.IsSource.ofParse parsed plain
  refine ⟨direct source options root, build_eq_ok_direct source options isSource parsed,
    rootAttributes_direct source options root, ?_, ?_⟩
  · intro ids sprite resolved
    exact (exists_resolve_direct_iff source bare names ids).mp ⟨sprite, resolved⟩
  · intro ids id chain symbol leads
    exact inherits_resolve_direct source bare isSource names leads

/-- A symbol that sets its stroke to nothing. -/
def petal : Element := ⟨"symbol", [.text "id" "petal", .text "stroke" ""], []⟩

/-- A symbol with `petal` in it that has a fill, and sets its class to nothing. -/
def flower : Element :=
  ⟨"symbol", [.text "id" "flower", .text "fill" "red", .text "class" ""],
    [.element ⟨"g", [], [.element petal]⟩]⟩

def garden : Element :=
  ⟨"svg", [.text "viewBox" "0 0 8 8", .text "fill" "green", .text "class" "plant",
    .text "stroke" "black"], [.element flower]⟩

theorem resolve_inherits_garden :
    Markup.parse garden.serialize = .ok garden ∧ garden.Plain ∧ garden.HasNamedSymbols ∧
      AssetOptions.standard.affixes = .empty ∧
        ∃ asset, build .inline .standard garden.serialize = .ok asset ∧
          ∃ sprite, asset.resolve ["flower", "petal"] = .ok sprite ∧
            sprite.rootAttributes.lookup "viewBox" = some "0 0 8 8" ∧
              sprite.rootAttributes.lookup "fill" = some "red" ∧
                sprite.rootAttributes.lookup "class" = none ∧
                  sprite.rootAttributes.lookup "stroke" = some "" := by
  have parsed : Markup.parse garden.serialize = .ok garden :=
    Markup.parse_serialize_of_apart (by decide +kernel) (by decide)
  have plain : garden.Plain := by decide
  have names : garden.HasNamedSymbols := ⟨by decide, by decide⟩
  obtain ⟨asset, built, onRoot, _, inherits⟩ :=
    resolve_inherits parsed plain names .inline .standard rfl
  have first : flower ∈ garden.symbols := List.mem_of_getElem? (i := 0) rfl
  have second : petal ∈ garden.symbols := List.mem_of_getElem? (i := 1) rfl
  have below : petal ∈ flower.descendants := List.mem_of_getElem? (i := 1) rfl
  obtain ⟨sheet, encloser, isSheet, toFlower, fromSheet⟩ := inherits [] "flower" [] flower
    ⟨rfl, by simp [first], .singleton _⟩
  obtain ⟨encloser', sprite, isEncloser, toPetal, fromFlower⟩ :=
    inherits ["flower"] "petal" [flower] petal
      ⟨rfl, by simp [first, second], List.isChain_pair.mpr below⟩
  cases isSheet
  cases toFlower.symm.trans isEncloser
  have handedDown (name : String) (notStyle : name ≠ "style") :
      sprite.rootAttributes.lookup name = (petal.attributeMap.lookup name).or
        (((flower.attributeMap.lookup name).or
          ((garden.attributeMap.lookup name).filter (· != ""))).filter (· != "")) := by
    rw [fromFlower.value name notStyle, fromSheet.value name notStyle, onRoot]
  refine ⟨parsed, plain, names, rfl, asset, built, sprite, toPetal, ?_, ?_, ?_, ?_⟩
  · exact (handedDown "viewBox" (by decide)).trans (by decide)
  · exact (handedDown "fill" (by decide)).trans (by decide)
  · exact (handedDown "class" (by decide)).trans (by decide)
  · exact (handedDown "stroke" (by decide)).trans (by decide)

end Asset

end ThemedSvg

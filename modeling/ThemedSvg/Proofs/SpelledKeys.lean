/-
# Keys in shorthands

The keys of an occurrence are made of what its document says: an id, a class and a tag may be
any text, and a shorthand cannot have every text for a key. Keys without the marks of a shorthand
do the same in it as in any other parameters. A key with such a mark is out of its reach, which
only those can be that are made of an id, a class or a tag.
-/

import ThemedSvg.Proofs.LookupOrder
import ThemedSvg.Proofs.Shorthand

namespace ThemedSvg

open Params

/-- Digits have nothing to do with the marks of a shorthand. -/
theorem spellableKey_counted {stem : String} (spellable : SpellableKey stem) (n : Nat) :
    SpellableKey (stem ++ toString n) := by
  intro c member
  rw [toList_counted, List.mem_append] at member
  rcases member with inStem | inDigits
  · exact spellable c inStem
  · have isDigit := Nat.isDigit_of_mem_toDigits (by decide) (by decide) inDigits
    refine ⟨?_, ?_, ?_, Text.isSpace_of_isDigit isDigit⟩ <;> rintro rfl <;> cases isDigit

/-- What is related to the items of a list has one for each of its own. -/
theorem exists_of_forall₂_of_mem {α β : Type} {R : α → β → Prop} {first : List α}
    {second : List β} (related : List.Forall₂ R first second) {b : β} (member : b ∈ second) :
    ∃ a ∈ first, R a b := by
  induction related with
  | nil => cases member
  | cons head _ ih =>
      rcases List.mem_cons.mp member with rfl | later
      · exact ⟨_, List.mem_cons_self, head⟩
      · obtain ⟨a, inside, holds⟩ := ih later
        exact ⟨a, List.mem_cons_of_mem _ inside, holds⟩

theorem Paint.spellableKey_selector (paint : Paint) : SpellableKey paint.selector := by
  cases paint <;> decide

namespace Element

variable {element : Element} {paint : Paint} {number group : Nat} {key : String}

/-- A key that is made of an id, a class or a tag that cannot be spelled. -/
inductive MadeOfUnspellable (element : Element) (paint : Paint) : String → Prop
  | id {id : String} : element.literal? "id" = some id → ¬ SpellableKey id →
      MadeOfUnspellable element paint ("#" ++ id ++ paint.selector)
  | «class» {name : String} : element.literal? "class" = some name → ¬ SpellableKey name →
      MadeOfUnspellable element paint ("." ++ name ++ paint.selector)
  | tag : ¬ SpellableKey element.name →
      MadeOfUnspellable element paint (element.name ++ paint.selector)

theorem MadeOfUnspellable.not_spellableKey (made : element.MadeOfUnspellable paint key) :
    ¬ SpellableKey key := by
  intro spellable
  cases made with
  | id _ unspellable =>
      rw [spellableKey_append, spellableKey_append] at spellable
      exact unspellable spellable.1.2
  | «class» _ unspellable =>
      rw [spellableKey_append, spellableKey_append] at spellable
      exact unspellable spellable.1.2
  | tag unspellable =>
      rw [spellableKey_append] at spellable
      exact unspellable spellable.1

/-- Around an id, a class or a tag there is nothing that cannot be spelled. -/
theorem not_spellableKey_iff (member : key ∈ element.candidateKeys paint number group) :
    ¬ SpellableKey key ↔ element.MadeOfUnspellable paint key := by
  refine ⟨?_, MadeOfUnspellable.not_spellableKey⟩
  intro unspellable
  have selector := paint.spellableKey_selector
  have around {mark text : String} (isMark : SpellableKey mark)
      (unspellable : ¬ SpellableKey (mark ++ text ++ paint.selector)) : ¬ SpellableKey text := by
    intro spellable
    rw [spellableKey_append, spellableKey_append] at unspellable
    exact unspellable ⟨⟨isMark, spellable⟩, selector⟩
  simp only [candidateKeys, List.mem_append, List.mem_cons, List.not_mem_nil, or_false,
    Option.mem_toList, Option.map_eq_some_iff] at member
  rcases member with (((rfl | ⟨id, has, rfl⟩) | rfl) | ⟨name, has, rfl⟩) | rfl | rfl | rfl
  · exact absurd (spellableKey_counted (by decide) number) unspellable
  · exact .id has (around (by decide) unspellable)
  · exact absurd (spellableKey_counted (by decide) group) unspellable
  · exact .class has (around (by decide) unspellable)
  · exact .tag fun spellable => unspellable ((spellableKey_append _ _).mpr ⟨spellable, selector⟩)
  · exact absurd selector unspellable
  · exact absurd (by decide) unspellable

end Element

namespace Asset

/-- A key of an occurrence that can be spelled does in a shorthand what it does in any other
parameters, and one that cannot be spelled is out of reach of every shorthand. The latter are
made of an id, a class or a tag that cannot be spelled. -/
theorem shorthand_reaches_keys {source : Source} {options : AssetOptions} {markup : String}
    {asset : Asset} (built : build source options markup = .ok asset) {occurrence : Occurrence}
    (member : occurrence ∈ asset.catalog.occurrences) :
    ∃ root, Markup.parse markup = .ok root ∧ ∃ element ∈ root.elements, ∃ rank,
      occurrence.keys = element.candidateKeys occurrence.paint occurrence.number rank ∧
      ∀ key ∈ occurrence.keys,
        (SpellableKey key → ∀ value, SpellableValue value →
          asset.markup (.ofShorthand (key ++ ":" ++ value)) =
            asset.markup (.ofPairs [(key, value)])) ∧
        (¬ SpellableKey key → ∀ text, (ofShorthand text).held? key = none) ∧
        (¬ SpellableKey key ↔ element.MadeOfUnspellable occurrence.paint key) := by
  obtain ⟨root, groups, own, below, parsed, agrees⟩ := agrees_of_build built
  rw [agrees.occurrences, List.mem_flatten] at member
  obtain ⟨group, isGroup, member⟩ := member
  obtain ⟨lineage, isLineage, files⟩ := exists_of_forall₂_of_mem agrees.files isGroup
  obtain ⟨rank, keys⟩ := files.keys occurrence member
  have inside : lineage.element ∈ root.elements := by
    rw [← root.map_element_lineages []]
    exact List.mem_map_of_mem isLineage
  refine ⟨root, parsed, lineage.element, inside, rank, keys, fun key isKey => ⟨?_, ?_, ?_⟩⟩
  · intro spellable value spellable'
    have same : ofShorthand (fragment (key, value)) = ofPairs [(key, value)] :=
      ofShorthand_fragment ⟨spellable, spellable'⟩
    exact congrArg asset.markup same
  · exact held?_ofShorthand_eq_none
  · rw [keys] at isKey
    exact Element.not_spellableKey_iff isKey

/-- Two elements with a tag, ids and a class that cannot be spelled. -/
def labelled : Element :=
  ⟨"svg", [],
    [.element ⟨"x:rect", [.text "id" "a;b", .text "class" "c d", .text "fill" "#f00"], []⟩,
      .element ⟨"g", [.text "id" "e\"f", .text "fill" "#00f"], []⟩]⟩

theorem parse_labelled : Markup.parse labelled.serialize = .ok labelled :=
  Markup.parse_serialize_of_apart (by decide +kernel) (by decide)

theorem shorthand_reaches_keys_labelled :
    ∃ asset, build .inline .standard labelled.serialize = .ok asset ∧
      ∃ occurrence ∈ asset.catalog.occurrences, "color0" ∈ occurrence.keys ∧
        ".c d[fill]" ∈ occurrence.keys ∧
        asset.markup (.ofShorthand "color0:url(a:b)") =
          asset.markup (.ofPairs [("color0", "url(a:b)")]) ∧
        ∀ text, (ofShorthand text).held? ".c d[fill]" = none := by
  have built := build_eq_ok_direct .inline .standard (.ofParse parse_labelled (by decide))
    parse_labelled
  have filed : ∃ occurrence ∈ (direct .inline .standard labelled).catalog.occurrences,
      "color0" ∈ occurrence.keys ∧ ".c d[fill]" ∈ occurrence.keys := by
    rw [catalog_direct]
    decide +kernel
  obtain ⟨occurrence, member, number, «class»⟩ := filed
  obtain ⟨_, _, _, _, _, _, reach⟩ := shorthand_reaches_keys built member
  have same := (reach _ number).1 (by decide) "url(a:b)" (by decide)
  exact ⟨_, built, occurrence, member, number, «class», same, (reach _ «class»).2.1 (by decide)⟩

/-- White space, quotes, semicolons and colons each keep a key from doing in a shorthand what it
does in other parameters. -/
theorem keys_out_of_reach_labelled :
    labelled.serialize = "<svg><x:rect id=\"a;b\" class=\"c d\" fill=\"#f00\"/>" ++
        "<g id=\"e&quot;f\" fill=\"#00f\"/></svg>" ∧
      ∃ asset, build .inline .standard labelled.serialize = .ok asset ∧
        ∀ key ∈ [".c d[fill]", "#e\"f[fill]", "#a;b[fill]", "x:rect[fill]"],
          (∃ occurrence ∈ asset.catalog.occurrences, key ∈ occurrence.keys) ∧
            asset.markup (.ofShorthand (key ++ ":" ++ "lime")) ≠
              asset.markup (.ofPairs [(key, "lime")]) := by
  have built := build_eq_ok_direct .inline .standard (.ofParse parse_labelled (by decide))
    parse_labelled
  refine ⟨by decide +kernel, _, built, ?_⟩
  rw [catalog_direct, direct_eq]
  decide +kernel

end Asset

end ThemedSvg

/-
# Documents of symbols

A symbol that stands alone takes attributes from the root of its sheet. This module
shows that its document is one that a source could have, as the sheet is, and that it
has fewer symbols than the sheet.
-/

import Mathlib.Data.List.Nodup
import ThemedSvg.Proofs.Painting
import ThemedSvg.Proofs.SpriteWeight

namespace ThemedSvg

namespace Attribute

variable {slots : List Attribute} {name : String} {value : AttributeValue}

theorem nodup_concat {names : List String} (distinct : names.Nodup) (absent : name ∉ names) :
    (names ++ [name]).Nodup := by
  rw [List.nodup_append]
  refine ⟨distinct, List.nodup_singleton name, ?_⟩
  intro first inside last isLast
  rw [List.mem_singleton.mp isLast]
  rintro rfl
  exact absent inside

theorem nodup_set (distinct : (slots.map (·.name)).Nodup) :
    ((set name value slots).map (·.name)).Nodup := by
  rw [map_name_set]
  split
  · exact distinct
  · next absent => exact nodup_concat distinct absent

/-- What holds of the slots that are there and of the one that is set holds afterwards. -/
theorem forall_mem_set {Holds : Attribute → Prop} (all : ∀ slot ∈ slots, Holds slot)
    (new : Holds ⟨name, value⟩) : ∀ slot ∈ set name value slots, Holds slot := by
  induction slots with
  | nil => simpa [set] using new
  | cons slot rest ih =>
      rw [List.forall_mem_cons] at all
      rw [set]
      split
      · next isNamed =>
          rw [isNamed]
          exact List.forall_mem_cons.mpr ⟨new, all.2⟩
      · exact List.forall_mem_cons.mpr ⟨all.1, ih all.2⟩

/-- Attributes that a source could give an element. -/
structure AllSource (slots : List Attribute) : Prop where
  plain : ∀ slot ∈ slots, PlainName slot.name
  literals : ∀ slot ∈ slots, slot.value.literal?.isSome
  distinct : (slots.map (·.name)).Nodup

theorem AllSource.set (source : AllSource slots) (plain : PlainName name) (text : String) :
    AllSource (set name (.literal text) slots) where
  plain := forall_mem_set source.plain plain
  literals := forall_mem_set source.literals rfl
  distinct := nodup_set source.distinct

theorem AllSource.append (source : AllSource slots) (absent : ∀ slot ∈ slots, slot.name ≠ name)
    (plain : PlainName name) (value : String) : AllSource (slots ++ [text name value]) where
  plain := List.forall_mem_append.mpr ⟨source.plain, List.forall_mem_singleton.mpr plain⟩
  literals := List.forall_mem_append.mpr ⟨source.literals, List.forall_mem_singleton.mpr rfl⟩
  distinct := by
    rw [List.map_append, List.map_singleton]
    exact nodup_concat source.distinct fun inside => by
      obtain ⟨slot, member, same⟩ := List.mem_map.mp inside
      exact absent slot member same

theorem AllSource.sublist {few : List Attribute} (source : AllSource slots)
    (part : few.Sublist slots) : AllSource few where
  plain slot member := source.plain slot (part.subset member)
  literals slot member := source.literals slot (part.subset member)
  distinct := source.distinct.sublist (part.map _)

end Attribute

namespace Sprite

open Attribute

theorem allSource_shown {element : Element} (source : AllSource element.attributes) :
    AllSource (shown element).attributes := by
  rcases shown_cases element with same | same | ⟨style, _, same⟩
  · rw [same]
    exact source
  · rw [same]
    exact source.sublist List.filter_sublist
  · rw [same]
    exact source.set (by decide) _

theorem allSource_inherit {element : Element} {entry : String × String}
    (source : AllSource element.attributes) (plain : PlainName entry.1) :
    AllSource (inherit element entry).attributes := by
  rcases inherit_cases element entry with same | ⟨absent, same⟩
  · rw [same]
    exact source
  · rw [same]
    exact source.append (by simpa [Element.hasAttribute] using absent) plain entry.2

theorem allSource_foldl_inherit {entries : AttributeMap} {element : Element}
    (source : AllSource element.attributes) (plain : ∀ entry ∈ entries, PlainName entry.1) :
    AllSource (entries.foldl inherit element).attributes := by
  induction entries generalizing element with
  | nil => exact source
  | cons entry rest ih =>
      rw [List.forall_mem_cons] at plain
      exact ih (allSource_inherit source plain.1) plain.2

end Sprite

namespace Element

theorem plainName_of_mem_attributeMap {root : Element} (names : root.HasPlainNames)
    {entry : String × String} (member : entry ∈ root.attributeMap) : PlainName entry.1 := by
  obtain ⟨slot, inside, isEntry⟩ := List.mem_filterMap.mp member
  obtain ⟨text, _, rfl⟩ := Option.map_eq_some_iff.mp isEntry
  exact names.2 slot inside

/-- What holds in a document holds in each part of it. -/
theorem Each.inside {Holds : Element → Prop} {root inner : Element} (each : root.Each Holds)
    (member : inner ∈ root.elements) : inner.Each Holds :=
  fun element below => each element ((elements_sublist member).subset below)

/-- The document of a symbol is one that a source could have, like its sheet. -/
theorem IsSource.standalone {root symbol : Element} (source : root.IsSource)
    (member : symbol ∈ root.elements) :
    (Sprite.standalone symbol root.attributeMap).IsSource := by
  have plain := source.plain.inside member
  have accepted := source.accepted.inside member
  have slots : Attribute.AllSource (Sprite.standalone symbol root.attributeMap).attributes :=
    Sprite.allSource_shown (Sprite.allSource_foldl_inherit
      ⟨plain.here.2, accepted.here.literals, accepted.here.distinct⟩
      fun entry inside => plainName_of_mem_attributeMap source.plain.here inside)
  have plainTag : PlainName "svg" := by decide
  obtain ⟨name, attributes, children⟩ := symbol
  rw [Sprite.standalone_eq]
  exact {
    plain := each_mk.mpr ⟨⟨plainTag, slots.plain⟩, (each_mk.mp plain).2⟩
    accepted := each_mk.mpr
      ⟨⟨slots.literals, slots.distinct, accepted.here.sound⟩, (each_mk.mp accepted).2⟩ }

/-- Symbols in a part of a document are symbols of the document. -/
theorem symbols_sublist {root inner : Element} (member : inner ∈ root.elements) :
    inner.symbols.Sublist root.symbols := by
  rw [symbols_eq_filter, symbols_eq_filter]
  exact (elements_sublist member).filter _

/-- The document of a symbol has the symbols below it, and is no symbol itself. -/
theorem symbols_standalone (symbol : Element) (entries : AttributeMap) :
    (Sprite.standalone symbol entries).symbols = Node.symbolsOf symbol.children := by
  rw [Sprite.standalone_eq, symbols, if_neg (by decide), List.nil_append]

theorem length_symbols_standalone_lt {root symbol : Element} (member : symbol ∈ root.symbols)
    (entries : AttributeMap) :
    (Sprite.standalone symbol entries).symbols.length < root.symbols.length := by
  have inside := (symbols_sublist (mem_elements_of_mem_symbols member)).length_le
  have isSymbol := name_of_mem_symbols member
  rw [symbols_standalone]
  obtain ⟨name, attributes, children⟩ := symbol
  rw [symbols, if_pos isSymbol, List.singleton_append, List.length_cons] at inside
  exact inside

end Element

end ThemedSvg

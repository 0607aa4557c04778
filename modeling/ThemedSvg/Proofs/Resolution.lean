/-
# Paths to nested symbols

A symbol is a sprite of the sheet and of every symbol around it, for the document of a
symbol has all symbols below it. So a path of ids may leave out levels of the nesting, but
it cannot lead sideways or back up. This module shows that paths resolve exactly along
chains of symbols that lie in each other, if each symbol has an id of its own.
-/

import ThemedSvg.Proofs.Painting
import ThemedSvg.Proofs.Pieces
import ThemedSvg.Proofs.SpriteKeys

namespace ThemedSvg

namespace Element

/-- Each symbol of a document has an id, and no two have the same. -/
structure HasNamedSymbols (root : Element) : Prop where
  named : ∀ symbol ∈ root.symbols, ∃ id ∈ symbol.literal? "id", id ≠ ""
  distinct : (root.symbols.map (·.literal? "id")).Nodup

/-- Symbols of a document with these ids, each at any depth below the one before. -/
structure LeadsThrough (root : Element) (ids : List String) (chain : List Element) : Prop where
  ids : chain.map (·.literal? "id") = ids.map some
  symbols : ∀ symbol ∈ chain, symbol ∈ root.symbols
  nested : chain.IsChain fun outer inner => inner ∈ outer.descendants

variable {root symbol : Element} {id : String} {entries : AttributeMap}

theorem HasNamedSymbols.of_sublist {inner : Element} (names : root.HasNamedSymbols)
    (fewer : inner.symbols.Sublist root.symbols) : inner.HasNamedSymbols where
  named symbol member := names.named symbol (fewer.subset member)
  distinct := names.distinct.sublist (fewer.map _)

/-! ## The document of a symbol -/

/-- The symbols of the document are those below the symbol. -/
theorem mem_symbols_standalone {inner : Element} :
    inner ∈ (Sprite.standalone symbol entries).symbols ↔
      inner ∈ symbol.descendants ∧ inner.name = Sprite.tag := by
  rw [symbols_standalone, Node.symbolsOf_eq_filter, List.mem_filter, beq_iff_eq, descendants]

theorem symbols_standalone_sublist (member : symbol ∈ root.symbols) :
    (Sprite.standalone symbol entries).symbols.Sublist root.symbols := by
  apply List.Sublist.trans _ (symbols_sublist (mem_elements_of_mem_symbols member))
  rw [symbols_standalone]
  obtain ⟨name, attributes, children⟩ := symbol
  exact List.sublist_append_right _ _

theorem name_standalone (symbol : Element) (entries : AttributeMap) :
    (Sprite.standalone symbol entries).name = "svg" := by
  rw [Sprite.standalone_eq]

/-- A chain goes on in the document of its first symbol. -/
theorem leadsThrough_cons_iff (entries : AttributeMap) {ids : List String}
    {chain : List Element} :
    root.LeadsThrough (id :: ids) (symbol :: chain) ↔
      symbol ∈ root.symbols ∧ symbol.literal? "id" = some id ∧
        (Sprite.standalone symbol entries).LeadsThrough ids chain := by
  constructor
  · rintro ⟨isNamed, symbols, nested⟩
    rw [List.map_cons, List.map_cons, List.cons.injEq] at isNamed
    rw [List.forall_mem_cons] at symbols
    refine ⟨symbols.1, isNamed.1, isNamed.2, ?_, nested.tail⟩
    -- the symbol after the first one is below it, and so are all that follow
    have below : ∀ inner ∈ chain, inner ∈ symbol.descendants := by
      have : Trans (fun outer inner : Element => inner ∈ outer.descendants)
          (fun outer inner => inner ∈ outer.descendants)
          (fun outer inner => inner ∈ outer.descendants) := ⟨mem_descendants_trans⟩
      exact (List.pairwise_cons.mp (List.isChain_iff_pairwise.mp nested)).1
    intro inner member
    exact mem_symbols_standalone.mpr
      ⟨below inner member, name_of_mem_symbols (symbols.2 inner member)⟩
  · rintro ⟨isSymbol, isNamed, ids, symbols, nested⟩
    refine ⟨by rw [List.map_cons, List.map_cons, isNamed, ids], ?_, ?_⟩
    · exact List.forall_mem_cons.mpr ⟨isSymbol, fun inner member =>
        (symbols_standalone_sublist isSymbol).subset (symbols inner member)⟩
    · refine List.isChain_cons.mpr ⟨?_, nested⟩
      intro inner first
      exact (mem_symbols_standalone.mp (symbols inner (List.mem_of_mem_head? first))).1

/-! ## The symbol of a key -/

/-- Symbols with ids are given their ids as keys. -/
theorem mem_given_iff {symbols : List Element}
    (named : ∀ symbol ∈ symbols, ∃ id ∈ symbol.literal? "id", id ≠ "")
    (taken : List String) {key : String} :
    (key, symbol) ∈ Sprite.given taken symbols ↔
      symbol ∈ symbols ∧ symbol.literal? "id" = some key := by
  induction symbols generalizing taken with
  | nil => simp [Sprite.given]
  | cons first rest ih =>
      rw [List.forall_mem_cons] at named
      obtain ⟨⟨id, isNamed, nonempty⟩, later⟩ := named
      have given : Sprite.id first taken.length = id := by
        rw [Sprite.id, isNamed]
        exact if_neg nonempty
      rw [Sprite.given, given, List.mem_cons, List.mem_cons, ih later, Prod.mk.injEq]
      constructor
      · rintro (⟨rfl, rfl⟩ | ⟨member, hasKey⟩)
        · exact ⟨.inl rfl, isNamed⟩
        · exact ⟨.inr member, hasKey⟩
      · rintro ⟨rfl | member, hasKey⟩
        · exact .inl ⟨Option.some.inj (hasKey.symm.trans isNamed), rfl⟩
        · exact .inr ⟨member, hasKey⟩

/-- Among symbols with ids of their own, a key leads to the one that has it. -/
theorem lastGiven?_eq_some_iff (names : root.HasNamedSymbols) :
    root.lastGiven? id = some symbol ↔
      symbol ∈ root.symbols ∧ symbol.literal? "id" = some id := by
  have found {other : Element} (last : root.lastGiven? id = some other) :
      other ∈ root.symbols ∧ other.literal? "id" = some id := by
    obtain ⟨⟨key, symbol⟩, isLast, rfl⟩ := Option.map_eq_some_iff.mp last
    have isKey : key = id := by simpa using List.find?_some isLast
    have member := List.mem_reverse.mp (List.mem_of_find?_eq_some isLast)
    rw [isKey] at member
    exact (mem_given_iff names.named []).mp member
  refine ⟨found, ?_⟩
  intro isNamed
  have member := (mem_given_iff names.named []).mpr isNamed
  have exists_last : (root.lastGiven? id).isSome := by
    rw [lastGiven?, Sprite.lastOf?, Option.isSome_map, List.find?_isSome]
    exact ⟨_, List.mem_reverse.mpr member, by simp⟩
  obtain ⟨other, last⟩ := Option.isSome_iff_exists.mp exists_last
  have other_named := found last
  rw [last, List.inj_on_of_nodup_map names.distinct other_named.1 isNamed.1
    (other_named.2.trans isNamed.2.symm)]

end Element

/-! ## The root of a template -/

theorem Element.name_injectSizeHooks (root : Element) :
    root.injectSizeHooks.name = root.name := by
  unfold injectSizeHooks
  split <;> rfl

theorem Element.name_annotate (catalog : Catalog) (parent : String) (root : Element) :
    (root.annotate catalog parent).2.name = root.name := by
  obtain ⟨name, attributes, children⟩ := root
  rw [annotate_mk]
  exact (Catalog.repaints_record _ _ _).name_eq

theorem Asset.name_hooked (catalog : Catalog) (root : Element) :
    (hooked catalog root).name = root.name := by
  rw [hooked, Element.name_injectSizeHooks]
  split <;> rfl

namespace Template

/-- What opens with the tag of an `svg` does not open with that of a symbol. -/
theorem not_opensWith_symbol {template : Template} (opens : template.OpensWith "svg") :
    ¬ template.OpensWith "symbol" := by
  rintro ⟨mark', _, text', rest', opens'⟩
  obtain ⟨mark, _, text, rest, opens⟩ := opens
  rw [opens, List.cons.injEq, Segment.literal.injEq, ← String.toList_inj] at opens'
  simp at opens'

end Template

/-! ## Assets -/

namespace Asset

variable {root : Element}

theorem opensWith_direct (source : Source) (options : AssetOptions) (root : Element) :
    (direct source options root).template.OpensWith root.name := by
  have opens := Template.opensWith_compile
    (hooked (root.annotate Catalog.empty "").1 (root.annotate Catalog.empty "").2)
  rw [name_hooked, Element.name_annotate] at opens
  rw [direct_eq]
  exact opens

/-- Without affixes, a path goes on in the document of the symbol that its first id is
given to. -/
theorem resolve_direct_cons_eq_ok_iff (source : Source) {options : AssetOptions}
    (bare : options.affixes = .empty) {id : String} {ids : List String} {sprite : Asset} :
    (direct source options root).resolve (id :: ids) = .ok sprite ↔
      ∃ symbol, root.lastGiven? id = some symbol ∧
        (direct (.sprite id) options.forSprites
          (Sprite.standalone symbol root.attributeMap)).resolve ids = .ok sprite := by
  have wrapped : (direct source options root).options.affixes.wrap id = id := by
    rw [direct_eq]
    show options.affixes.wrap id = id
    simp [bare, Affixes.wrap, Affixes.empty]
  rw [resolve, wrapped, find?_sprites_direct]
  cases root.lastGiven? id with
  | none => simp
  | some symbol => simp

/-- The induction is on the path: behind its first id it is a path in the document of the
symbol with that id. -/
theorem exists_resolve_direct_iff (source : Source) {options : AssetOptions}
    (bare : options.affixes = .empty) (names : root.HasNamedSymbols) (ids : List String) :
    (∃ sprite, (direct source options root).resolve ids = .ok sprite) ↔
      ∃ chain, root.LeadsThrough ids chain := by
  induction ids generalizing source options root with
  | nil => exact iff_of_true ⟨_, rfl⟩ ⟨[], rfl, List.forall_mem_nil _, .nil⟩
  | cons id ids ih =>
      have inside {symbol : Element} (member : symbol ∈ root.symbols) :
          (∃ sprite, (direct (.sprite id) options.forSprites
            (Sprite.standalone symbol root.attributeMap)).resolve ids = .ok sprite) ↔
          ∃ chain, (Sprite.standalone symbol root.attributeMap).LeadsThrough ids chain :=
        ih (.sprite id) rfl (names.of_sublist (Element.symbols_standalone_sublist member))
      constructor
      · rintro ⟨sprite, resolved⟩
        obtain ⟨symbol, found, resolved⟩ := (resolve_direct_cons_eq_ok_iff source bare).mp resolved
        obtain ⟨member, isNamed⟩ := (Element.lastGiven?_eq_some_iff names).mp found
        obtain ⟨chain, leads⟩ := (inside member).mp ⟨sprite, resolved⟩
        exact ⟨symbol :: chain,
          (Element.leadsThrough_cons_iff root.attributeMap).mpr ⟨member, isNamed, leads⟩⟩
      · rintro ⟨chain, leads⟩
        cases chain with
        | nil => cases leads.ids
        | cons symbol chain =>
            obtain ⟨member, isNamed, leads⟩ :=
              (Element.leadsThrough_cons_iff root.attributeMap).mp leads
            obtain ⟨sprite, resolved⟩ := (inside member).mpr ⟨chain, leads⟩
            exact ⟨sprite, (resolve_direct_cons_eq_ok_iff source bare).mpr
              ⟨symbol, (Element.lastGiven?_eq_some_iff names).mpr ⟨member, isNamed⟩, resolved⟩⟩

/-- At the end of a path that is not empty stands the document of a symbol. -/
theorem opensWith_svg_of_resolve_direct (source : Source) {options : AssetOptions}
    (bare : options.affixes = .empty) {id : String} {ids : List String} {sprite : Asset}
    (resolved : (direct source options root).resolve (id :: ids) = .ok sprite) :
    sprite.template.OpensWith "svg" := by
  induction ids generalizing source options root id with
  | nil =>
      obtain ⟨symbol, _, here⟩ := (resolve_direct_cons_eq_ok_iff source bare).mp resolved
      cases here
      rw [← Element.name_standalone symbol root.attributeMap]
      exact opensWith_direct ..
  | cons next ids ih =>
      obtain ⟨symbol, _, below⟩ := (resolve_direct_cons_eq_ok_iff source bare).mp resolved
      exact ih (.sprite id) rfl below

/-- In an asset without affixes, paths of ids resolve along chains of nested symbols, and
along no others. At their end stands an `svg`. -/
theorem exists_resolve_iff_leadsThrough {markup : String}
    (parsed : Markup.parse markup = .ok root) (plain : root.Plain)
    (names : root.HasNamedSymbols) (source : Source) (options : AssetOptions)
    (bare : options.affixes = .empty) :
    ∃ asset, build source options markup = .ok asset ∧
      ∀ ids,
        ((∃ sprite, asset.resolve ids = .ok sprite) ↔ ∃ chain, root.LeadsThrough ids chain) ∧
          (ids ≠ [] → ∀ sprite, asset.resolve ids = .ok sprite →
            sprite.template.OpensWith "svg" ∧ ¬ sprite.template.OpensWith "symbol") := by
  have isSource := Element.IsSource.ofParse parsed plain
  refine ⟨direct source options root, build_eq_ok_direct source options isSource parsed, ?_⟩
  intro ids
  refine ⟨exists_resolve_direct_iff source bare names ids, ?_⟩
  intro nonempty sprite resolved
  cases ids with
  | nil => exact absurd rfl nonempty
  | cons id ids =>
      have opens := opensWith_svg_of_resolve_direct source bare resolved
      exact ⟨opens, Template.not_opensWith_symbol opens⟩

/-- A symbol that lies deep in another one. -/
def innerSymbol : Element := ⟨"symbol", [.text "id" "c"], []⟩

/-- A symbol with a symbol below it that holds `innerSymbol` in a group. -/
def outerSymbol : Element :=
  ⟨"symbol", [.text "id" "a"], [.element ⟨"symbol", [.text "id" "b"],
    [.element ⟨"g", [], [.element innerSymbol]⟩]⟩]⟩

def nestedSheet : Element := ⟨"svg", [], [.element outerSymbol]⟩

theorem exists_resolve_nestedSheet :
    Markup.parse nestedSheet.serialize = .ok nestedSheet ∧ nestedSheet.Plain ∧
      nestedSheet.HasNamedSymbols ∧ AssetOptions.standard.affixes = .empty ∧
        ∃ asset, build .inline .standard nestedSheet.serialize = .ok asset ∧
          ∃ sprite, asset.resolve ["a", "c"] = .ok sprite ∧
            sprite.template.OpensWith "svg" ∧ ¬ sprite.template.OpensWith "symbol" := by
  have parsed : Markup.parse nestedSheet.serialize = .ok nestedSheet :=
    Markup.parse_serialize_of_apart (by decide +kernel) (by decide)
  have plain : nestedSheet.Plain := by decide
  have names : nestedSheet.HasNamedSymbols := ⟨by decide, by decide⟩
  obtain ⟨asset, built, resolves⟩ :=
    exists_resolve_iff_leadsThrough parsed plain names .inline .standard rfl
  obtain ⟨leads, opens⟩ := resolves ["a", "c"]
  -- the path leaves out the symbol in between
  have first : outerSymbol ∈ nestedSheet.symbols := List.mem_of_getElem? (i := 0) rfl
  have second : innerSymbol ∈ nestedSheet.symbols := List.mem_of_getElem? (i := 2) rfl
  have below : innerSymbol ∈ outerSymbol.descendants := List.mem_of_getElem? (i := 2) rfl
  have chain : nestedSheet.LeadsThrough ["a", "c"] [outerSymbol, innerSymbol] :=
    ⟨rfl, by simp [first, second], List.isChain_pair.mpr below⟩
  obtain ⟨sprite, resolved⟩ := leads.mpr ⟨_, chain⟩
  exact ⟨parsed, plain, names, rfl, asset, built, sprite, resolved,
    opens (by decide) sprite resolved⟩

end Asset

end ThemedSvg

/-
# Which symbol a key leads to

Symbols are given keys one after the other, and a key that is given again leads to the
later symbol from then on. This module follows keys in the tree alone, and shows that
the sprites of an asset are found the same way: at the end of a path of keys stands the
asset that is made directly of the document at the end of that path.
-/

import ThemedSvg.Proofs.Direct

namespace ThemedSvg

namespace Sprite

/-- The keys that symbols are given in document order. `taken` are the keys given before,
each once. -/
def given (taken : List String) : List Element → List (String × Element)
  | [] => []
  | symbol :: rest =>
      let key := id symbol taken.length
      (key, symbol) :: given (taken.insert key) rest

/-- The last of them that has a key. -/
def lastOf? (key : String) (symbols : List (String × Element)) : Option Element :=
  (symbols.reverse.find? (·.1 == key)).map (·.2)

theorem lastOf?_cons (key : String) (first : String × Element)
    (rest : List (String × Element)) :
    lastOf? key (first :: rest) =
      (lastOf? key rest).or (if first.1 = key then some first.2 else none) := by
  rw [lastOf?, lastOf?, List.reverse_cons, List.find?_append, List.find?_singleton]
  cases rest.reverse.find? (·.1 == key) with
  | some found => rfl
  | none =>
      by_cases isKey : first.1 = key
      · simp [isKey]
      · simp [isKey]

theorem mem_of_mem_given {taken : List String} {symbols : List Element}
    {pair : String × Element} (member : pair ∈ given taken symbols) : pair.2 ∈ symbols := by
  induction symbols generalizing taken with
  | nil => cases member
  | cons symbol rest ih =>
      rcases List.mem_cons.mp member with rfl | later
      · exact List.mem_cons_self
      · exact List.mem_cons_of_mem _ (ih later)

end Sprite

namespace Element

/-- The last symbol in document order that is given a key. -/
def lastGiven? (root : Element) (key : String) : Option Element :=
  Sprite.lastOf? key (Sprite.given [] root.symbols)

/-- The document at the end of a path of keys, as the source has it: the symbol that the
key leads to, with what it inherits from the root of the document around it. -/
def documentAt? (root : Element) : List String → Option Element
  | [] => some root
  | key :: path =>
      (root.lastGiven? key).bind fun symbol =>
        (Sprite.standalone symbol root.attributeMap).documentAt? path

end Element

namespace Asset

/-- The asset at the end of a path of keys. -/
def spriteAt? (asset : Asset) : List String → Option Asset
  | [] => some asset
  | key :: path => (Keyed.find? key asset.sprites).bind (·.spriteAt? path)

variable {options : AssetOptions} {entries : AttributeMap}

/-- The keys in a list of sprites are those that were given, so they are counted alike. -/
structure Counts (taken : List String) (sprites : List (String × Asset)) : Prop where
  ordered : Keyed.Ordered sprites
  length : taken.length = sprites.length
  mem : ∀ key, key ∈ taken ↔ (Keyed.find? key sprites).isSome

theorem Counts.insert {taken : List String} {sprites : List (String × Asset)}
    (counts : Counts taken sprites) (key : String) (sprite : Asset) :
    Counts (taken.insert key) (Keyed.insert key sprite sprites) where
  ordered := Keyed.ordered_insert counts.ordered
  length := by
    rw [Keyed.length_insert counts.ordered]
    by_cases known : key ∈ taken
    · rw [List.insert_of_mem known, if_pos ((counts.mem key).mp known), counts.length]
    · rw [List.insert_of_not_mem known, if_neg fun found => known ((counts.mem key).mpr found),
        List.length_cons, counts.length]
  mem other := by
    rw [List.mem_insert_iff]
    by_cases same : other = key
    · simp [same]
    · rw [Keyed.find?_insert_of_ne same, ← counts.mem]
      simp [same]

/-- A key leads to the last symbol that was given it, or to what was there before. -/
theorem find?_foldl_addDirect {taken : List String} {sprites : List (String × Asset)}
    (counts : Counts taken sprites) (symbols : List Element) (key : String) :
    Keyed.find? key (symbols.foldl (addDirect options entries) sprites) =
      ((Sprite.lastOf? key (Sprite.given taken symbols)).map fun symbol =>
        direct (.sprite key) options.forSprites (Sprite.standalone symbol entries)).or
          (Keyed.find? key sprites) := by
  induction symbols generalizing taken sprites with
  | nil => rfl
  | cons symbol rest ih =>
      have added := counts.insert (Sprite.id symbol sprites.length)
        (direct (.sprite (Sprite.id symbol sprites.length)) options.forSprites
          (Sprite.standalone symbol entries))
      rw [List.foldl_cons, addDirect, ih added, Sprite.given, counts.length, Sprite.lastOf?_cons]
      cases Sprite.lastOf? key
        (Sprite.given (taken.insert (Sprite.id symbol sprites.length)) rest) with
      | some later => rfl
      | none =>
          by_cases isKey : Sprite.id symbol sprites.length = key
          · subst isKey
            simp
          · rw [Keyed.find?_insert_of_ne (Ne.symm isKey)]
            simp [isKey]

theorem find?_sprites_direct (source : Source) (options : AssetOptions) (root : Element)
    (key : String) :
    Keyed.find? key (direct source options root).sprites =
      (root.lastGiven? key).map fun symbol =>
        direct (.sprite key) options.forSprites (Sprite.standalone symbol root.attributeMap) := by
  have none : Counts [] [] := ⟨List.Pairwise.nil, rfl, by simp [Keyed.find?]⟩
  rw [direct_eq]
  show Keyed.find? key (root.symbols.foldl (addDirect options root.attributeMap) []) = _
  rw [find?_foldl_addDirect none]
  simp [Keyed.find?, Element.lastGiven?]

/-- The induction is on the path: each key leads to a document that is made directly. -/
theorem spriteAt?_direct (source : Source) (options : AssetOptions) (root : Element)
    (path : List String) (key : String) :
    (direct source options root).spriteAt? (path ++ [key]) =
      (root.documentAt? (path ++ [key])).map (direct (.sprite key) options.forSprites) := by
  induction path generalizing source options root with
  | nil =>
      rw [List.nil_append, spriteAt?, Element.documentAt?, find?_sprites_direct]
      cases root.lastGiven? key <;> rfl
  | cons first path ih =>
      rw [List.cons_append, spriteAt?, Element.documentAt?, find?_sprites_direct]
      cases root.lastGiven? first with
      | none => rfl
      | some symbol => exact ih (.sprite first) options.forSprites _

/-- The documents on the paths are as the source has them: no hole is in them. -/
theorem isSource_of_documentAt? {root document : Element} {path : List String}
    (source : root.IsSource) (found : root.documentAt? path = some document) :
    document.IsSource := by
  induction path generalizing root with
  | nil =>
      cases found
      exact source
  | cons key path ih =>
      obtain ⟨symbol, given, found⟩ := Option.bind_eq_some_iff.mp found
      obtain ⟨pair, last, rfl⟩ := Option.map_eq_some_iff.mp given
      have member := List.mem_reverse.mp (List.mem_of_find?_eq_some last)
      exact ih (source.standalone (Element.mem_elements_of_mem_symbols
        (Sprite.mem_of_mem_given member))) found

/-- Building succeeds whenever parsing does. Under each path of keys it leaves the asset
that is made directly of the document there, which holds nothing but literal text. -/
theorem build_transparent (markup : String)
    (plain : ∀ root, Markup.parse markup = .ok root → root.Plain)
    (source : Source) (options : AssetOptions) :
    build source options markup = (Markup.parse markup).map (direct source options) ∧
      ((∃ asset, ofMarkup markup options = .ok asset) ↔
        ∃ root, Markup.parse markup = .ok root) ∧
      ∀ root asset, Markup.parse markup = .ok root → build source options markup = .ok asset →
        ∀ path key,
          asset.spriteAt? (path ++ [key]) =
              (root.documentAt? (path ++ [key])).map (direct (.sprite key) options.forSprites) ∧
            ∀ document ∈ root.documentAt? (path ++ [key]), document.Each Element.HasLiterals := by
  have built (source : Source) : build source options markup =
      (Markup.parse markup).map (direct source options) := by
    cases parsed : Markup.parse markup with
    | error fault =>
        rw [build_eq, parsed]
        rfl
    | ok root =>
        have isSource := Element.IsSource.ofParse parsed (plain root parsed)
        exact build_eq_ok_direct source options isSource parsed
  refine ⟨built source, ?_, ?_⟩
  · rw [ofMarkup, built .inline]
    cases Markup.parse markup with
    | error fault => simp [Except.map]
    | ok root => simp [Except.map]
  · intro root asset parsed isAsset path key
    rw [built source, parsed] at isAsset
    cases isAsset
    refine ⟨spriteAt?_direct source options root path key, ?_⟩
    intro document found
    exact (isSource_of_documentAt? (.ofParse parsed (plain root parsed)) found).literals

/-- A sheet with two symbols of one id, the later of which holds a symbol without one. -/
def sheet : Element :=
  ⟨"svg", [.text "fill" "red", .text "title" "\"a\" & b"],
    [.element ⟨"symbol", [.text "id" "a"], [.text "early"]⟩,
      .element ⟨"symbol", [.text "id" "a", .text "style" "display:none;"],
        [.element ⟨"symbol", [.text "stroke" "blue"], [.text "inner"]⟩]⟩]⟩

theorem build_transparent_sheet :
    sheet.Plain ∧ Markup.parse sheet.serialize = .ok sheet ∧
      ∃ asset, build .inline .standard sheet.serialize = .ok asset ∧
        asset.spriteAt? ["a", "sprite0"] = some (direct (.sprite "sprite0") .standard
          ⟨"svg", [.text "stroke" "blue", .text "id" "a", .text "fill" "red",
            .text "title" "\"a\" & b"], [.text "inner"]⟩) := by
  have plain : sheet.Plain := by decide
  have parsed : Markup.parse sheet.serialize = .ok sheet :=
    Markup.parse_serialize_of_apart (by decide +kernel) (by decide)
  have transparent := build_transparent sheet.serialize
    (fun root again => by rw [parsed] at again; cases again; exact plain) .inline .standard
  refine ⟨plain, parsed, direct .inline .standard sheet, ?_, ?_⟩
  · rw [transparent.1, parsed]
    rfl
  · have found : sheet.documentAt? ["a", "sprite0"] =
        some ⟨"svg", [.text "stroke" "blue", .text "id" "a", .text "fill" "red",
            .text "title" "\"a\" & b"], [.text "inner"]⟩ := by
      rfl
    have isAsset : build .inline .standard sheet.serialize =
        .ok (direct .inline .standard sheet) := by
      rw [transparent.1, parsed]
      rfl
    rw [show ["a", "sprite0"] = ["a"] ++ ["sprite0"] from rfl,
      (transparent.2.2 sheet _ parsed isAsset ["a"] "sprite0").1, List.singleton_append, found]
    rfl

end Asset

end ThemedSvg

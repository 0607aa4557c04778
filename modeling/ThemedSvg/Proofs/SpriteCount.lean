/-
# Sprites that are lost

A symbol without an id is given one that counts the sprites before it. Another symbol may
have that id as its own, and then the later one takes the key over. This module compares
the keys with those that symbols would get if each was counted by its place among them.
If these are all different, every symbol stays under its key. If not, a sprite is lost,
and even ids that are all different do not prevent it.
-/

import ThemedSvg.Proofs.Overrides

namespace ThemedSvg

namespace Sprite

variable {symbols : List Element} {symbol : Element}

/-- The id that a symbol has of its own. An empty one is none. -/
def ownId? (symbol : Element) : Option String := (symbol.literal? "id").filter (· ≠ "")

/-- The ids of symbols if each is counted by its place behind `count` others. -/
def keysFrom (count : Nat) : List Element → List String
  | [] => []
  | symbol :: rest => id symbol count :: keysFrom (count + 1) rest

theorem id_eq (symbol : Element) (count : Nat) :
    id symbol count = (ownId? symbol).getD s!"sprite{count}" := by
  rw [id, ownId?]
  cases symbol.literal? "id" with
  | none => rfl
  | some own =>
      by_cases isEmpty : own = ""
      · simp [isEmpty, Option.filter]
      · simp [isEmpty, Option.filter]

theorem getElem?_keysFrom (count : Nat) (symbols : List Element) (place : Nat) :
    (keysFrom count symbols)[place]? = symbols[place]?.map (id · (count + place)) := by
  induction symbols generalizing count place with
  | nil => rfl
  | cons symbol rest ih =>
      cases place with
      | zero => rfl
      | succ place =>
          rw [keysFrom, List.getElem?_cons_succ, List.getElem?_cons_succ, ih]
          exact congrArg (fun behind => rest[place]?.map (id · behind)) (by omega)

/-- Ids of their own at different places are different. -/
theorem ownId?_ne_of_nodup (distinct : (symbols.filterMap ownId?).Nodup) {place place' : Nat}
    {other : Element} {own : String} (here : symbols[place]? = some symbol)
    (there : symbols[place']? = some other) (differ : place ≠ place')
    (hasOwn : ownId? symbol = some own) : ownId? other ≠ some own := by
  have apart {first second : Nat} {a b : Element} (before : first < second)
      (isFirst : symbols[first]? = some a) (isSecond : symbols[second]? = some b) :
      ∀ x ∈ ownId? a, ∀ y ∈ ownId? b, x ≠ y := by
    have pairs := List.pairwise_filterMap.mp distinct
    obtain ⟨inside, rfl⟩ := List.getElem?_eq_some_iff.mp isFirst
    obtain ⟨inside', rfl⟩ := List.getElem?_eq_some_iff.mp isSecond
    exact List.pairwise_iff_getElem.mp pairs first second inside inside' before
  intro same
  rcases Nat.lt_or_gt_of_ne differ with before | behind
  · exact apart before here there own hasOwn own same rfl
  · exact apart behind there here own same own hasOwn rfl

/-- Symbols without an id are not counted up to the id of another symbol. -/
def CountedApart (symbols : List Element) : Prop :=
  ∀ entry ∈ symbols.zipIdx, ownId? entry.1 = none →
    ∀ other ∈ symbols, ownId? other ≠ some s!"sprite{entry.2}"

instance (symbols : List Element) : Decidable (CountedApart symbols) :=
  inferInstanceAs (Decidable (∀ entry ∈ symbols.zipIdx, _))

theorem CountedApart.ownId?_ne (apart : CountedApart symbols) {place : Nat} {other : Element}
    (here : symbols[place]? = some symbol) (noOwn : ownId? symbol = none)
    (member : other ∈ symbols) : ownId? other ≠ some s!"sprite{place}" :=
  apart (symbol, place) (List.mk_mem_zipIdx_iff_getElem?.mpr here) noOwn other member

/-- By its place, each symbol then has an id that no other symbol has. -/
theorem CountedApart.id_ne (apart : CountedApart symbols)
    (distinct : (symbols.filterMap ownId?).Nodup) {place place' : Nat} {other : Element}
    (here : symbols[place]? = some symbol) (there : symbols[place']? = some other)
    (differ : place ≠ place') : id symbol place ≠ id other place' := by
  rw [id_eq, id_eq]
  intro same
  cases own : ownId? symbol with
  | none =>
      cases own' : ownId? other with
      | none =>
          rw [own, own'] at same
          exact differ (counted_inj same)
      | some key =>
          rw [own, own'] at same
          exact apart.ownId?_ne here own (List.mem_of_getElem? there)
            (own'.trans (congrArg some same.symm))
  | some key =>
      cases own' : ownId? other with
      | none =>
          rw [own, own'] at same
          exact apart.ownId?_ne there own' (List.mem_of_getElem? here)
            (own.trans (congrArg some same))
      | some key' =>
          rw [own, own'] at same
          exact ownId?_ne_of_nodup distinct here there differ own
            (own'.trans (congrArg some same.symm))

/-- Where no two symbols have one id, only an id that is counted up to can make two keys
the same. -/
theorem nodup_keysFrom_iff (distinct : (symbols.filterMap ownId?).Nodup) :
    (keysFrom 0 symbols).Nodup ↔ CountedApart symbols := by
  constructor
  · rintro nodup ⟨symbol, place⟩ isHere noOwn other member hasOwn
    have here := List.mk_mem_zipIdx_iff_getElem?.mp isHere
    obtain ⟨place', there⟩ := List.mem_iff_getElem?.mp member
    have key : (keysFrom 0 symbols)[place]? = some s!"sprite{place}" := by
      rw [getElem?_keysFrom, here, Option.map_some, id_eq, noOwn, Nat.zero_add]
      rfl
    have key' : (keysFrom 0 symbols)[place']? = some s!"sprite{place}" := by
      rw [getElem?_keysFrom, there, Option.map_some, id_eq, hasOwn]
      rfl
    have inside := (List.getElem?_eq_some_iff.mp key).1
    obtain rfl := (List.getElem?_inj inside nodup).mp (key.trans key'.symm)
    rw [here] at there
    cases there
    rw [noOwn] at hasOwn
    cases hasOwn
  · intro apart
    rw [List.nodup_iff_getElem?_ne_getElem?]
    intro place place' before inside same
    have key' := List.getElem?_eq_getElem inside
    have key := same.trans key'
    rw [getElem?_keysFrom, Nat.zero_add] at key key'
    obtain ⟨symbol, here, isKey⟩ := Option.map_eq_some_iff.mp key
    obtain ⟨other, there, isKey'⟩ := Option.map_eq_some_iff.mp key'
    exact apart.id_ne distinct here there before.ne (isKey.trans isKey'.symm)

end Sprite

namespace Asset

variable {options : AssetOptions} {entries : AttributeMap} {symbols : List Element}
variable {sprites after : List (String × Asset)} {symbol : Element}

theorem addSprite_eq_ok :
    addSprite options entries sprites symbol = .ok after ↔
      ∃ sprite, build (.sprite (Sprite.id symbol sprites.length)) options.forSprites
          (Sprite.standalone symbol entries).serialize = .ok sprite ∧
        Keyed.insert (Sprite.id symbol sprites.length) sprite sprites = after := by
  rw [addSprite, bind_eq_ok]
  simp only [pure, Except.pure, Except.ok.injEq]

/-- Symbols whose keys by place are all different, and not among those given before. -/
structure Fresh (sprites : List (String × Asset)) (symbols : List Element) : Prop where
  distinct : (Sprite.keysFrom sprites.length symbols).Nodup
  new : ∀ key ∈ Sprite.keysFrom sprites.length symbols, Keyed.find? key sprites = none

/-- The first of some symbols is fresh with the ones behind it if its key is new, and they
are fresh behind its sprite. -/
theorem fresh_cons_iff (ordered : Keyed.Ordered sprites) (sprite : Asset) :
    Fresh sprites (symbol :: symbols) ↔
      Keyed.find? (Sprite.id symbol sprites.length) sprites = none ∧
        Fresh (Keyed.insert (Sprite.id symbol sprites.length) sprite sprites) symbols := by
  have length (new : Keyed.find? (Sprite.id symbol sprites.length) sprites = none) :
      (Keyed.insert (Sprite.id symbol sprites.length) sprite sprites).length =
        sprites.length + 1 := by
    rw [Keyed.length_insert ordered, new]
    rfl
  constructor
  · rintro ⟨distinct, new⟩
    rw [Sprite.keysFrom, List.nodup_cons] at distinct
    rw [Sprite.keysFrom, List.forall_mem_cons] at new
    refine ⟨new.1, ?_, ?_⟩
    · rw [length new.1]
      exact distinct.2
    · rw [length new.1]
      intro key member
      have differs : key ≠ Sprite.id symbol sprites.length := by
        rintro rfl
        exact distinct.1 member
      rw [Keyed.find?_insert_of_ne differs]
      exact new.2 key member
  · rintro ⟨first, distinct, new⟩
    rw [length first] at distinct new
    have other : ∀ key ∈ Sprite.keysFrom (sprites.length + 1) symbols,
        key ≠ Sprite.id symbol sprites.length := by
      rintro key member rfl
      have absent := new _ member
      rw [Keyed.find?_insert_self] at absent
      cases absent
    refine ⟨?_, ?_⟩
    · rw [Sprite.keysFrom]
      exact List.nodup_cons.mpr ⟨fun member => other _ member rfl, distinct⟩
    · rw [Sprite.keysFrom]
      refine List.forall_mem_cons.mpr ⟨first, ?_⟩
      intro key member
      rw [← Keyed.find?_insert_of_ne (other key member) sprite]
      exact new key member

/-- Each symbol adds one sprite at most, and all of them do if and only if they are fresh. -/
theorem length_sprites (ordered : Keyed.Ordered sprites)
    (added : symbols.foldlM (addSprite options entries) sprites = .ok after) :
    after.length ≤ sprites.length + symbols.length ∧
      (after.length = sprites.length + symbols.length ↔ Fresh sprites symbols) := by
  induction symbols generalizing sprites with
  | nil =>
      cases added
      exact ⟨Nat.le_refl _, fun _ => ⟨List.nodup_nil, by simp [Sprite.keysFrom]⟩, fun _ => rfl⟩
  | cons symbol rest ih =>
      obtain ⟨next, first, later⟩ := foldlM_cons_eq_ok.mp added
      obtain ⟨sprite, _, rfl⟩ := addSprite_eq_ok.mp first
      obtain ⟨bound, all⟩ := ih (Keyed.ordered_insert ordered) later
      rw [fresh_cons_iff ordered sprite, List.length_cons]
      rw [Keyed.length_insert ordered] at bound all
      cases known : Keyed.find? (Sprite.id symbol sprites.length) sprites with
      | some earlier =>
          rw [known, Option.isSome_some, if_pos rfl] at bound
          refine ⟨by omega, fun same => by omega, fun fresh => ?_⟩
          cases fresh.1
      | none =>
          rw [known, Option.isSome_none, if_neg Bool.false_ne_true] at bound all
          refine ⟨by omega, fun same => ⟨rfl, all.mp (by omega)⟩, fun fresh => ?_⟩
          have := all.mpr fresh.2
          omega

/-- A key that none of the symbols is given leads where it led before. -/
theorem find?_sprites_of_not_mem {key : String} (ordered : Keyed.Ordered sprites)
    (fresh : Fresh sprites symbols) (other : key ∉ Sprite.keysFrom sprites.length symbols)
    (added : symbols.foldlM (addSprite options entries) sprites = .ok after) :
    Keyed.find? key after = Keyed.find? key sprites := by
  induction symbols generalizing sprites with
  | nil =>
      cases added
      rfl
  | cons symbol rest ih =>
      obtain ⟨next, first, later⟩ := foldlM_cons_eq_ok.mp added
      obtain ⟨sprite, _, rfl⟩ := addSprite_eq_ok.mp first
      obtain ⟨new, fresh⟩ := (fresh_cons_iff ordered sprite).mp fresh
      rw [Sprite.keysFrom, List.mem_cons, not_or] at other
      rw [ih (Keyed.ordered_insert ordered) fresh ?_ later, Keyed.find?_insert_of_ne other.1]
      rw [Keyed.length_insert ordered, new]
      exact other.2

/-- Each of some fresh symbols leads to the sprite that is built from its document. -/
theorem find?_sprites_of_fresh (ordered : Keyed.Ordered sprites) (fresh : Fresh sprites symbols)
    (added : symbols.foldlM (addSprite options entries) sprites = .ok after) {place : Nat}
    (here : symbols[place]? = some symbol) :
    ∃ sprite, build (.sprite (Sprite.id symbol (sprites.length + place))) options.forSprites
        (Sprite.standalone symbol entries).serialize = .ok sprite ∧
      Keyed.find? (Sprite.id symbol (sprites.length + place)) after = some sprite := by
  induction symbols generalizing sprites place with
  | nil => cases here
  | cons first rest ih =>
      obtain ⟨next, isFirst, later⟩ := foldlM_cons_eq_ok.mp added
      obtain ⟨sprite, built, rfl⟩ := addSprite_eq_ok.mp isFirst
      obtain ⟨new, fresh'⟩ := (fresh_cons_iff ordered sprite).mp fresh
      have length : (Keyed.insert (Sprite.id first sprites.length) sprite sprites).length =
          sprites.length + 1 := by
        rw [Keyed.length_insert ordered, new]
        rfl
      cases place with
      | zero =>
          cases here
          refine ⟨sprite, built, ?_⟩
          rw [Nat.add_zero, find?_sprites_of_not_mem (Keyed.ordered_insert ordered) fresh' ?_ later,
            Keyed.find?_insert_self]
          rw [length]
          exact (List.nodup_cons.mp fresh.distinct).1
      | succ place =>
          have found := ih (Keyed.ordered_insert ordered) fresh' later here
          rwa [length, Nat.add_assoc, Nat.add_comm 1] at found

/-- If the ids that symbols have are all different, every symbol becomes a sprite of its
own exactly if no symbol without an id is counted up to the id of another. It then stays
under its key, with the sprite that is built from its document. -/
theorem length_sprites_iff {source : Source} {markup : String} {root : Element} {asset : Asset}
    (parsed : Markup.parse markup = .ok root) (built : build source options markup = .ok asset)
    (distinct : (root.symbols.filterMap Sprite.ownId?).Nodup) :
    (asset.sprites.length = root.symbols.length ↔ Sprite.CountedApart root.symbols) ∧
      (Sprite.CountedApart root.symbols →
        ∀ (place : Nat) (symbol : Element), root.symbols[place]? = some symbol →
          ∃ sprite, build (.sprite (Sprite.id symbol place)) options.forSprites
              (Sprite.standalone symbol root.attributeMap).serialize = .ok sprite ∧
            Keyed.find? (Sprite.id symbol place) asset.sprites = some sprite) := by
  rw [build_eq, parsed, ok_bind] at built
  obtain ⟨sprites, added, rfl⟩ := map_eq_ok.mp built
  have ordered : Keyed.Ordered ([] : List (String × Asset)) := List.Pairwise.nil
  have fresh_iff : Fresh [] root.symbols ↔ Sprite.CountedApart root.symbols := by
    rw [← Sprite.nodup_keysFrom_iff distinct]
    exact ⟨fun fresh => fresh.distinct, fun nodup => ⟨nodup, fun key member => rfl⟩⟩
  constructor
  · have all := (length_sprites ordered added).2
    rw [List.length_nil, Nat.zero_add, fresh_iff] at all
    exact all
  · intro apart place symbol here
    have found := find?_sprites_of_fresh ordered (fresh_iff.mpr apart) added here
    rw [List.length_nil, Nat.zero_add] at found
    exact found

/-- A sheet with a symbol that has no id, and around it and below it symbols with ids that
look like counted ones. -/
def numberedSheet : Element :=
  ⟨"svg", [],
    [.element ⟨"symbol", [.text "id" "sprite2"], []⟩,
      .element ⟨"symbol", [], [.element ⟨"symbol", [.text "id" "sprite0"], []⟩]⟩]⟩

theorem length_sprites_numberedSheet :
    ∃ asset, build .inline .standard numberedSheet.serialize = .ok asset ∧
      asset.sprites.length = 3 ∧
      ∃ sprite, Keyed.find? "sprite1" asset.sprites = some sprite := by
  have parsed : Markup.parse numberedSheet.serialize = .ok numberedSheet :=
    Markup.parse_serialize_of_apart (by decide +kernel) (by decide)
  have built := build_eq_ok_direct .inline .standard (.ofParse parsed (by decide)) parsed
  obtain ⟨all, found⟩ := length_sprites_iff parsed built (by decide)
  have apart : Sprite.CountedApart numberedSheet.symbols := by decide
  obtain ⟨sprite, _, inside⟩ := found apart 1 _ rfl
  exact ⟨_, built, all.mpr apart, sprite, inside⟩

/-- A sheet where the symbol without an id is counted up to the id of the one before it. -/
def collidingSheet : Element :=
  ⟨"svg", [],
    [.element ⟨"symbol", [.text "id" "sprite1"], []⟩, .element ⟨"symbol", [], []⟩]⟩

theorem sprite_lost_collidingSheet :
    collidingSheet.serialize = "<svg><symbol id=\"sprite1\"/><symbol/></svg>" ∧
      Markup.parse collidingSheet.serialize = .ok collidingSheet ∧
      (collidingSheet.symbols.filterMap Sprite.ownId?).Nodup ∧
      ∃ asset, build .inline .standard collidingSheet.serialize = .ok asset ∧
        asset.spriteIds = ["sprite1"] ∧
        asset.sprites.length ≠ collidingSheet.symbols.length := by
  have parsed : Markup.parse collidingSheet.serialize = .ok collidingSheet :=
    Markup.parse_serialize_of_apart (by decide +kernel) (by decide)
  have built := build_eq_ok_direct .inline .standard (.ofParse parsed (by decide)) parsed
  have ids : (direct .inline .standard collidingSheet).spriteIds = ["sprite1"] := by
    rw [direct_eq]
    rfl
  refine ⟨by decide +kernel, parsed, by decide, _, built, ids, ?_⟩
  intro same
  have fewer := congrArg List.length ids
  rw [spriteIds, List.length_map, same] at fewer
  exact absurd fewer (by decide)

end Asset

end ThemedSvg

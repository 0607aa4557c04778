/-
# Options

Options decide how an asset is followed and rendered, but not what is built. A build under
some options is the build under the standard ones with these options put in: into the asset
as they are, and without affixes into every sprite in it. Defaults are options, so they may
as well be left out of a build and given in front of the parameters of each rendering.
-/

import ThemedSvg.Proofs.Nesting
import ThemedSvg.Proofs.Shorthand
import ThemedSvg.Proofs.SpriteKeys

namespace ThemedSvg

namespace Keyed

variable {β γ : Type} (f : β → γ)

/-- Other values under the same keys. -/
def mapValues (entries : List (String × β)) : List (String × γ) :=
  entries.map fun entry => (entry.1, f entry.2)

@[simp]
theorem length_mapValues (entries : List (String × β)) :
    (mapValues f entries).length = entries.length :=
  List.length_map _

theorem mapValues_insert (key : String) (value : β) (entries : List (String × β)) :
    mapValues f (insert key value entries) = insert key (f value) (mapValues f entries) := by
  induction entries with
  | nil => rfl
  | cons head rest ih =>
      obtain ⟨k, v⟩ := head
      have mapped : mapValues f ((k, v) :: rest) = (k, f v) :: mapValues f rest := rfl
      rw [insert, mapped, insert]
      split
      · rfl
      · split
        · rfl
        · rw [← ih]
          rfl

theorem find?_mapValues (key : String) (entries : List (String × β)) :
    find? key (mapValues f entries) = (find? key entries).map f := by
  induction entries with
  | nil => rfl
  | cons head rest ih =>
      obtain ⟨k, v⟩ := head
      have mapped : mapValues f ((k, v) :: rest) = (k, f v) :: mapValues f rest := rfl
      rw [mapped, find?, find?, ih]
      split <;> rfl

end Keyed

namespace Asset

mutual

/-- An asset with other options, and all sprites in it with those that sprites have. -/
def equipped (options : AssetOptions) : Asset → Asset
  | ⟨source, rootAttributes, template, catalog, sprites, _⟩ =>
      ⟨source, rootAttributes, template, catalog, equippedAll options.forSprites sprites, options⟩

def equippedAll (options : AssetOptions) : List (String × Asset) → List (String × Asset)
  | [] => []
  | (id, sprite) :: rest => (id, equipped options sprite) :: equippedAll options rest

end

theorem equippedAll_eq (options : AssetOptions) (sprites : List (String × Asset)) :
    equippedAll options sprites = Keyed.mapValues (equipped options) sprites := by
  induction sprites with
  | nil => rfl
  | cons sprite rest ih =>
      rw [equippedAll, ih]
      rfl

@[simp]
theorem template_equipped (options : AssetOptions) (asset : Asset) :
    (asset.equipped options).template = asset.template := by
  cases asset
  rfl

@[simp]
theorem options_equipped (options : AssetOptions) (asset : Asset) :
    (asset.equipped options).options = options := by
  cases asset
  rfl

@[simp]
theorem sprites_equipped (options : AssetOptions) (asset : Asset) :
    (asset.equipped options).sprites =
      Keyed.mapValues (equipped options.forSprites) asset.sprites := by
  cases asset
  exact equippedAll_eq _ _

theorem equipped_withSprites (source : Source) (options : AssetOptions) (root : Element)
    (sprites : List (String × Asset)) :
    (withSprites source .standard root sprites).equipped options =
      withSprites source options root
        (Keyed.mapValues (equipped options.forSprites) sprites) := by
  rw [← equippedAll_eq]
  rfl

/-! ## Building -/

/-- A run over symbols puts the options into each sprite that it adds. -/
theorem foldlM_addSprite_equipped (options : AssetOptions) {entries : AttributeMap}
    {symbols : List Element}
    (equips : ∀ symbol ∈ symbols, ∀ source,
      build source options.forSprites (Sprite.standalone symbol entries).serialize =
        (build source .standard (Sprite.standalone symbol entries).serialize).map
          (equipped options.forSprites))
    (sprites : List (String × Asset)) :
    symbols.foldlM (addSprite options entries)
        (Keyed.mapValues (equipped options.forSprites) sprites) =
      (symbols.foldlM (addSprite .standard entries) sprites).map
        (Keyed.mapValues (equipped options.forSprites)) := by
  induction symbols generalizing sprites with
  | nil => rfl
  | cons symbol rest ih =>
      obtain ⟨here, later⟩ := List.forall_mem_cons.mp equips
      have bare : AssetOptions.standard.forSprites = .standard := rfl
      rw [List.foldlM_cons, List.foldlM_cons, addSprite, addSprite, Keyed.length_mapValues, here,
        bare]
      cases build (.sprite (Sprite.id symbol sprites.length)) .standard
          (Sprite.standalone symbol entries).serialize with
      | error fault => rfl
      | ok sprite =>
          have added := ih later (Keyed.insert (Sprite.id symbol sprites.length) sprite sprites)
          rw [Keyed.mapValues_insert] at added
          exact added

/-- What is built does not depend on the options. The induction is on the nesting, as the
documents of symbols are no parts of the markup. -/
theorem build_eq_equipped (source : Source) (options : AssetOptions) (markup : String) :
    build source options markup = (build source .standard markup).map (equipped options) := by
  induction markup using wellFounded_nested.induction generalizing source options with
  | _ markup ih =>
      rw [build_eq, build_eq]
      cases parsed : Markup.parse markup with
      | error fault => rfl
      | ok root =>
          have added := foldlM_addSprite_equipped options
            (fun symbol member source => ih _ (.symbol parsed member) source options.forSprites) []
          rw [ok_bind, ok_bind]
          change (root.symbols.foldlM (addSprite options root.attributeMap)
            (Keyed.mapValues (equipped options.forSprites) [])).map _ = _
          rw [added]
          cases root.symbols.foldlM (addSprite .standard root.attributeMap) [] with
          | error fault => rfl
          | ok sprites => exact congrArg Except.ok (equipped_withSprites ..).symm

/-! ## Rendering -/

/-- The markup at the end of each path of ids, under some parameters. -/
def markupAlong (asset : Asset) (params : Params) (ids : List String) : Except NotFound String :=
  (asset.resolve ids).map (·.markup params)

/-- The markup at the end of each path of keys. Unlike ids these get no affixes, so that they
lead to every sprite there is. -/
def markupAt? (asset : Asset) (params : Params) (keys : List String) : Option String :=
  (asset.spriteAt? keys).map (·.markup params)

section

variable {options other : AssetOptions} {params params' : Params}

theorem markup_equipped
    (given : params.mergedOver options.defaults = params'.mergedOver other.defaults)
    (asset : Asset) :
    (asset.equipped options).markup params = (asset.equipped other).markup params' := by
  rw [markup, markup, Template.render, Template.render, template_equipped, template_equipped,
    options_equipped, options_equipped, given]

/-- Sprites keep the defaults, so what is given on the sheet is given in each of them. -/
theorem markupAlong_equipped (affixes : options.affixes = other.affixes)
    (given : params.mergedOver options.defaults = params'.mergedOver other.defaults)
    (asset : Asset) :
    (asset.equipped options).markupAlong params = (asset.equipped other).markupAlong params' := by
  funext ids
  induction ids generalizing asset options other with
  | nil => exact congrArg Except.ok (markup_equipped given asset)
  | cons id rest ih =>
      simp only [markupAlong, resolve, options_equipped, sprites_equipped, Keyed.find?_mapValues,
        affixes]
      cases Keyed.find? (other.affixes.wrap id) asset.sprites with
      | none => simp only [Option.map_none, Except.map]
      | some sprite =>
          have passedOn : params.mergedOver options.forSprites.defaults =
            params'.mergedOver other.forSprites.defaults := given
          have bare : options.forSprites.affixes = other.forSprites.affixes := rfl
          exact ih bare passedOn sprite

theorem markupAt?_equipped
    (given : params.mergedOver options.defaults = params'.mergedOver other.defaults)
    (asset : Asset) :
    (asset.equipped options).markupAt? params = (asset.equipped other).markupAt? params' := by
  funext keys
  induction keys generalizing asset options other with
  | nil => exact congrArg some (markup_equipped given asset)
  | cons key rest ih =>
      simp only [markupAt?, spriteAt?, sprites_equipped, Keyed.find?_mapValues]
      cases Keyed.find? key asset.sprites with
      | none => simp only [Option.map_none, Option.bind_none]
      | some sprite =>
          have passedOn : params.mergedOver options.forSprites.defaults =
            params'.mergedOver other.forSprites.defaults := given
          exact ih passedOn sprite

end

/-- Joining shorthands merges what they say, and merging is what defaults come to: a build
with defaults and one without end alike, and the assets and all sprites in them have the same
markup if the defaults stand in front of the parameters instead. -/
theorem joined_shorthand_renders :
    (∀ first second : String, Params.ofShorthand (first ++ ";" ++ second) =
      (Params.ofShorthand second).mergedOver (.ofShorthand first)) ∧
    (∀ params middle defaults : Params, (params.mergedOver middle).mergedOver defaults =
      params.mergedOver (middle.mergedOver defaults)) ∧
    (∀ params : Params,
      params.mergedOver .empty = params ∧ Params.empty.mergedOver params = params) ∧
    (∀ (params defaults : Params) (key : String), (params.mergedOver defaults).get? key =
      if (params.held? key).isSome then params.get? key else defaults.get? key) ∧
    ∀ (source : Source) (options : AssetOptions) (markup defaults params : String),
      let joined := Params.ofShorthand (defaults ++ ";" ++ params)
      (build source { options with defaults := .ofShorthand defaults } markup).map
          (fun asset =>
            (asset.markupAlong (.ofShorthand params), asset.markupAt? (.ofShorthand params))) =
        (build source { options with defaults := .empty } markup).map
          fun asset => (asset.markupAlong joined, asset.markupAt? joined) := by
  refine ⟨Params.ofShorthand_append, Params.mergedOver_assoc,
    fun params => ⟨params.mergedOver_empty, params.empty_mergedOver⟩,
    Params.get?_mergedOver_eq_ite, ?_⟩
  intro source options markup defaults params joined
  let themed : AssetOptions := { options with defaults := .ofShorthand defaults }
  let bare : AssetOptions := { options with defaults := .empty }
  have given : (Params.ofShorthand params).mergedOver themed.defaults =
      joined.mergedOver bare.defaults := by
    rw [Params.mergedOver_empty]
    exact (Params.ofShorthand_append defaults params).symm
  rw [build_eq_equipped source themed, build_eq_equipped source bare]
  cases build source .standard markup with
  | error fault => simp only [Except.map]
  | ok asset =>
      have affixes : themed.affixes = bare.affixes := rfl
      have along := markupAlong_equipped affixes given asset
      have inside := markupAt?_equipped given asset
      exact congrArg Except.ok (congr (congrArg Prod.mk along) inside)

end Asset

end ThemedSvg

/-
# Paths of sprite ids

A sprite gets the options of the asset around it but for the affixes, and passes them on to
its own sprites. So all sprites in an asset share its defaults and its optimizer, whichever
way they are reached. A path of ids goes on from what stands at its end, and as sprites have
no affixes, only its first id is wrapped. A path that leads nowhere is told by its first id
that nothing answers to.
-/

import ThemedSvg.Proofs.Options

namespace ThemedSvg.Asset

variable {source : Source} {options : AssetOptions} {markup : String} {asset sprite : Asset}

/-! ## Sprites at any depth -/

/-- A sprite of an asset, or of a sprite in it. -/
inductive Contains : Asset → Asset → Prop
  | sprite {outer inner : Asset} {id : String} : Keyed.find? id outer.sprites = some inner →
      Contains outer inner
  | deeper {outer middle inner : Asset} {id : String} :
      Keyed.find? id outer.sprites = some middle → Contains middle inner → Contains outer inner

theorem resolve_cons {id : String} {next : Asset}
    (found : Keyed.find? (asset.options.affixes.wrap id) asset.sprites = some next)
    (rest : List String) : asset.resolve (id :: rest) = next.resolve rest := by
  rw [resolve, found]

theorem resolve_cons_of_none {id : String}
    (absent : Keyed.find? (asset.options.affixes.wrap id) asset.sprites = none)
    (rest : List String) :
    asset.resolve (id :: rest) = .error (.sprite (asset.options.affixes.wrap id)) := by
  rw [resolve, absent]

/-- At the end of a path stands a sprite, unless the path is empty. -/
theorem contains_of_resolve {ids : List String} (nonempty : ids ≠ [])
    (resolved : asset.resolve ids = .ok sprite) : asset.Contains sprite := by
  induction ids generalizing asset with
  | nil => exact absurd rfl nonempty
  | cons id rest ih =>
      cases found : Keyed.find? (asset.options.affixes.wrap id) asset.sprites with
      | none =>
          rw [resolve_cons_of_none found] at resolved
          cases resolved
      | some next =>
          rw [resolve_cons found] at resolved
          cases rest with
          | nil =>
              cases resolved
              exact .sprite found
          | cons => exact .deeper found (ih (List.cons_ne_nil _ _) resolved)

/-- A sprite of an asset that is equipped with options is equipped with those of sprites. -/
theorem exists_equipped_of_find? {id : String}
    (found : Keyed.find? id (asset.equipped options).sprites = some sprite) :
    ∃ plain, sprite = equipped options.forSprites plain := by
  rw [sprites_equipped, Keyed.find?_mapValues] at found
  obtain ⟨plain, _, rfl⟩ := Option.map_eq_some_iff.mp found
  exact ⟨plain, rfl⟩

/-- However deep a sprite lies, it has the options of sprites, for these are the options of
their sprites as well. -/
theorem options_of_contains (contains : asset.Contains sprite) {plain : Asset}
    (equips : asset = equipped options plain) : sprite.options = options.forSprites := by
  induction contains generalizing options plain with
  | sprite found =>
      subst equips
      obtain ⟨inner, rfl⟩ := exists_equipped_of_find? found
      exact options_equipped _ _
  | deeper found _ ih =>
      subst equips
      obtain ⟨middle, isMiddle⟩ := exists_equipped_of_find? found
      exact @ih options.forSprites middle isMiddle

theorem exists_equipped_of_build (built : build source options markup = .ok asset) :
    ∃ plain, asset = equipped options plain := by
  rw [build_eq_equipped] at built
  obtain ⟨plain, _, rfl⟩ := map_eq_ok.mp built
  exact ⟨plain, rfl⟩

theorem options_of_build (built : build source options markup = .ok asset) :
    asset.options = options := by
  obtain ⟨plain, rfl⟩ := exists_equipped_of_build built
  exact options_equipped _ _

/-- A path in an asset that is made directly goes on in the document of the symbol that has
the wrapped id. -/
theorem resolve_direct_cons (source : Source) (options : AssetOptions) (root : Element)
    (id : String) (rest : List String) :
    (direct source options root).resolve (id :: rest) =
      match root.lastGiven? (options.affixes.wrap id) with
      | some symbol => (direct (.sprite (options.affixes.wrap id)) options.forSprites
          (Sprite.standalone symbol root.attributeMap)).resolve rest
      | none => .error (.sprite (options.affixes.wrap id)) := by
  have given : (direct source options root).options = options := by
    rw [direct_eq]
    rfl
  rw [resolve, given, find?_sprites_direct]
  cases root.lastGiven? (options.affixes.wrap id) <;> rfl

/-! ## Rendering -/

/-- An asset is rendered through an optimizer, if there is one: what that makes of the markup
is encoded, or its fault is all there is. -/
structure RendersThrough (asset : Asset) (optimizer : Option Optimizer) : Prop where
  plain : optimizer = none → ∀ params,
    asset.render params = .ok (DataUri.ofMarkup (asset.markup params))
  optimized : ∀ optimize ∈ optimizer, ∀ params smaller,
    optimize (asset.markup params) = .ok smaller →
      asset.render params = .ok (DataUri.ofMarkup smaller)
  fails : ∀ optimize ∈ optimizer, ∀ params fault,
    optimize (asset.markup params) = .error fault → asset.render params = .error fault

theorem rendersThrough (asset : Asset) : asset.RendersThrough asset.options.optimizer where
  plain absent params := by
    rw [render, absent]
    rfl
  optimized optimize present params smaller succeeds := by
    rw [render, Option.mem_def.mp present, Optimizer.run, succeeds]
    rfl
  fails optimize present params fault fails := by
    rw [render, Option.mem_def.mp present, Optimizer.run, fails]
    rfl

theorem sprite_options (built : build source options markup = .ok asset)
    (contains : asset.Contains sprite) :
    sprite.options.defaults = options.defaults ∧ sprite.options.optimizer = options.optimizer ∧
      sprite.options.affixes = .empty := by
  obtain ⟨plain, isPlain⟩ := exists_equipped_of_build built
  rw [options_of_contains contains isPlain]
  exact ⟨rfl, rfl, rfl⟩

/-- All sprites in an asset, at the end of paths of ids and elsewhere, have its defaults and
its optimizer and no affixes. So the defaults lie under the parameters of each of them, and
each is rendered through that optimizer. -/
theorem sprite_shares_options (built : build source options markup = .ok asset) :
    asset.options = options ∧
      (∀ ids sprite, ids ≠ [] → asset.resolve ids = .ok sprite → asset.Contains sprite) ∧
      ∀ sprite, asset.Contains sprite →
        sprite.options.defaults = options.defaults ∧
        sprite.options.optimizer = options.optimizer ∧
        sprite.options.affixes = .empty ∧
        (∀ params, sprite.markup params =
          sprite.template.evaluate (params.mergedOver options.defaults)) ∧
        sprite.RendersThrough options.optimizer := by
  refine ⟨options_of_build built, fun ids sprite => contains_of_resolve, ?_⟩
  intro sprite contains
  obtain ⟨defaults, optimizer, bare⟩ := sprite_options built contains
  refine ⟨defaults, optimizer, bare, ?_, optimizer ▸ sprite.rendersThrough⟩
  intro params
  rw [Asset.markup, defaults]
  rfl

/-- A symbol in a symbol, of which the outer one has a prefix to its id. -/
def iconSheet : Element :=
  ⟨"svg", [], [.element ⟨"symbol", [.text "id" "icon-sheet"],
    [.element ⟨"symbol", [.text "id" "home"], [.text "red"]⟩]⟩]⟩

def iconOptions : AssetOptions :=
  ⟨.ofShorthand "[fill]:blue", ⟨"icon-", ""⟩, some (Optimizer.refusing "too small"), false⟩

theorem build_iconSheet :
    build .inline iconOptions iconSheet.serialize = .ok (direct .inline iconOptions iconSheet) := by
  have parsed : Markup.parse iconSheet.serialize = .ok iconSheet :=
    Markup.parse_serialize_of_apart (by decide +kernel) (by decide)
  exact build_eq_ok_direct _ _ (.ofParse parsed (by decide)) parsed

/-- Its defaults and its optimizer reach the sprite in the sprite. -/
theorem sprite_shares_options_home :
    ∃ asset sprite, build .inline iconOptions iconSheet.serialize = .ok asset ∧
      asset.resolve ["sheet", "home"] = .ok sprite ∧
      sprite.options.affixes = .empty ∧
      sprite.options.defaults = .ofShorthand "[fill]:blue" ∧
      ∀ params, sprite.render params = .error (.refused "too small") := by
  obtain ⟨_, contains, shares⟩ := sprite_shares_options build_iconSheet
  have resolved : (direct .inline iconOptions iconSheet).resolve ["sheet", "home"] =
      .ok (direct (.sprite "home") iconOptions.forSprites
        ⟨"svg", [.text "id" "home"], [.text "red"]⟩) := by
    rw [resolve_direct_cons]
    change (direct _ _ _).resolve _ = _
    rw [resolve_direct_cons]
    rfl
  obtain ⟨defaults, _, bare, _, renders⟩ := shares _ (contains _ _ (by decide) resolved)
  exact ⟨_, _, build_iconSheet, resolved, bare, defaults, fun params =>
    renders.fails _ rfl params _ rfl⟩

/-! ## Paths that lead nowhere -/

/-- Paths go on from what stands at their end. -/
theorem resolve_append (asset : Asset) (first second : List String) :
    asset.resolve (first ++ second) = asset.resolve first >>= (·.resolve second) := by
  induction first generalizing asset with
  | nil => rfl
  | cons id rest ih =>
      rw [List.cons_append]
      cases found : Keyed.find? (asset.options.affixes.wrap id) asset.sprites with
      | none =>
          rw [resolve_cons_of_none found, resolve_cons_of_none found]
          rfl
      | some next =>
          rw [resolve_cons found, resolve_cons found]
          exact ih next

/-- The shortest part of a path that leads nowhere: it ends with `id`, and what is shorter
leads somewhere. -/
structure BreaksAt (asset : Asset) (ids before : List String) (id : String) : Prop where
  begins : before ++ [id] <+: ids
  fails : ∃ fault, asset.resolve (before ++ [id]) = .error fault
  shortest : ∀ shorter, shorter <+: before → ∃ found, asset.resolve shorter = .ok found

/-- A path breaks behind its first id where it breaks in the sprite with that id. -/
theorem BreaksAt.cons {next : Asset} {first id : String} {rest before : List String}
    (found : Keyed.find? (asset.options.affixes.wrap first) asset.sprites = some next)
    (breaks : next.BreaksAt rest before id) :
    asset.BreaksAt (first :: rest) (first :: before) id where
  begins := (List.prefix_cons_inj first).mpr breaks.begins
  fails := by
    rw [List.cons_append, resolve_cons found]
    exact breaks.fails
  shortest shorter begins := by
    rcases List.prefix_cons_iff.mp begins with rfl | ⟨shorter, rfl, isShorter⟩
    · exact ⟨asset, rfl⟩
    · rw [resolve_cons found]
      exact breaks.shortest shorter isShorter

/-- A path that fails breaks somewhere. -/
theorem exists_breaksAt {ids : List String} {fault : NotFound}
    (fails : asset.resolve ids = .error fault) : ∃ before id, asset.BreaksAt ids before id := by
  induction ids generalizing asset with
  | nil => cases fails
  | cons first rest ih =>
      cases found : Keyed.find? (asset.options.affixes.wrap first) asset.sprites with
      | none =>
          refine ⟨[], first, ⟨rest, rfl⟩, ⟨_, resolve_cons_of_none found []⟩, ?_⟩
          intro shorter isShorter
          rw [List.prefix_nil.mp isShorter]
          exact ⟨asset, rfl⟩
      | some next =>
          rw [resolve_cons found] at fails
          obtain ⟨before, id, breaks⟩ := ih fails
          exact ⟨first :: before, id, breaks.cons found⟩

/-- An id as it is looked for behind a path: wrapped if it is the first one, and as it is
elsewhere. -/
def nameBehind (affixes : Affixes) (before : List String) (id : String) : String :=
  if before = [] then affixes.before ++ id ++ affixes.after else id

theorem wrap_eq_nameBehind (built : build source options markup = .ok asset)
    {before : List String} {encloser : Asset} (resolved : asset.resolve before = .ok encloser)
    (id : String) : encloser.options.affixes.wrap id = nameBehind options.affixes before id := by
  rw [nameBehind]
  split
  · next isFirst =>
      subst isFirst
      cases resolved
      rw [options_of_build built]
      rfl
  · next isLater =>
      rw [(sprite_options built (contains_of_resolve isLater resolved)).2.2]
      simp [Affixes.wrap, Affixes.empty]

/-- Where a path breaks, nothing answers to the id as it is looked for, and the fault names
it so. -/
theorem BreaksAt.resolve_eq {ids before : List String} {id : String}
    (breaks : asset.BreaksAt ids before id) :
    ∃ encloser, asset.resolve before = .ok encloser ∧
      encloser.options.affixes.wrap id ∉ encloser.spriteIds ∧
      asset.resolve ids = .error (.sprite (encloser.options.affixes.wrap id)) := by
  obtain ⟨encloser, resolved⟩ := breaks.shortest before (List.prefix_refl before)
  refine ⟨encloser, resolved, ?_⟩
  obtain ⟨fault, fails⟩ := breaks.fails
  rw [resolve_append, resolved, ok_bind] at fails
  obtain ⟨after, rfl⟩ := breaks.begins
  rw [List.append_assoc, resolve_append, resolved, ok_bind, spriteIds]
  cases found : Keyed.find? (encloser.options.affixes.wrap id) encloser.sprites with
  | none =>
      refine ⟨?_, resolve_cons_of_none found _⟩
      rw [Keyed.find?_eq_lookup, List.lookup_eq_none_iff] at found
      rw [List.mem_map]
      rintro ⟨entry, member, same⟩
      simpa [same] using found entry member
  | some next =>
      rw [resolve_cons found] at fails
      cases fails

/-- Paths can be followed in two steps, with the same outcome. A path leads nowhere exactly
if it breaks somewhere: where it breaks, the asset has no sprite with the id that is looked
for, and the fault names this id. -/
theorem resolve_composes (built : build source options markup = .ok asset) :
    (∀ first second : List String,
      asset.resolve (first ++ second) = asset.resolve first >>= (·.resolve second)) ∧
    (∀ ids fault, asset.resolve ids = .error fault ↔
      ∃ before id, asset.BreaksAt ids before id ∧
        fault = .sprite (nameBehind options.affixes before id)) ∧
    ∀ ids before id, asset.BreaksAt ids before id →
      ∃ encloser, asset.resolve before = .ok encloser ∧
        nameBehind options.affixes before id ∉ encloser.spriteIds := by
  have named {ids before : List String} {id : String} (breaks : asset.BreaksAt ids before id) :
      ∃ encloser, asset.resolve before = .ok encloser ∧
        nameBehind options.affixes before id ∉ encloser.spriteIds ∧
        asset.resolve ids = .error (.sprite (nameBehind options.affixes before id)) := by
    obtain ⟨encloser, resolved, absent, fails⟩ := breaks.resolve_eq
    rw [wrap_eq_nameBehind built resolved] at absent fails
    exact ⟨encloser, resolved, absent, fails⟩
  refine ⟨asset.resolve_append, ?_, ?_⟩
  · intro ids fault
    constructor
    · intro fails
      obtain ⟨before, id, breaks⟩ := exists_breaksAt fails
      obtain ⟨_, _, _, same⟩ := named breaks
      exact ⟨before, id, breaks, Except.error.inj (fails.symm.trans same)⟩
    · rintro ⟨before, id, breaks, rfl⟩
      obtain ⟨_, _, _, fails⟩ := named breaks
      exact fails
  · intro ids before id breaks
    obtain ⟨encloser, resolved, absent, _⟩ := named breaks
    exact ⟨encloser, resolved, absent⟩

theorem resolve_composes_iconSheet :
    ∃ asset, build .inline iconOptions iconSheet.serialize = .ok asset ∧
      asset.resolve ["home"] = .error (.sprite "icon-home") ∧
      asset.resolve ["sheet", "icon-home", "home"] = .error (.sprite "icon-home") := by
  obtain ⟨_, breaks, _⟩ := resolve_composes build_iconSheet
  have onSheet : (direct .inline iconOptions iconSheet).BreaksAt ["home"] [] "home" := by
    refine ⟨⟨[], rfl⟩, ⟨.sprite "icon-home", ?_⟩, ?_⟩
    · rw [List.nil_append, resolve_direct_cons]
      rfl
    · intro shorter isShorter
      rw [List.prefix_nil.mp isShorter]
      exact ⟨_, rfl⟩
  have inSprite : (direct .inline iconOptions iconSheet).BreaksAt
      ["sheet", "icon-home", "home"] ["sheet"] "icon-home" := by
    refine ⟨⟨["home"], rfl⟩, ⟨.sprite "icon-home", ?_⟩, ?_⟩
    · rw [List.singleton_append, resolve_direct_cons]
      change (direct _ _ _).resolve _ = _
      rw [resolve_direct_cons]
      rfl
    · intro shorter isShorter
      rcases List.prefix_cons_iff.mp isShorter with rfl | ⟨shorter, rfl, isEmpty⟩
      · exact ⟨_, rfl⟩
      · rw [List.prefix_nil.mp isEmpty, resolve_direct_cons]
        exact ⟨_, rfl⟩
  exact ⟨_, build_iconSheet, (breaks _ _).mpr ⟨[], "home", onSheet, rfl⟩,
    (breaks _ _).mpr ⟨["sheet"], "icon-home", inSprite, rfl⟩⟩

end ThemedSvg.Asset

/-
# Nested builds come to an end

Building markup builds the documents of its symbols, which are written anew each time
and are no parts of the markup. This module describes such a build as a finite tree of
nested builds, without a bound on its depth, and shows that every markup has exactly
one. Well-formed names are not asked for: whatever the reader takes an odd name for
when it is written back, it weighs what it weighed before.
-/

import ThemedSvg.Proofs.Walk

namespace ThemedSvg.Asset

/-- Building `outer` builds `inner` for one of its symbols. -/
inductive Nested : String → String → Prop
  | symbol {outer : String} {root symbol : Element} : Markup.parse outer = .ok root →
      symbol ∈ root.symbols →
      Nested (Sprite.standalone symbol root.attributeMap).serialize outer

/-- Nested markup weighs less, so no chain of nested documents goes on forever. -/
theorem weight_lt_of_nested {inner outer : String} (nested : Nested inner outer) :
    Markup.weight inner.toList < Markup.weight outer.toList := by
  cases nested with
  | symbol parsed member => exact Sprite.weight_serialize_lt parsed member

theorem wellFounded_nested : WellFounded Nested :=
  Subrelation.wf weight_lt_of_nested
    (InvImage.wf (fun markup : String => Markup.weight markup.toList) Nat.lt_wfRel.wf)

mutual

/-- A build that ends with an outcome after a number of nested builds. -/
inductive BuildRun : Source → AssetOptions → String → Except ParseFault Asset → Nat → Prop
  | fault {source : Source} {options : AssetOptions} {markup : String} {fault : ParseFault} :
      Markup.parse markup = .error fault → BuildRun source options markup (.error fault) 0
  | document {source : Source} {options : AssetOptions} {markup : String} {root : Element}
      {outcome : Except ParseFault (List (String × Asset))} {nested : Nat} :
      Markup.parse markup = .ok root →
        SpritesRun options root.attributeMap root.symbols [] outcome nested →
        BuildRun source options markup (outcome.map (withSprites source options root)) nested

/-- The builds of the sprites of some symbols, one after the other, behind the sprites
that are there. The first one that fails is the last one. -/
inductive SpritesRun : AssetOptions → AttributeMap → List Element → List (String × Asset) →
    Except ParseFault (List (String × Asset)) → Nat → Prop
  | done {options : AssetOptions} {entries : AttributeMap} {sprites : List (String × Asset)} :
      SpritesRun options entries [] sprites (.ok sprites) 0
  | fault {options : AssetOptions} {entries : AttributeMap} {symbol : Element}
      {rest : List Element} {sprites : List (String × Asset)} {fault : ParseFault}
      {nested : Nat} :
      BuildRun (.sprite (Sprite.id symbol sprites.length)) options.forSprites
          (Sprite.standalone symbol entries).serialize (.error fault) nested →
        SpritesRun options entries (symbol :: rest) sprites (.error fault) (nested + 1)
  | sprite {options : AssetOptions} {entries : AttributeMap} {symbol : Element}
      {rest : List Element} {sprites : List (String × Asset)} {sprite : Asset}
      {outcome : Except ParseFault (List (String × Asset))} {nested later : Nat} :
      BuildRun (.sprite (Sprite.id symbol sprites.length)) options.forSprites
          (Sprite.standalone symbol entries).serialize (.ok sprite) nested →
        SpritesRun options entries rest
          (Keyed.insert (Sprite.id symbol sprites.length) sprite sprites) outcome later →
        SpritesRun options entries (symbol :: rest) sprites outcome (nested + 1 + later)

end

/-- There is one run, and it ends as `build` does. -/
def EndsAs (source : Source) (options : AssetOptions) (markup : String) : Prop :=
  ∃ nested, ∀ outcome count, BuildRun source options markup outcome count ↔
    outcome = build source options markup ∧ count = nested

/-- If the document of each symbol has its one run, so have the symbols together. -/
theorem spritesRun_iff (options : AssetOptions) {entries : AttributeMap}
    {symbols : List Element} (ends : ∀ symbol ∈ symbols, ∀ source options,
      EndsAs source options (Sprite.standalone symbol entries).serialize)
    (sprites : List (String × Asset)) :
    ∃ nested, ∀ outcome count, SpritesRun options entries symbols sprites outcome count ↔
      outcome = symbols.foldlM (addSprite options entries) sprites ∧ count = nested := by
  induction symbols generalizing sprites with
  | nil =>
      refine ⟨0, ?_⟩
      intro outcome count
      constructor
      · intro run
        cases run
        exact ⟨rfl, rfl⟩
      · rintro ⟨rfl, rfl⟩
        exact .done
  | cons symbol rest ih =>
      obtain ⟨nested, built⟩ := ends symbol List.mem_cons_self
        (.sprite (Sprite.id symbol sprites.length)) options.forSprites
      rw [List.foldlM_cons, addSprite]
      cases outcome : build (.sprite (Sprite.id symbol sprites.length)) options.forSprites
          (Sprite.standalone symbol entries).serialize with
      | error fault =>
          rw [outcome] at built
          refine ⟨nested + 1, ?_⟩
          intro outcome count
          constructor
          · intro run
            cases run with
            | fault failed =>
                obtain ⟨same, rfl⟩ := (built _ _).mp failed
                cases same
                exact ⟨rfl, rfl⟩
            | sprite succeeded later => cases ((built _ _).mp succeeded).1
          · rintro ⟨rfl, rfl⟩
            exact .fault ((built _ _).mpr ⟨rfl, rfl⟩)
      | ok sprite =>
          rw [outcome] at built
          obtain ⟨later, added⟩ := ih
            (fun other member => ends other (List.mem_cons_of_mem _ member))
            (Keyed.insert (Sprite.id symbol sprites.length) sprite sprites)
          refine ⟨nested + 1 + later, ?_⟩
          intro outcome count
          constructor
          · intro run
            cases run with
            | fault failed => cases ((built _ _).mp failed).1
            | sprite succeeded behind =>
                obtain ⟨same, rfl⟩ := (built _ _).mp succeeded
                cases same
                obtain ⟨rfl, rfl⟩ := (added _ _).mp behind
                exact ⟨rfl, rfl⟩
          · rintro ⟨rfl, rfl⟩
            exact .sprite ((built _ _).mpr ⟨rfl, rfl⟩) ((added _ _).mpr ⟨rfl, rfl⟩)

/-- The induction is on the nesting: documents nested in this one have their runs. -/
theorem endsAs (source : Source) (options : AssetOptions) (markup : String) :
    EndsAs source options markup := by
  induction markup using wellFounded_nested.induction generalizing source options with
  | _ markup ih =>
      unfold EndsAs
      rw [build_eq]
      cases parsed : Markup.parse markup with
      | error fault =>
          refine ⟨0, ?_⟩
          intro outcome count
          constructor
          · intro run
            cases run with
            | fault failed =>
                rw [parsed] at failed
                cases failed
                exact ⟨rfl, rfl⟩
            | document succeeded _ =>
                rw [parsed] at succeeded
                cases succeeded
          · rintro ⟨rfl, rfl⟩
            exact .fault parsed
      | ok root =>
          obtain ⟨nested, added⟩ := spritesRun_iff options
            (fun symbol member source options => ih _ (.symbol parsed member) source options) []
          refine ⟨nested, ?_⟩
          intro outcome count
          constructor
          · intro run
            cases run with
            | fault failed =>
                rw [parsed] at failed
                cases failed
            | document succeeded sprites =>
                rw [parsed] at succeeded
                cases succeeded
                obtain ⟨rfl, rfl⟩ := (added _ _).mp sprites
                exact ⟨rfl, rfl⟩
          · rintro ⟨rfl, rfl⟩
            exact .document parsed ((added _ _).mpr ⟨rfl, rfl⟩)

/-- The recursion as it stands: a symbol that the walk meets is built from the markup
that is written for it, whatever that is parsed to. -/
theorem build_eq_visit (source : Source) (options : AssetOptions) (markup : String) :
    build source options markup = do
      let root ← Markup.parse markup
      let (gathered, annotated) ← root.visit
        (fun symbol (_ : True) sprites => addSprite options root.attributeMap sprites symbol)
        Gathered.empty "" fun _ _ => trivial
      return assemble source options root annotated gathered.catalog gathered.sprites := by
  rw [build_eq]
  cases Markup.parse markup with
  | error fault => rfl
  | ok root =>
      rw [ok_bind, ok_bind, Element.visit_eq
        fun symbol sprites => addSprite options root.attributeMap sprites symbol]
      change Except.map _ (root.symbols.foldlM (addSprite options root.attributeMap) []) =
        Except.map _ (root.symbols.foldlM (addSprite options root.attributeMap) []) >>= _
      cases root.symbols.foldlM (addSprite options root.attributeMap) [] <;> rfl

/-- Nested documents do not nest forever, and so the recursion ends on any markup: with
one outcome, an asset or a fault, behind one finite number of nested builds. -/
theorem build_terminates :
    WellFounded Nested ∧
      ∀ (source : Source) (options : AssetOptions) (markup : String),
        (build source options markup = do
          let root ← Markup.parse markup
          let (gathered, annotated) ← root.visit
            (fun symbol (_ : True) sprites =>
              addSprite options root.attributeMap sprites symbol)
            Gathered.empty "" fun _ _ => trivial
          return assemble source options root annotated gathered.catalog gathered.sprites) ∧
        ∃ nested, ∀ outcome count, BuildRun source options markup outcome count ↔
          outcome = build source options markup ∧ count = nested :=
  ⟨wellFounded_nested, fun source options markup =>
    ⟨build_eq_visit source options markup, endsAs source options markup⟩⟩

end ThemedSvg.Asset

/-
# Warm caches

A cache that was asked before holds assets that a fresh one has to build. As long as the
files stay as they are this shows in nothing that it answers: asking for an asset, whether
that succeeds or fails, leaves what the cache offers under every name as it was. So a
declaration value is expanded alike in whatever order values are expanded.
-/

import Mathlib.Data.List.Basic
import ThemedSvg.Proofs.Splicing

namespace ThemedSvg

namespace Cache

variable {cache cache' : Cache} {files : Files} {name other : String}

/-! ## What a cache offers -/

/-- The asset that a cache builds for a name that it does not know. -/
def load (cache : Cache) (files : Files) (name : String) : Except AssetFault Asset :=
  match cache.locate? files name with
  | none => .error (.notFound (.asset name))
  | some path => Asset.ofFile files path cache.options

/-- What a cache has for a name: the asset that it knows, or else the one that it builds. -/
def offers (cache : Cache) (files : Files) (name : String) : Except AssetFault Asset :=
  match Keyed.find? name cache.assets with
  | some shared => .ok shared.asset
  | none => cache.load files name

/-- Everything that asking for an asset can do: the cache knows it, or fails to build it and
stays as it is, or builds it and shares it. -/
theorem get_cases (cache : Cache) (files : Files) (name : String) :
    (∃ shared, Keyed.find? name cache.assets = some shared ∧
      cache.get files name = (.ok shared, cache)) ∨
    (Keyed.find? name cache.assets = none ∧ ∃ fault, cache.load files name = .error fault ∧
      cache.get files name = (.error fault, cache)) ∨
    (Keyed.find? name cache.assets = none ∧ ∃ asset, cache.load files name = .ok asset ∧
      cache.get files name = (.ok ⟨cache.built, asset⟩, (cache.share name asset).2)) := by
  unfold get load
  cases known : Keyed.find? name cache.assets with
  | some shared => exact .inl ⟨shared, rfl, rfl⟩
  | none =>
      refine .inr ?_
      cases located : cache.locate? files name with
      | none => exact .inl ⟨rfl, _, rfl, rfl⟩
      | some path =>
          cases built : Asset.ofFile files path cache.options with
          | error fault => exact .inl ⟨rfl, fault, built, by simp only [built]⟩
          | ok asset => exact .inr ⟨rfl, asset, built, by simp only [built]; rfl⟩

/-- A cache gives what it offers. -/
theorem map_asset_get (cache : Cache) (files : Files) (name : String) :
    (cache.get files name).1.map SharedAsset.asset = cache.offers files name := by
  unfold offers
  rcases cache.get_cases files name with
    ⟨shared, known, got⟩ | ⟨unknown, fault, loads, got⟩ | ⟨unknown, asset, loads, got⟩
  · rw [known, got]
    rfl
  · rw [unknown, got, loads]
    rfl
  · rw [unknown, got, loads]
    rfl

/-- What is built for a name depends on where it is looked for and on the options. -/
theorem load_congr (directories : cache.directories = cache'.directories)
    (options : cache.options = cache'.options) (files : Files) :
    cache.load files = cache'.load files := by
  funext name
  rw [load, load, locate?, locate?, candidates, candidates, searched, searched, directories,
    options]

theorem load_share (cache : Cache) (name : String) (asset : Asset) (files : Files) :
    (cache.share name asset).2.load files = cache.load files :=
  load_congr rfl rfl files

/-- Asking for an asset changes nothing that a cache offers. -/
theorem offers_get (cache : Cache) (files : Files) (other : String) :
    (cache.get files other).2.offers files = cache.offers files := by
  rcases cache.get_cases files other with
    ⟨shared, known, got⟩ | ⟨unknown, fault, loads, got⟩ | ⟨unknown, asset, loads, got⟩
  · rw [got]
  · rw [got]
  · funext name
    rw [got, offers, offers, load_share]
    by_cases same : name = other
    · rw [same, share, Keyed.find?_insert_self, unknown, loads]
    · rw [share, Keyed.find?_insert_of_ne same]

end Cache

/-! ## What calls are answered -/

namespace Invocation

variable {cache cache' : Cache} {files : Files}

/-- Whatever is made of a shared asset without regard to its stamp is alike where the assets
are. -/
theorem bind_congr_asset {β : Type} {first second : Except AssetFault SharedAsset}
    (same : first.map SharedAsset.asset = second.map SharedAsset.asset)
    {use : SharedAsset → Except AssetFault β}
    (unstamped : ∀ stamp stamp' asset, use ⟨stamp, asset⟩ = use ⟨stamp', asset⟩) :
    first.bind use = second.bind use := by
  rcases first with fault | ⟨stamp, asset⟩
  · rcases second with fault' | ⟨stamp', asset'⟩
    · cases same
      rfl
    · cases same
  · rcases second with fault' | ⟨stamp', asset'⟩
    · cases same
    · cases same
      exact unstamped stamp stamp' asset

/-- The answer to a call depends on what the cache offers, and on nothing else of it. -/
theorem render_congr (same : cache.offers files = cache'.offers files) (call : Invocation) :
    (call.render files cache).1 = (call.render files cache').1 := by
  rw [render_eq, render_eq]
  apply bind_congr_asset
  · rw [Cache.map_asset_get, Cache.map_asset_get, same]
  · intro stamp stamp' asset
    rfl

theorem offers_render (call : Invocation) (files : Files) (cache : Cache) :
    (call.render files cache).2.offers files = cache.offers files := by
  rw [render_eq]
  exact cache.offers_get files call.target.1

/-- Calls are answered one by one as if each were the first. -/
theorem renderAll_eq_map (files : Files) (calls : List Invocation) (cache : Cache) :
    (renderAll files calls cache).1 = calls.map fun call => (call.render files cache).1 := by
  induction calls generalizing cache with
  | nil => rfl
  | cons call rest ih =>
      rw [renderAll_cons, ih, List.map_cons,
        funext fun other => render_congr (call.offers_render files cache) other]

theorem offers_expandFrom (files : Files) (silent : Bool) (value : List Char) (offset : Nat)
    (calls : List Invocation) (cache : Cache) :
    (expandFrom files silent value offset calls cache).2.offers files = cache.offers files := by
  induction calls generalizing offset cache with
  | nil => rfl
  | cons call rest ih =>
      have kept := call.offers_render files cache
      rcases rendered : call.render files cache with ⟨fault | uri, next⟩
      · rw [rendered] at kept
        cases silent with
        | true =>
            rw [expandFrom_silent_of_error rendered]
            exact (ih _ next).trans kept
        | false =>
            rw [expandFrom_loud_of_error rendered]
            exact kept
      · rw [rendered] at kept
        rw [expandFrom_of_ok rendered]
        exact (ih _ next).trans kept

/-- Caches that offer the same make the same of a value. -/
theorem expandFrom_congr (same : cache.offers files = cache'.offers files) (silent : Bool)
    (value : List Char) (offset : Nat) (calls : List Invocation) :
    (expandFrom files silent value offset calls cache).1 =
      (expandFrom files silent value offset calls cache').1 := by
  induction calls generalizing offset cache cache' with
  | nil => rfl
  | cons call rest ih =>
      have answer := render_congr same call
      have next : (call.render files cache).2.offers files =
          (call.render files cache').2.offers files := by
        rw [offers_render, offers_render, same]
      rcases rendered : call.render files cache with ⟨fault | uri, left⟩
      · rcases rendered' : call.render files cache' with ⟨result, left'⟩
        rw [rendered, rendered'] at answer next
        cases answer
        cases silent with
        | true =>
            rw [expandFrom_silent_of_error rendered, expandFrom_silent_of_error rendered',
              ih next]
        | false =>
            rw [expandFrom_loud_of_error rendered, expandFrom_loud_of_error rendered']
      · rcases rendered' : call.render files cache' with ⟨result, left'⟩
        rw [rendered, rendered'] at answer next
        cases answer
        rw [expandFrom_of_ok rendered, expandFrom_of_ok rendered', ih next]

end Invocation

namespace Config

theorem offers_expand (config : Config) (files : Files) (cache : Cache) (value : String) :
    (config.expand files cache value).2.offers files = cache.offers files :=
  Invocation.offers_expandFrom ..

theorem expand_congr {cache cache' : Cache} {files : Files}
    (same : cache.offers files = cache'.offers files) (config : Config) (value : String) :
    (config.expand files cache value).1 = (config.expand files cache' value).1 :=
  Invocation.expandFrom_congr same ..

end Config

/-! ## Runs -/

/-- What a cache can be asked without anything being put into it from outside. -/
inductive Request
  | get (name : String)
  | render (call : Invocation)
  | expand (config : Config) (value : String)

/-- What there is when a request succeeds. -/
inductive Answer
  | asset (shared : SharedAsset)
  | uri (text : String)
  | expansion (expansion : Expansion)

namespace Request

/-- The answer to a request, and the cache behind it. -/
def answer (files : Files) (cache : Cache) : Request → Except AssetFault Answer × Cache
  | get name =>
      let (result, cache) := cache.get files name
      (result.map .asset, cache)
  | render call =>
      let (result, cache) := call.render files cache
      (result.map .uri, cache)
  | expand config value =>
      let (result, cache) := config.expand files cache value
      (result.map .expansion, cache)

/-- The cache behind some requests, whether they succeed or fail. -/
def answerAll (files : Files) (requests : List Request) (cache : Cache) : Cache :=
  requests.foldl (fun cache request => (request.answer files cache).2) cache

theorem offers_answer (request : Request) (files : Files) (cache : Cache) :
    (request.answer files cache).2.offers files = cache.offers files := by
  cases request with
  | get name => exact cache.offers_get files name
  | render call => exact call.offers_render files cache
  | expand config value => exact config.offers_expand files cache value

theorem offers_answerAll (requests : List Request) (files : Files) (cache : Cache) :
    (answerAll files requests cache).offers files = cache.offers files := by
  induction requests generalizing cache with
  | nil => rfl
  | cons request rest ih => exact (ih _).trans (request.offers_answer files cache)

end Request

namespace Config

/-- What becomes of some values that are expanded one after the other through one cache. -/
def expandAll (config : Config) (files : Files) :
    List String → Cache → List (Except AssetFault Expansion)
  | [], _ => []
  | value :: values, cache =>
      let (result, cache) := config.expand files cache value
      result :: config.expandAll files values cache

/-- One after the other, values are expanded as if each were the first. -/
theorem expandAll_eq_map (config : Config) (files : Files) (values : List String)
    (cache : Cache) :
    config.expandAll files values cache =
      values.map fun value => (config.expand files cache value).1 := by
  induction values generalizing cache with
  | nil => rfl
  | cons value rest ih =>
      have kept := config.offers_expand files cache value
      calc config.expandAll files (value :: rest) cache
        _ = (config.expand files cache value).1 ::
              config.expandAll files rest (config.expand files cache value).2 := rfl
        _ = _ := by rw [ih, List.map_cons, funext (expand_congr kept config)]

/-- A cache that was asked for anything, by calls or by values, makes of each value what it
made of it before. So what becomes of some values, each by itself, is the same in whatever
order they are expanded. This holds of every cache: of the empty one of any configuration on
any machine, and of one whose optimizer is any other function. -/
theorem expand_warmed (cache : Cache) (reader : Config) (files : Files)
    (history : List Request) :
    (∀ value, (reader.expand files (Request.answerAll files history cache) value).1 =
      (reader.expand files cache value).1) ∧
    (∀ values, reader.expandAll files values (Request.answerAll files history cache) =
      values.map fun value => (reader.expand files cache value).1) ∧
    ∀ values values' : List String, values.Perm values' →
      (values.zip (reader.expandAll files values (Request.answerAll files history cache))).Perm
        (values'.zip
          (reader.expandAll files values' (Request.answerAll files history cache))) := by
  have warm := Request.offers_answerAll history files cache
  have same (values : List String) :
      reader.expandAll files values (Request.answerAll files history cache) =
        values.map fun value => (reader.expand files cache value).1 := by
    rw [expandAll_eq_map, funext (expand_congr warm reader)]
  refine ⟨expand_congr warm reader, same, ?_⟩
  intro values values' reordered
  rw [same, same, ← List.map_prod_left_eq_zip, ← List.map_prod_left_eq_zip]
  exact reordered.map _

/-- One file, and no other. -/
def dotFiles : Files := fun path =>
  if path = "./dot.svg" then .ok "<svg/>".toUTF8 else .error .notFound

/-- A machine with one program, which copies its input. -/
def copying : Machine := fun command input =>
  if command.program = "cat" then .ok ⟨.code 0, input, .empty, none⟩
  else .error FileFault.notFound.message

/-- Markup is passed through that program. -/
def passing : Config := { standard with optimizer := .command ⟨"cat", []⟩ }

theorem expand_warmed_dot :
    ∃ cache values values' history,
      cache = passing.cache copying ∧
      cache.options.optimizer = some (CommandLine.optimizer copying ⟨"cat", []⟩) ∧
      values = ["svg(\"dot\")", "svg(\"ghost\")"] ∧
      values' = ["svg(\"ghost\")", "svg(\"dot\")"] ∧
      history = [Request.get "ghost", .expand passing "svg(\"dot\")"] ∧
      values.Perm values' ∧
      (values.zip (passing.expandAll dotFiles values
        (Request.answerAll dotFiles history cache))).Perm
        (values'.zip (passing.expandAll dotFiles values'
          (Request.answerAll dotFiles history cache))) :=
  ⟨_, _, _, _, rfl, rfl, rfl, rfl, rfl, .swap ..,
    (expand_warmed (passing.cache copying) passing dotFiles _).2.2 _ _ (.swap ..)⟩

end Config

end ThemedSvg

/-
# Asking a cache

All that calls and values do to a cache is to ask it for assets, one name after the other. So
what becomes of the cache can be told by the names alone: it comes to know those that there is
an asset for, and forgets none. Where the asset of a new name is built from depends on the
first of its places that has a file.
-/

import Mathlib.Data.List.Dedup
import ThemedSvg.Proofs.WarmCaches

namespace ThemedSvg

namespace Keyed

variable {β : Type} {entries : List (String × β)}

theorem mem_keys_iff {key : String} :
    key ∈ entries.map (·.1) ↔ (find? key entries).isSome = true := by
  induction entries with
  | nil => simp [find?]
  | cons entry rest ih =>
      rw [List.map_cons, List.mem_cons, ih, find?]
      by_cases same : key = entry.1
      · simp [same]
      · simp [same]

/-- A list in key order has as many entries as there are keys in it. -/
theorem length_eq_dedup (ordered : Ordered entries) {keys : List String}
    (same : ∀ key, (find? key entries).isSome = true ↔ key ∈ keys) :
    entries.length = keys.dedup.length := by
  have distinct : (entries.map (·.1)).Perm keys.dedup := by
    rw [List.perm_ext_iff_of_nodup (nodup_keys ordered) keys.nodup_dedup]
    intro key
    rw [mem_keys_iff, same, List.mem_dedup]
  rw [← List.length_map, distinct.length_eq]

end Keyed

namespace Cache

variable {cache : Cache} {files : Files} {name other : String} {shared : SharedAsset}

/-! ## Asking for assets -/

theorem isOk_get (cache : Cache) (files : Files) (name : String) :
    (cache.get files name).1.isOk = (cache.offers files name).isOk := by
  rw [← map_asset_get]
  cases (cache.get files name).1 <;> rfl

theorem contains_share (cache : Cache) (name : String) (asset : Asset) (other : String) :
    (cache.share name asset).2.contains other = true ↔
      cache.contains other = true ∨ other = name := by
  rw [contains, share, contains]
  by_cases same : other = name
  · simp [same]
  · rw [Keyed.find?_insert_of_ne same]
    simp [same]

/-- A cache knows a name that it was asked for if it has an asset for it. -/
theorem contains_get (cache : Cache) (files : Files) (name other : String) :
    (cache.get files name).2.contains other = true ↔
      cache.contains other = true ∨ other = name ∧ (cache.get files name).1.isOk = true := by
  rcases cache.get_cases files name with
    ⟨shared, known, got⟩ | ⟨unknown, fault, loads, got⟩ | ⟨unknown, asset, loads, got⟩
  · rw [got]
    refine ⟨.inl, ?_⟩
    rintro (found | ⟨rfl, _⟩)
    · exact found
    · rw [contains, known]
      rfl
  · rw [got]
    refine ⟨.inl, ?_⟩
    rintro (found | ⟨_, succeeds⟩)
    · exact found
    · cases succeeds
  · rw [got, contains_share]
    simp [Except.isOk, Except.toBool]

theorem ordered_get (ordered : Keyed.Ordered cache.assets) (files : Files) (name : String) :
    Keyed.Ordered (cache.get files name).2.assets := by
  rcases cache.get_cases files name with
    ⟨shared, known, got⟩ | ⟨unknown, fault, loads, got⟩ | ⟨unknown, asset, loads, got⟩
  · rw [got]
    exact ordered
  · rw [got]
    exact ordered
  · rw [got]
    exact Keyed.ordered_insert ordered

theorem options_get (cache : Cache) (files : Files) (name : String) :
    (cache.get files name).2.options = cache.options := by
  rcases cache.get_cases files name with
    ⟨_, _, got⟩ | ⟨_, _, _, got⟩ | ⟨_, _, _, got⟩
  all_goals rw [got]
  rfl

theorem directories_get (cache : Cache) (files : Files) (name : String) :
    (cache.get files name).2.directories = cache.directories := by
  rcases cache.get_cases files name with
    ⟨_, _, got⟩ | ⟨_, _, _, got⟩ | ⟨_, _, _, got⟩
  all_goals rw [got]
  rfl

/-- The cache behind asking for some names, one after the other. -/
def getAll (files : Files) (names : List String) (cache : Cache) : Cache :=
  names.foldl (fun cache name => (cache.get files name).2) cache

/-- What every name leaves as it is, all names do. -/
theorem getAll_induct {motive : Cache → Prop}
    (step : ∀ cache name, motive cache → motive (cache.get files name).2) (names : List String)
    (begins : motive cache) : motive (getAll files names cache) := by
  induction names generalizing cache with
  | nil => exact begins
  | cons first rest ih => exact ih (step cache first begins)

theorem find?_getAll {names : List String}
    (known : Keyed.find? name cache.assets = some shared) :
    Keyed.find? name (getAll files names cache).assets = some shared :=
  getAll_induct (motive := fun later => Keyed.find? name later.assets = some shared)
    (fun _ _ known => find?_get known) names known

theorem ordered_getAll (ordered : Keyed.Ordered cache.assets) (files : Files)
    (names : List String) : Keyed.Ordered (getAll files names cache).assets :=
  getAll_induct (motive := fun later => Keyed.Ordered later.assets)
    (fun _ name ordered => ordered_get ordered files name) names ordered

theorem options_getAll (files : Files) (names : List String) (cache : Cache) :
    (getAll files names cache).options = cache.options :=
  getAll_induct (motive := fun later => later.options = cache.options)
    (fun later name same => (later.options_get files name).trans same) names rfl

theorem directories_getAll (files : Files) (names : List String) (cache : Cache) :
    (getAll files names cache).directories = cache.directories :=
  getAll_induct (motive := fun later => later.directories = cache.directories)
    (fun later name same => (later.directories_get files name).trans same) names rfl

theorem offers_getAll (files : Files) (names : List String) (cache : Cache) :
    (getAll files names cache).offers files = cache.offers files :=
  getAll_induct (motive := fun later => later.offers files = cache.offers files)
    (fun later name same => (later.offers_get files name).trans same) names rfl

/-- What is new in a cache that was asked for some names are those that it has assets for. -/
theorem contains_getAll (files : Files) (names : List String) (cache : Cache) (name : String) :
    (getAll files names cache).contains name = true ↔
      cache.contains name = true ∨
        name ∈ names.filter fun other => (cache.get files other).1.isOk := by
  induction names generalizing cache with
  | nil => simp [getAll]
  | cons first rest ih =>
      -- the first name leaves on offer what was, so the others can be told from the start
      have kept : (fun other => ((cache.get files first).2.get files other).1.isOk) =
          fun other => (cache.get files other).1.isOk := by
        funext other
        rw [isOk_get, isOk_get, offers_get]
      rw [show getAll files (first :: rest) cache = getAll files rest (cache.get files first).2
        from rfl, ih, contains_get, kept]
      simp only [List.mem_filter, List.mem_cons]
      constructor
      · rintro ((known | ⟨rfl, succeeds⟩) | ⟨member, succeeds⟩)
        · exact .inl known
        · exact .inr ⟨.inl rfl, succeeds⟩
        · exact .inr ⟨.inr member, succeeds⟩
      · rintro (known | ⟨rfl | member, succeeds⟩)
        · exact .inl (.inl known)
        · exact .inl (.inr ⟨rfl, succeeds⟩)
        · exact .inr ⟨member, succeeds⟩

/-- What a cache has for a new name is what it builds. -/
theorem offers_of_new (isNew : cache.contains name = false) :
    cache.offers files name = cache.load files name := by
  have unknown : Keyed.find? name cache.assets = none := by
    simpa [contains] using isNew
  rw [offers, unknown]

/-- What is new in a cache that was asked for some names was built for its name. -/
theorem load_of_find?_getAll {names : List String}
    (known : Keyed.find? name (getAll files names cache).assets = some shared)
    (isNew : cache.contains name = false) : cache.load files name = .ok shared.asset := by
  calc cache.load files name
    _ = cache.offers files name := (offers_of_new isNew).symm
    _ = (getAll files names cache).offers files name := by rw [offers_getAll]
    _ = .ok shared.asset := by rw [offers, known]

/-- A name leads nowhere if there is no file at any of its places. A file that is there does not
fail so, whatever is in it. -/
theorem load_eq_notFound_iff (cache : Cache) (files : Files) (name : String) :
    cache.load files name = .error (.notFound (.asset name)) ↔
      ∀ path ∈ cache.candidates name, files.isRegular path = false := by
  have nowhere : cache.locate? files name = none ↔
      ∀ path ∈ cache.candidates name, files.isRegular path = false := by
    simp [locate?, List.find?_eq_none]
  rw [← nowhere, load]
  cases cache.locate? files name with
  | none => exact iff_of_true rfl rfl
  | some path =>
      refine iff_of_false ?_ (Option.some_ne_none path)
      dsimp only
      intro missing
      unfold Asset.ofFile at missing
      split at missing
      · cases missing
      · split at missing
        · cases missing
        · cases missing

/-- Only what cannot be built cannot be had. -/
theorem fst_get_eq_error_iff (isNew : cache.contains name = false) {fault : AssetFault} :
    (cache.get files name).1 = .error fault ↔ cache.load files name = .error fault := by
  rw [← offers_of_new isNew, ← map_asset_get]
  cases (cache.get files name).1 with
  | error fault' => simp [Except.map]
  | ok shared => exact iff_of_false nofun nofun

/-- An asset that the cache does not know is the one that it builds, and is shared. -/
theorem get_eq (cache : Cache) (files : Files) (name : String) :
    cache.get files name =
      match Keyed.find? name cache.assets with
      | some shared => (.ok shared, cache)
      | none =>
          match cache.load files name with
          | .error fault => (.error fault, cache)
          | .ok asset => (.ok ⟨cache.built, asset⟩, (cache.share name asset).2) := by
  rcases cache.get_cases files name with
    ⟨shared, known, got⟩ | ⟨unknown, fault, loads, got⟩ | ⟨unknown, asset, loads, got⟩
  · rw [got, known]
  · rw [got, unknown, loads]
  · rw [got, unknown, loads]

/-- What is built for a name comes from the first of its places that has a file. -/
theorem load_of_located {before after : List String} {path : String}
    (places : cache.candidates name = before ++ path :: after)
    (none : ∀ earlier ∈ before, files.isRegular earlier = false)
    (found : files.isRegular path = true) :
    cache.load files name = Asset.ofFile files path cache.options := by
  have located : cache.locate? files name = some path := by
    rw [locate?, places, List.find?_append,
      List.find?_eq_none.mpr fun earlier member => by simp [none earlier member],
      List.find?_cons_of_pos found]
    rfl
  rw [load, located]

/-- What is behind that place makes no difference. -/
theorem load_congr_files {before after : List String} {path : String} {files' : Files}
    (places : cache.candidates name = before ++ path :: after)
    (none : ∀ earlier ∈ before, files.isRegular earlier = false)
    (found : files.isRegular path = true)
    (same : ∀ other ∈ before ++ [path], files' other = files other) :
    cache.load files' name = cache.load files name := by
  have regular : ∀ other ∈ before ++ [path], files'.isRegular other = files.isRegular other := by
    intro other member
    rw [Files.isRegular, Files.isRegular, same other member]
  have here : path ∈ before ++ [path] := List.mem_append_right _ (List.mem_singleton_self path)
  have none' : ∀ earlier ∈ before, files'.isRegular earlier = false := by
    intro earlier member
    rw [regular earlier (List.mem_append_left _ member), none earlier member]
  rw [load_of_located places none found,
    load_of_located places none' ((regular path here).trans found), Asset.ofFile, Asset.ofFile,
    Files.readText, Files.readText, same path here]

theorem get_congr_files {files' : Files} (same : cache.load files' name = cache.load files name) :
    cache.get files' name = cache.get files name := by
  rw [get_eq, get_eq, same]

end Cache

namespace Invocation

variable {cache cache' : Cache} {files : Files}

/-- The calls that an expansion gets to: all of them if failures are silent, and otherwise
the ones up to the first that fails. -/
def reached (files : Files) (silent : Bool) (calls : List Invocation) (cache : Cache) :
    List Invocation :=
  if silent then calls
  else calls.take ((calls.takeWhile fun call => (call.render files cache).1.isOk).length + 1)

theorem reached_congr (same : cache.offers files = cache'.offers files) (silent : Bool)
    (calls : List Invocation) :
    reached files silent calls cache = reached files silent calls cache' := by
  have alike : (fun call : Invocation => (call.render files cache).1.isOk) =
      fun call => (call.render files cache').1.isOk := by
    funext call
    rw [render_congr same]
  rw [reached, reached, alike]

/-- An expansion leaves the cache as asking for the assets of its calls does. -/
theorem snd_expandFrom (files : Files) (silent : Bool) (value : List Char) (offset : Nat)
    (calls : List Invocation) (cache : Cache) :
    (expandFrom files silent value offset calls cache).2 =
      Cache.getAll files ((reached files silent calls cache).map (·.target.1)) cache := by
  induction calls generalizing offset cache with
  | nil => simp [expandFrom, reached, Cache.getAll]
  | cons call rest ih =>
      have asks : (call.render files cache).2 = (cache.get files call.target.1).2 := by
        rw [render_eq]
      have later : reached files silent rest (call.render files cache).2 =
          reached files silent rest cache :=
        reached_congr (call.offers_render files cache) silent rest
      rcases rendered : call.render files cache with ⟨fault | uri, next⟩
      · simp only [rendered] at asks later
        cases silent with
        | true =>
            rw [expandFrom_silent_of_error rendered, ih, later, asks]
            rfl
        | false =>
            have last : reached files false (call :: rest) cache = [call] := by
              simp [reached, rendered, Except.isOk, Except.toBool]
            rw [expandFrom_loud_of_error rendered, last, asks]
            rfl
      · simp only [rendered] at asks later
        have first : reached files silent (call :: rest) cache =
            call :: reached files silent rest cache := by
          cases silent with
          | true => rfl
          | false => simp [reached, rendered, Except.isOk, Except.toBool]
        rw [expandFrom_of_ok rendered, ih, first, later, asks]
        rfl

end Invocation

namespace Request

/-- The calls that a request answers. -/
def calls (files : Files) (cache : Cache) : Request → List Invocation
  | get _ => []
  | render call => [call]
  | expand config value =>
      Invocation.reached files config.isSilent (Invocation.find value config.func) cache

/-- The names that a request asks the cache for. -/
def asked (files : Files) (cache : Cache) : Request → List String
  | get name => [name]
  | request => (request.calls files cache).map (·.target.1)

/-- All that a request does to a cache is to ask for assets. -/
theorem snd_answer (request : Request) (files : Files) (cache : Cache) :
    (request.answer files cache).2 = Cache.getAll files (request.asked files cache) cache := by
  cases request with
  | get name => rfl
  | render call =>
      rw [answer, Invocation.render_eq]
      rfl
  | expand config value => exact Invocation.snd_expandFrom ..

end Request

end ThemedSvg

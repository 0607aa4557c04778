/-
# Sessions on a cache

A cache is used for long: assets are put into it and asked for, values are expanded, more
directories are searched, and all the while files come, change and go. An asset that a name
once got stays with it until another one is put in its place. What fails takes nothing away,
and adds nothing but assets that were built on the way to the failure. This module follows
single operations first, and then sessions of any length.
-/

import ThemedSvg.Proofs.Asking
import ThemedSvg.Proofs.Direct
import ThemedSvg.Proofs.RoundTrip

namespace ThemedSvg

/-- What happens in a session. Files may become any others, at any time. -/
inductive Operation
  | insertMarkup (name markup : String)
  | addDirectory (directory : String)
  | ask (request : Request)
  | change (files : Files)

/-- A cache and the files as they are. -/
structure Session where
  files : Files
  cache : Cache

namespace Operation

/-- What an operation gives, and the session behind it. -/
def perform (session : Session) : Operation → Except AssetFault (Option Answer) × Session
  | insertMarkup name markup =>
      let (result, cache) := session.cache.insertMarkup name markup
      (result.map fun shared => some (.asset shared), { session with cache })
  | addDirectory directory =>
      (.ok none, { session with cache := session.cache.addDirectory directory })
  | ask request =>
      let (result, cache) := request.answer session.files session.cache
      (result.map some, { session with cache })
  | change files => (.ok none, { session with files })

/-- The names that an operation gets an asset for, or puts one under. -/
def names (session : Session) : Operation → List String
  | insertMarkup name markup =>
      if ((insertMarkup name markup).perform session).1.isOk then [name] else []
  | ask request =>
      (request.asked session.files session.cache).filter fun name =>
        (session.cache.get session.files name).1.isOk
  | addDirectory _ | change _ => []

/-- The search directories that an operation adds. -/
def directories : Operation → List String
  | addDirectory directory => [directory]
  | _ => []

/-- A name gets another asset, whether it had one or not. -/
def Replaces (name : String) (session : Session) (operation : Operation) : Prop :=
  ∃ markup, operation = insertMarkup name markup ∧ (operation.perform session).1.isOk = true

/-- An operation that is all about the asset of one name. -/
def IsAbout (name : String) (operation : Operation) : Prop :=
  operation = ask (.get name) ∨ ∃ markup, operation = insertMarkup name markup

/-! ## Single operations -/

variable {session : Session} {name : String}

/-- Inserting markup can fail, and nothing happens, or succeed, and an asset is shared. -/
theorem perform_insertMarkup_cases (session : Session) (name markup : String) :
    (∃ fault, perform session (insertMarkup name markup) = (.error fault, session)) ∨
    ∃ asset, perform session (insertMarkup name markup) =
      (.ok (some (.asset ⟨session.cache.built, asset⟩)),
        { session with cache := (session.cache.share name asset).2 }) := by
  unfold perform Cache.insertMarkup
  dsimp only
  cases Asset.ofMarkup markup session.cache.options with
  | error fault => exact .inl ⟨_, rfl⟩
  | ok asset => exact .inr ⟨asset, rfl⟩

theorem perform_get (session : Session) (name : String) :
    perform session (ask (.get name)) =
      ((session.cache.get session.files name).1.map fun shared => some (.asset shared),
        { session with cache := (session.cache.get session.files name).2 }) := by
  rw [perform, Request.answer]
  rcases session.cache.get session.files name with ⟨fault | shared, next⟩ <;> rfl

/-- An operation that is about one name fails, and nothing happens, or it leaves the name with
the asset that it gives. -/
theorem perform_cases_of_isAbout {operation : Operation} (isAbout : operation.IsAbout name)
    (session : Session) :
    (∃ fault, operation.perform session = (.error fault, session)) ∨
    ∃ shared next, operation.perform session = (.ok (some (.asset shared)), next) ∧
      Keyed.find? name next.cache.assets = some shared := by
  rcases isAbout with rfl | ⟨markup, rfl⟩
  · rcases session.cache.get_cases session.files name with
      ⟨shared, known, got⟩ | ⟨_, fault, _, got⟩ | ⟨_, asset, _, got⟩
    · rw [perform_get, got]
      exact .inr ⟨shared, session, rfl, known⟩
    · rw [perform_get, got]
      exact .inl ⟨fault, rfl⟩
    · rw [perform_get, got]
      exact .inr ⟨_, _, rfl, Keyed.find?_insert_self ..⟩
  · rcases perform_insertMarkup_cases session name markup with ⟨fault, fails⟩ | ⟨asset, inserts⟩
    · exact .inl ⟨fault, fails⟩
    · exact .inr ⟨_, _, inserts, Keyed.find?_insert_self ..⟩

theorem cache_perform_ask (request : Request) (session : Session) :
    (perform session (ask request)).2.cache =
      Cache.getAll session.files (request.asked session.files session.cache) session.cache :=
  request.snd_answer session.files session.cache

/-- What is new in the cache is what the operation names. -/
theorem contains_perform (operation : Operation) (session : Session) (name : String) :
    (operation.perform session).2.cache.contains name = true ↔
      session.cache.contains name = true ∨ name ∈ operation.names session := by
  cases operation with
  | addDirectory directory => simp [perform, names, Cache.addDirectory, Cache.contains]
  | change files => simp [perform, names]
  | ask request =>
      rw [cache_perform_ask]
      exact Cache.contains_getAll ..
  | insertMarkup other markup =>
      rw [names]
      rcases perform_insertMarkup_cases session other markup with ⟨fault, fails⟩ | ⟨asset, inserts⟩
      · rw [fails]
        simp [Except.isOk, Except.toBool]
      · rw [inserts]
        simp [Except.isOk, Except.toBool, Cache.contains_share]

theorem options_perform (operation : Operation) (session : Session) :
    (operation.perform session).2.cache.options = session.cache.options := by
  cases operation with
  | addDirectory directory => rfl
  | change files => rfl
  | ask request =>
      rw [cache_perform_ask]
      exact Cache.options_getAll ..
  | insertMarkup name markup =>
      rcases perform_insertMarkup_cases session name markup with ⟨fault, fails⟩ | ⟨asset, inserts⟩
      · rw [fails]
      · rw [inserts]
        rfl

theorem directories_perform (operation : Operation) (session : Session) :
    (operation.perform session).2.cache.directories =
      session.cache.directories ++ operation.directories := by
  cases operation with
  | addDirectory directory => rfl
  | change files => exact (List.append_nil _).symm
  | ask request =>
      rw [cache_perform_ask, Cache.directories_getAll]
      exact (List.append_nil _).symm
  | insertMarkup name markup =>
      rw [show (insertMarkup name markup).directories = [] from rfl, List.append_nil]
      rcases perform_insertMarkup_cases session name markup with ⟨fault, fails⟩ | ⟨asset, inserts⟩
      · rw [fails]
      · rw [inserts]
        rfl

theorem ordered_perform (ordered : Keyed.Ordered session.cache.assets) (operation : Operation) :
    Keyed.Ordered (operation.perform session).2.cache.assets := by
  cases operation with
  | addDirectory directory => exact ordered
  | change files => exact ordered
  | ask request =>
      rw [cache_perform_ask]
      exact Cache.ordered_getAll ordered ..
  | insertMarkup name markup =>
      rcases perform_insertMarkup_cases session name markup with ⟨fault, fails⟩ | ⟨asset, inserts⟩
      · rw [fails]
        exact ordered
      · rw [inserts]
        exact Keyed.ordered_insert ordered

/-- The asset of a name stays until another one takes its place. -/
theorem find?_perform {shared : SharedAsset}
    (known : Keyed.find? name session.cache.assets = some shared) {operation : Operation}
    (spares : ¬ operation.Replaces name session) :
    Keyed.find? name (operation.perform session).2.cache.assets = some shared := by
  cases operation with
  | addDirectory directory => exact known
  | change files => exact known
  | ask request =>
      rw [cache_perform_ask]
      exact Cache.find?_getAll known
  | insertMarkup other markup =>
      rcases perform_insertMarkup_cases session other markup with ⟨fault, fails⟩ | ⟨asset, inserts⟩
      · rw [fails]
        exact known
      · have differs : name ≠ other := by
          rintro rfl
          exact spares ⟨markup, rfl, by rw [inserts]; rfl⟩
        rw [inserts]
        exact (Keyed.find?_insert_of_ne differs ..).trans known

/-- A failure puts no asset in place of another one. -/
theorem not_replaces_of_fails {fault : AssetFault} {operation : Operation}
    (fails : (operation.perform session).1 = .error fault) (name : String) :
    ¬ operation.Replaces name session := by
  rintro ⟨markup, _, succeeds⟩
  rw [fails] at succeeds
  cases succeeds

/-- An asset that is there is given. -/
theorem perform_get_of_known {shared : SharedAsset}
    (known : Keyed.find? name session.cache.assets = some shared) :
    ((ask (.get name)).perform session).1 = .ok (some (.asset shared)) := by
  rw [perform_get, Cache.get_eq, known]
  rfl

theorem find?_perform_self {shared : SharedAsset} {operation : Operation}
    (isAbout : operation.IsAbout name)
    (gives : (operation.perform session).1 = .ok (some (.asset shared))) :
    Keyed.find? name (operation.perform session).2.cache.assets = some shared := by
  rcases perform_cases_of_isAbout isAbout session with ⟨fault, fails⟩ | ⟨_, next, performs, known⟩
  · rw [fails] at gives
    cases gives
  · rw [performs] at gives ⊢
    cases gives
    exact known

theorem perform_of_fails {fault : AssetFault} {operation : Operation}
    (isAbout : operation.IsAbout name) (fails : (operation.perform session).1 = .error fault) :
    (operation.perform session).2 = session := by
  rcases perform_cases_of_isAbout isAbout session with ⟨fault', performs⟩ | ⟨_, _, performs, _⟩
  · rw [performs]
  · rw [performs] at fails
    cases fails

/-- Names that failing calls add are targets of these, with the assets built for them. -/
theorem added_of_fails {fault : AssetFault} {shared : SharedAsset} {operation : Operation}
    (fails : (operation.perform session).1 = .error fault)
    (isNew : session.cache.contains name = false)
    (known : Keyed.find? name (operation.perform session).2.cache.assets = some shared) :
    ∃ request call, operation = .ask request ∧
      call ∈ request.calls session.files session.cache ∧ call.target.1 = name ∧
      session.cache.load session.files name = .ok shared.asset := by
  -- an operation that is about one name changes nothing when it fails: calls are left
  have stays {operation : Operation} (isAbout : ∃ other, operation.IsAbout other)
      (fails : (operation.perform session).1 = .error fault)
      (known : Keyed.find? name (operation.perform session).2.cache.assets = some shared) :
      False := by
    obtain ⟨other, isAbout⟩ := isAbout
    rw [perform_of_fails isAbout fails] at known
    simp [Cache.contains, known] at isNew
  cases operation with
  | addDirectory directory => cases fails
  | change files => cases fails
  | insertMarkup other markup => exact (stays ⟨other, .inr ⟨markup, rfl⟩⟩ fails known).elim
  | ask request =>
      have added : name ∈ request.asked session.files session.cache := by
        have contains : ((ask request).perform session).2.cache.contains name = true := by
          rw [Cache.contains, known]
          rfl
        rw [contains_perform, isNew] at contains
        exact List.mem_of_mem_filter (contains.resolve_left Bool.false_ne_true)
      rw [cache_perform_ask] at known
      have loads := Cache.load_of_find?_getAll known isNew
      cases request with
      | get other => exact (stays ⟨other, .inl rfl⟩ fails (by rwa [cache_perform_ask])).elim
      | render call =>
          obtain ⟨call, member, same⟩ := List.mem_map.mp added
          exact ⟨_, call, rfl, member, same, loads⟩
      | expand config value =>
          obtain ⟨call, member, same⟩ := List.mem_map.mp added
          exact ⟨_, call, rfl, member, same, loads⟩

end Operation

/-! ## Any number of operations -/

namespace Session

/-- A session that begins with an empty cache. -/
def start (options : AssetOptions) (directories : List String) (files : Files) : Session :=
  ⟨files, { Cache.new options with directories }⟩

/-- The session behind some operations, whether they succeed or fail. -/
def after (session : Session) (operations : List Operation) : Session :=
  operations.foldl (fun session operation => (operation.perform session).2) session

/-- The names that operations get assets for, or put some under, one after the other. -/
def names (session : Session) : List Operation → List String
  | [] => []
  | operation :: rest => operation.names session ++ (operation.perform session).2.names rest

/-- No operation puts an asset in place of the one that a name has. -/
def Spares (name : String) (session : Session) : List Operation → Prop
  | [] => True
  | operation :: rest =>
      ¬ operation.Replaces name session ∧ (operation.perform session).2.Spares name rest

variable {session : Session} {options : AssetOptions} {directories met : List String}

theorem find?_after {name : String} {shared : SharedAsset} {operations : List Operation}
    (known : Keyed.find? name session.cache.assets = some shared)
    (spared : session.Spares name operations) :
    Keyed.find? name (session.after operations).cache.assets = some shared := by
  induction operations generalizing session with
  | nil => exact known
  | cons operation rest ih => exact ih (Operation.find?_perform known spared.1) spared.2

/-- What holds of a session all along: its cache has kept the options, has the directories
that were added, and knows the names that there were assets for. -/
structure Tidy (options : AssetOptions) (directories names : List String)
    (session : Session) : Prop where
  options : session.cache.options = options
  directories : session.cache.directories = directories
  ordered : Keyed.Ordered session.cache.assets
  known : ∀ name, session.cache.contains name = true ↔ name ∈ names

theorem tidy_start (options : AssetOptions) (directories : List String) (files : Files) :
    Tidy options directories [] (start options directories files) where
  options := rfl
  directories := rfl
  ordered := List.Pairwise.nil
  known := by simp [start, Cache.new, Cache.contains, Keyed.find?]

theorem Tidy.perform (tidy : session.Tidy options directories met) (operation : Operation) :
    Tidy options (directories ++ operation.directories) (met ++ operation.names session)
      (operation.perform session).2 where
  options := by
    rw [← tidy.options]
    exact operation.options_perform session
  directories := by
    rw [← tidy.directories]
    exact operation.directories_perform session
  ordered := operation.ordered_perform tidy.ordered
  known name := by rw [operation.contains_perform, tidy.known, List.mem_append]

theorem Tidy.after (tidy : session.Tidy options directories met)
    (operations : List Operation) :
    Tidy options (directories ++ operations.flatMap Operation.directories)
      (met ++ session.names operations) (session.after operations) := by
  induction operations generalizing session directories met with
  | nil =>
      rw [List.flatMap_nil, names, List.append_nil, List.append_nil]
      exact tidy
  | cons operation rest ih =>
      rw [List.flatMap_cons, names, ← List.append_assoc, ← List.append_assoc]
      exact ih (tidy.perform operation)

/-- What can be relied on at any point of a session. -/
structure Safe (options : AssetOptions) (directories names : List String)
    (session : Session) : Prop where
  /-- An asset that is given for a name, or put under it, is the one that is given for that
  name from then on, until another one takes its place. -/
  shared : ∀ (name : String) (operation : Operation) (shared : SharedAsset),
    operation.IsAbout name →
    (operation.perform session).1 = .ok (some (.asset shared)) →
    ∀ operations, (operation.perform session).2.Spares name operations →
      ((Operation.ask (.get name)).perform
        ((operation.perform session).2.after operations)).1 = .ok (some (.asset shared))
  /-- What fails replaces and removes no asset. -/
  kept : ∀ (operation : Operation) (fault : AssetFault),
    (operation.perform session).1 = .error fault →
    ∀ name shared, Keyed.find? name session.cache.assets = some shared →
      Keyed.find? name (operation.perform session).2.cache.assets = some shared
  /-- An asset that cannot be had, or put under a name, leaves everything as it is. -/
  unchanged : ∀ (name : String) (operation : Operation) (fault : AssetFault),
    operation.IsAbout name → (operation.perform session).1 = .error fault →
    (operation.perform session).2 = session
  /-- When calls fail, the only names added are theirs, with the assets built for them. -/
  added : ∀ (operation : Operation) (fault : AssetFault),
    (operation.perform session).1 = .error fault →
    ∀ name shared, session.cache.contains name = false →
      Keyed.find? name (operation.perform session).2.cache.assets = some shared →
      ∃ request call, operation = .ask request ∧
        call ∈ request.calls session.files session.cache ∧ call.target.1 = name ∧
        session.cache.load session.files name = .ok shared.asset
  /-- The size counts the different names that there were assets for. -/
  size : session.cache.size = names.dedup.length
  /-- Files are looked for in the directories, in the order in which these were added. -/
  candidates : ∀ name, session.cache.candidates name =
    (if directories.isEmpty then ["."] else directories).flatMap fun directory =>
      [Files.join directory name, Files.join directory (name ++ ".svg")]
  /-- A name without an asset cannot be found if, and only if, there is no file for it. -/
  missing : ∀ name, session.cache.contains name = false →
    ((session.cache.get session.files name).1 = .error (.notFound (.asset name)) ↔
      ∀ path ∈ session.cache.candidates name, session.files.isRegular path = false)
  /-- Otherwise its asset is that of its first file, and so is what is wrong with it. What
  is behind that file does not matter. -/
  built : ∀ name before path after, session.cache.contains name = false →
    session.cache.candidates name = before ++ path :: after →
    (∀ earlier ∈ before, session.files.isRegular earlier = false) →
    session.files.isRegular path = true →
    (session.cache.get session.files name).1.map SharedAsset.asset =
        Asset.ofFile session.files path options ∧
      ∀ files : Files, (∀ other ∈ before ++ [path], files other = session.files other) →
        session.cache.get files name = session.cache.get session.files name

theorem Tidy.safe (tidy : session.Tidy options directories met) :
    session.Safe options directories met where
  shared name operation shared isAbout gives operations spared := by
    have known := find?_after (Operation.find?_perform_self isAbout gives) spared
    exact Operation.perform_get_of_known known
  kept operation fault fails name shared known :=
    Operation.find?_perform known (Operation.not_replaces_of_fails fails name)
  unchanged name operation fault isAbout fails := Operation.perform_of_fails isAbout fails
  added operation fault fails name shared isNew known :=
    Operation.added_of_fails fails isNew known
  size := Keyed.length_eq_dedup tidy.ordered tidy.known
  candidates name := by rw [Cache.candidates, Cache.searched, tidy.directories]
  missing name isNew := by
    rw [Cache.fst_get_eq_error_iff isNew]
    exact session.cache.load_eq_notFound_iff session.files name
  built name before path after isNew places none found := by
    refine ⟨?_, ?_⟩
    · rw [Cache.map_asset_get, Cache.offers_of_new isNew,
        Cache.load_of_located places none found, tidy.options]
    · intro files same
      exact Cache.get_congr_files (Cache.load_congr_files places none found same)

/-- Whatever was done on a cache, and whatever became of the files meanwhile, it is safe to
go on with it. -/
theorem safe_after (options : AssetOptions) (directories : List String) (files : Files)
    (history : List Operation) :
    Safe options (directories ++ history.flatMap Operation.directories)
      ((start options directories files).names history)
      ((start options directories files).after history) :=
  ((tidy_start options directories files).after history).safe

/-- A sheet without sprites. -/
def bareSheet : Asset := .direct (.path "./sheet.svg") .standard ⟨"svg", [], []⟩

/-- The file of the sheet, and no other. -/
def bareFiles : Files := fun path =>
  if path = "./sheet.svg" then .ok "<svg/>".toUTF8 else .error .notFound

theorem load_bareSheet : (Cache.new .standard).load bareFiles "sheet" = .ok bareSheet := by
  have located : (Cache.new .standard).locate? bareFiles "sheet" = some "./sheet.svg" := by
    decide +kernel
  have text : bareFiles.readText "./sheet.svg" = .ok "<svg/>" := by
    decide +kernel
  have written : (⟨"svg", [], []⟩ : Element).serialize = "<svg/>" := by decide +kernel
  have parsed : Markup.parse (⟨"svg", [], []⟩ : Element).serialize = .ok ⟨"svg", [], []⟩ :=
    Markup.parse_serialize_of_apart (by decide +kernel) (by decide)
  rw [written] at parsed
  have built : Asset.build (.path "./sheet.svg") (Cache.new .standard).options "<svg/>" =
      .ok bareSheet :=
    Asset.build_eq_ok_direct _ _ (.ofParse parsed (by decide)) parsed
  simp only [Cache.load, located, Asset.ofFile, text, built]

/-- Failures are raised. -/
def loud : Config := { Config.standard with silent := false }

/-- A value that asks for a sprite which a sheet does not have is not expanded, but the sheet
stays in the cache. -/
theorem contains_bareSheet :
    ∃ session operation, session = start .standard [] bareFiles ∧
      operation = Operation.ask (.expand loud "svg(\"sheet missing\")") ∧
      (operation.perform session).1 = .error (.notFound (.sprite "missing")) ∧
      session.cache.contains "sheet" = false ∧
      (operation.perform session).2.cache.contains "sheet" = true := by
  let call : Invocation := ⟨0, 20, "sheet missing", none⟩
  let warm : Cache := ((Cache.new .standard).share "sheet" bareSheet).2
  have found : Invocation.find "svg(\"sheet missing\")" loud.func = [call] := by
    decide +kernel
  have target : call.target = ("sheet", ["missing"]) := by decide +kernel
  have missing : bareSheet.resolve ["missing"] = .error (.sprite "missing") := by
    rw [bareSheet, Asset.direct_eq]
    rfl
  have got : (Cache.new .standard).get bareFiles "sheet" = (.ok ⟨0, bareSheet⟩, warm) := by
    rw [Cache.get_eq, load_bareSheet]
    rfl
  have rendered : call.render bareFiles (Cache.new .standard) =
      (.error (.notFound (.sprite "missing")), warm) := by
    rw [Invocation.render_eq, target, got]
    simp only [Except.bind, SharedAsset.uri, missing]
  have expands : loud.expand (start .standard [] bareFiles).files
      (start .standard [] bareFiles).cache "svg(\"sheet missing\")" =
        (.error (.notFound (.sprite "missing")), warm) := by
    rw [Config.expand, found]
    exact Invocation.expandFrom_loud_of_error rendered
  have performed : (Operation.ask (.expand loud "svg(\"sheet missing\")")).perform
      (start .standard [] bareFiles) =
        (.error (.notFound (.sprite "missing")), ⟨bareFiles, warm⟩) := by
    simp only [Operation.perform, Request.answer, expands, Except.map]
    rfl
  refine ⟨_, _, rfl, rfl, ?_, rfl, ?_⟩
  · rw [performed]
  · rw [performed]
    exact (Cache.contains_share ..).mpr (.inr rfl)

end Session
end ThemedSvg

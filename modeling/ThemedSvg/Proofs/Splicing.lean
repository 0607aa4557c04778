/-
# Expansion as a splice

Expanding a declaration value puts the data URIs of its calls in the place of the calls and
touches nothing else. What the calls ask for is rendered from the left, each with the cache
that the ones before it leave. A silent configuration keeps the calls that fail, as they
are, and warns of each; another one fails as the first of them does, and keeps in the cache
what was loaded up to there.
-/

import ThemedSvg.Declaration.Expansion
import ThemedSvg.Proofs.Outcomes
import ThemedSvg.Proofs.Spans

namespace ThemedSvg

namespace Cache

variable {cache : Cache} {files : Files} {name other : String} {shared : SharedAsset}

/-- Asking for an asset takes none away. -/
theorem find?_get (known : Keyed.find? name cache.assets = some shared) :
    Keyed.find? name (cache.get files other).2.assets = some shared := by
  unfold get
  split
  · exact known
  · next unknown =>
      split
      · exact known
      · split
        · exact known
        · have differs : name ≠ other := by
            rintro rfl
            exact Option.some_ne_none shared (known.symm.trans unknown)
          rw [share, Keyed.find?_insert_of_ne differs]
          exact known

/-- An asset that was asked for is in the cache from then on. -/
theorem find?_get_self (found : (cache.get files name).1 = .ok shared) :
    Keyed.find? name (cache.get files name).2.assets = some shared := by
  unfold get at found ⊢
  split at found
  · next known =>
      cases found
      exact known
  · split at found
    · cases found
    · split at found
      · cases found
      · cases found
        exact Keyed.find?_insert_self name _ cache.assets

end Cache

namespace Invocation

open Text (Place)

variable {files : Files} {cache : Cache} {call : Invocation} {calls : List Invocation}
variable {silent : Bool} {value : List Char} {offset : Nat}

/-- What calls ask for, from the left, each with the cache that the ones before it leave. -/
def renderAll (files : Files) :
    List Invocation → Cache → List (Except AssetFault String) × Cache
  | [], cache => ([], cache)
  | call :: calls, cache =>
      let (result, cache) := call.render files cache
      let (results, cache) := renderAll files calls cache
      (result :: results, cache)

theorem renderAll_cons (files : Files) (call : Invocation) (calls : List Invocation)
    (cache : Cache) :
    renderAll files (call :: calls) cache =
      ((call.render files cache).1 :: (renderAll files calls (call.render files cache).2).1,
        (renderAll files calls (call.render files cache).2).2) := rfl

/-- What is written for a call with the text in front of it: the data URI in place of the
call, or the call as it is if there is none. -/
def filled (place : Place) : Except AssetFault String → List Char
  | .ok uri => place.gap ++ uri.toList
  | .error _ => place.written

/-- A value with what calls ask for in their places. -/
def splice (places : List Place) (results : List (Except AssetFault String))
    (behind : List Char) : String :=
  String.ofList ((List.zipWith filled places results).flatten ++ behind)

/-- The warning of a call that fails. -/
def warning? (call : Invocation) : Except AssetFault String → Option Warning
  | .ok _ => none
  | .error fault => some (call.warning fault)

/-- The warnings of the calls that fail, from the left. -/
def warnings (calls : List Invocation) (results : List (Except AssetFault String)) :
    List Warning :=
  (List.zipWith warning? calls results).filterMap id

/-! ### What rendering leaves in the cache -/

/-- A call asks the cache for its asset first, and that is all it does to the cache. -/
theorem render_eq (call : Invocation) (files : Files) (cache : Cache) :
    call.render files cache =
      ((cache.get files call.target.1).1.bind fun shared =>
        shared.uri call.target.2 (Params.ofShorthand (call.params.getD "")),
        (cache.get files call.target.1).2) := by
  rcases target : call.target with ⟨name, path⟩
  simp only [render, target]
  rcases cache.get files name with ⟨fault | shared, next⟩
  · rfl
  · rfl

theorem find?_render {name : String} {shared : SharedAsset}
    (known : Keyed.find? name cache.assets = some shared) :
    Keyed.find? name (call.render files cache).2.assets = some shared := by
  rw [render_eq]
  exact Cache.find?_get known

theorem find?_renderAll {name : String} {shared : SharedAsset}
    (known : Keyed.find? name cache.assets = some shared) :
    Keyed.find? name (renderAll files calls cache).2.assets = some shared := by
  induction calls generalizing cache with
  | nil => exact known
  | cons call rest ih => exact ih (find?_render known)

/-- A call that succeeds leaves its asset in the cache. -/
theorem exists_find?_render {uri : String} {next : Cache}
    (succeeds : call.render files cache = (.ok uri, next)) :
    ∃ shared, Keyed.find? call.target.1 next.assets = some shared := by
  rw [render_eq] at succeeds
  obtain ⟨result, rfl⟩ := Prod.mk.inj succeeds
  cases found : (cache.get files call.target.1).1 with
  | error fault =>
      rw [found] at result
      cases result
  | ok shared => exact ⟨shared, Cache.find?_get_self found⟩

/-- The cache is left with every asset of calls that all succeed. -/
theorem exists_find?_renderAll
    (succeed : ∀ result ∈ (renderAll files calls cache).1, result.isOk = true)
    (member : call ∈ calls) :
    ∃ shared, Keyed.find? call.target.1 (renderAll files calls cache).2.assets = some shared := by
  induction calls generalizing cache with
  | nil => cases member
  | cons first rest ih =>
      rw [renderAll_cons] at succeed ⊢
      obtain ⟨succeeds, later⟩ := List.forall_mem_cons.mp succeed
      rcases List.mem_cons.mp member with rfl | member
      · rcases outcome : call.render files cache with ⟨fault | uri, next⟩
        · rw [outcome] at succeeds
          cases succeeds
        · obtain ⟨shared, known⟩ := exists_find?_render outcome
          exact ⟨shared, find?_renderAll known⟩
      · exact ih later member

/-! ### One call after the other -/

theorem expandFrom_of_ok {uri : String} {next : Cache}
    (rendered : call.render files cache = (.ok uri, next)) :
    expandFrom files silent value offset (call :: calls) cache =
      ((expandFrom files silent value call.stop calls next).1.map
        (·.behind (Text.sliceBytes offset call.start value ++ uri.toList)),
        (expandFrom files silent value call.stop calls next).2) := by
  rw [expandFrom, rendered]

theorem expandFrom_silent_of_error {fault : AssetFault} {next : Cache}
    (rendered : call.render files cache = (.error fault, next)) :
    expandFrom files true value offset (call :: calls) cache =
      ((expandFrom files true value call.stop calls next).1.map fun rest =>
        (rest.behind (Text.sliceBytes offset call.stop value)).warned (call.warning fault),
        (expandFrom files true value call.stop calls next).2) := by
  rw [expandFrom, rendered]
  rfl

theorem expandFrom_loud_of_error {fault : AssetFault} {next : Cache}
    (rendered : call.render files cache = (.error fault, next)) :
    expandFrom files false value offset (call :: calls) cache = (.error fault, next) := by
  rw [expandFrom, rendered]
  rfl

/-- In a silent run the text already passed is what stands before the offset; each call adds
one place to what is written, and its warning if it fails. -/
theorem expandFrom_silent {places : List Place} (before : List Char) {behind : List Char}
    (written : value = before ++ places.flatMap Place.written ++ behind)
    (spans : calls.map span = Place.spansFrom (Text.byteLength before) places) :
    expandFrom files true value (Text.byteLength before) calls cache =
      (.ok ⟨splice places (renderAll files calls cache).1 behind,
        warnings calls (renderAll files calls cache).1⟩, (renderAll files calls cache).2) := by
  induction calls generalizing places before cache with
  | nil =>
      cases places with
      | cons place rest => cases spans
      | nil =>
          rw [List.flatMap_nil, List.append_nil] at written
          rw [expandFrom, written, Text.dropBytes_byteLength_append]
          rfl
  | cons call rest ih =>
      cases places with
      | nil => cases spans
      | cons place others =>
          obtain ⟨start, stop, spans⟩ : call.start = Text.byteLength (before ++ place.gap) ∧
              call.stop = Text.byteLength (before ++ place.gap ++ place.inside) ∧
              rest.map span = Place.spansFrom
                (Text.byteLength (before ++ place.gap ++ place.inside)) others := by
            simpa [span, Place.spansFrom, and_assoc, Nat.add_assoc] using spans
          have written' : value = (before ++ place.gap ++ place.inside) ++
              others.flatMap Place.written ++ behind := by
            simpa only [List.flatMap_cons, Place.written, List.append_assoc] using written
          rcases rendered : call.render files cache with ⟨fault | uri, next⟩
          · have kept : Text.sliceBytes (Text.byteLength before) call.stop value =
                place.written := by
              rw [stop, written', List.append_assoc before, Text.byteLength_append,
                List.append_assoc (before ++ _)]
              exact Text.sliceBytes_append before place.written _
            rw [expandFrom_silent_of_error rendered, kept, stop, ih _ written' spans]
            simp [renderAll, rendered, Except.map, Expansion.behind, Expansion.warned, splice,
              warnings, filled, warning?]
          · have gap : Text.sliceBytes (Text.byteLength before) call.start value =
                place.gap := by
              rw [start, written', Text.byteLength_append, List.append_assoc (before ++ _),
                List.append_assoc (before ++ _)]
              exact Text.sliceBytes_append before place.gap _
            rw [expandFrom_of_ok rendered, gap, stop, ih _ written' spans]
            simp [renderAll, rendered, Except.map, Expansion.behind, splice, warnings, filled,
              warning?, String.append_assoc]

/-- As long as nothing fails it makes no difference whether failures are silent. -/
theorem expandFrom_loud_of_succeed
    (succeed : ∀ result ∈ (renderAll files calls cache).1, result.isOk = true) :
    expandFrom files false value offset calls cache =
      expandFrom files true value offset calls cache := by
  induction calls generalizing offset cache with
  | nil => rfl
  | cons call rest ih =>
      rw [renderAll_cons] at succeed
      obtain ⟨succeeds, later⟩ := List.forall_mem_cons.mp succeed
      rcases rendered : call.render files cache with ⟨fault | uri, next⟩
      · rw [rendered] at succeeds
        cases succeeds
      · rw [rendered] at later
        rw [expandFrom_of_ok rendered, expandFrom_of_ok rendered, ih later]

/-- A loud run ends at the first call that fails, and leaves the cache as that call does. -/
theorem expandFrom_loud_of_fails {place : Nat} {fault : AssetFault}
    (fails : (renderAll files calls cache).1[place]? = some (.error fault))
    (earlier : ∀ result ∈ (renderAll files calls cache).1.take place, result.isOk = true) :
    expandFrom files false value offset calls cache =
      (.error fault, (renderAll files (calls.take (place + 1)) cache).2) := by
  induction calls generalizing offset cache place with
  | nil => cases fails
  | cons call rest ih =>
      rcases rendered : call.render files cache with ⟨fault' | uri, next⟩
      · cases place with
        | zero =>
            have same : fault' = fault := by simpa [renderAll, rendered] using fails
            rw [expandFrom_loud_of_error rendered, same, List.take_succ_cons, List.take_zero]
            simp only [renderAll, rendered]
        | succ place =>
            have succeeds := earlier (.error fault') (by simp [renderAll, rendered])
            cases succeeds
      · cases place with
        | zero => simp [renderAll, rendered] at fails
        | succ place =>
            have fails' : (renderAll files rest next).1[place]? = some (.error fault) := by
              simpa [renderAll, rendered] using fails
            have earlier' : ∀ result ∈ (renderAll files rest next).1.take place,
                result.isOk = true := by
              intro result member
              apply earlier
              simp only [renderAll, rendered, List.take_succ_cons]
              exact List.mem_cons_of_mem _ member
            rw [expandFrom_of_ok rendered, ih fails' earlier', List.take_succ_cons]
            simp only [renderAll, rendered, Except.map]

theorem warnings_eq_nil {results : List (Except AssetFault String)}
    (succeed : ∀ result ∈ results, result.isOk = true) : warnings calls results = [] := by
  induction calls generalizing results with
  | nil => rfl
  | cons call rest ih =>
      cases results with
      | nil => rfl
      | cons result others =>
          obtain ⟨succeeds, later⟩ := List.forall_mem_cons.mp succeed
          cases result with
          | error fault => cases succeeds
          | ok uri => exact ih later

/-- A prefix of the calls is rendered as it is among all of them. -/
theorem renderAll_take (files : Files) (calls : List Invocation) (cache : Cache) (count : Nat) :
    (renderAll files (calls.take count) cache).1 =
      (renderAll files calls cache).1.take count := by
  induction calls generalizing cache count with
  | nil => rw [List.take_nil, renderAll, List.take_nil]
  | cons call rest ih =>
      cases count with
      | zero => rfl
      | succ count => simp only [List.take_succ_cons, renderAll_cons, ih]

/-- One more call adds to the cache that the ones before it leave. -/
theorem find?_renderAll_take_succ {count : Nat} {name : String} {shared : SharedAsset}
    (known : Keyed.find? name (renderAll files (calls.take count) cache).2.assets =
      some shared) :
    Keyed.find? name (renderAll files (calls.take (count + 1)) cache).2.assets =
      some shared := by
  induction calls generalizing cache count with
  | nil => simpa only [List.take_nil] using known
  | cons call rest ih =>
      cases count with
      | zero => exact find?_renderAll known
      | succ count => exact ih known

/-- Where not everything succeeds, something is the first to fail. -/
theorem exists_leftmost_fault {results : List (Except AssetFault String)}
    (fails : ¬ ∀ result ∈ results, result.isOk = true) :
    ∃ place fault, results[place]? = some (.error fault) ∧
      ∀ result ∈ results.take place, result.isOk = true := by
  induction results with
  | nil => simp at fails
  | cons result rest ih =>
      cases result with
      | error fault => exact ⟨0, fault, rfl, by simp⟩
      | ok uri =>
          have later : ¬ ∀ result ∈ rest, result.isOk = true := by
            intro succeed
            apply fails
            exact List.forall_mem_cons.mpr ⟨rfl, succeed⟩
          obtain ⟨place, fault, found, earlier⟩ := ih later
          refine ⟨place + 1, fault, found, ?_⟩
          rw [List.take_succ_cons]
          exact List.forall_mem_cons.mpr ⟨rfl, earlier⟩

end Invocation

namespace Config

open Invocation Text

/-- An expanded value is the value itself with a data URI in place of every call that
succeeds. The calls cut the value into slices of it. If failures are silent, all calls are
rendered and the ones that fail are warned of in their order. If not, the expansion
succeeds when all calls do, and otherwise fails as the leftmost one that fails; the cache
then is the one after that call, with all that the calls before it loaded. -/
theorem expand_splices (config : Config) (files : Files) (cache : Cache) (value : String) :
    ∃ calls results final places behind,
      calls = Invocation.find value config.func ∧
      renderAll files calls cache = (results, final) ∧
      value.toList = places.flatMap Place.written ++ behind ∧
      calls.map span = Place.spansFrom 0 places ∧
      (∀ cut ∈ cutsFrom (byteLength value.toList) 0 (calls.map span),
        IsSlice value.toList cut.1 cut.2) ∧
      (config.isSilent = true →
        config.expand files cache value =
          (.ok ⟨splice places results behind, warnings calls results⟩, final)) ∧
      (config.isSilent = false →
        ((∃ expansion, (config.expand files cache value).1 = .ok expansion) ↔
          ∀ result ∈ results, result.isOk = true) ∧
        ((∀ result ∈ results, result.isOk = true) →
          config.expand files cache value = (.ok ⟨splice places results behind, []⟩, final)) ∧
        ((¬ ∀ result ∈ results, result.isOk = true) →
          ∃ place fault left,
            results[place]? = some (.error fault) ∧
            (∀ result ∈ results.take place, result.isOk = true) ∧
            config.expand files cache value = (.error fault, left) ∧
            left = (renderAll files (calls.take (place + 1)) cache).2 ∧
            (∀ name shared,
              Keyed.find? name (renderAll files (calls.take place) cache).2.assets = some shared →
              Keyed.find? name left.assets = some shared) ∧
            ∀ call ∈ calls.take place,
              ∃ shared, Keyed.find? call.target.1 left.assets = some shared)) := by
  obtain ⟨places, behind, written, spans⟩ := (lie_find value config.func).exists_places
  set calls := Invocation.find value config.func with found
  set results := (renderAll files calls cache).1 with rendered
  have silent : expandFrom files true value.toList 0 calls cache =
      (.ok ⟨splice places results behind, warnings calls results⟩,
        (renderAll files calls cache).2) :=
    expandFrom_silent [] written spans
  have loud (succeed : ∀ result ∈ results, result.isOk = true) :
      expandFrom files false value.toList 0 calls cache =
        (.ok ⟨splice places results behind, []⟩, (renderAll files calls cache).2) := by
    rw [expandFrom_loud_of_succeed succeed, silent, warnings_eq_nil succeed]
  refine ⟨calls, results, _, places, behind, rfl, rfl, written, spans, ?_, ?_, ?_⟩
  · intro cut member
    rw [spans] at member
    exact isSlice_of_mem_cutsFrom [] written member
  · intro isSilent
    rw [expand, isSilent]
    exact silent
  · intro isLoud
    rw [expand, isLoud, ← found]
    refine ⟨⟨?_, ?_⟩, loud, ?_⟩
    · rintro ⟨expansion, succeeds⟩
      by_contra fails
      obtain ⟨place, fault, fails, earlier⟩ := exists_leftmost_fault fails
      rw [expandFrom_loud_of_fails fails earlier] at succeeds
      cases succeeds
    · intro succeed
      exact ⟨_, congrArg Prod.fst (loud succeed)⟩
    · intro fails
      obtain ⟨place, fault, fails, earlier⟩ := exists_leftmost_fault fails
      refine ⟨place, fault, _, fails, earlier, expandFrom_loud_of_fails fails earlier, rfl, ?_, ?_⟩
      · intro name shared known
        exact find?_renderAll_take_succ known
      · intro call member
        rw [rendered, ← renderAll_take] at earlier
        obtain ⟨shared, known⟩ := exists_find?_renderAll earlier member
        exact ⟨shared, find?_renderAll_take_succ known⟩

end Config

end ThemedSvg

/-
# Expanding again

What comes out of an expansion can be expanded again, and then nothing happens that did not
happen before. The data URIs that were put in begin no call and hide none: each of them is a
call of `url`, whose only argument is closed by a quote that no payload has in it. So what is
left of the calls are those that failed. They are found again as they were, they fail again,
and they are warned of in the same way.
-/

import ThemedSvg.Proofs.DataUris
import ThemedSvg.Proofs.Phrases
import ThemedSvg.Proofs.WarmCaches

namespace ThemedSvg

namespace Declaration

open Text

/-! ## What becomes of phrases -/

namespace Phrase

variable {func : List Char} {shows : String → Option String → Except AssetFault String}

/-- What a phrase is after an expansion: a call that shows markup is a data URI, and everything
else is as before. -/
def expanded (shows : String → Option String → Except AssetFault String) :
    Phrase → List Phrase
  | passed lexeme => [passed lexeme]
  | call name params head arguments =>
      match shows name params with
      | .ok markup => (link head.gap markup).map passed
      | .error _ => [call name params head arguments]

theorem all_map_passed (lexemes : List Lexeme) : all (lexemes.map passed) = lexemes := by
  induction lexemes with
  | nil => rfl
  | cons lexeme rest ih => rw [List.map_cons, all_cons, ih]; rfl

/-- A call is written as some lexemes of which the first begins with a name behind its blanks,
and the last is none. -/
structure IsSpoken (gap : List Char) (lexemes : List Lexeme) : Prop where
  apart : Apart lexemes
  head : ∃ first rest text, lexemes = first :: rest ∧ first.gap = gap ∧ first.token = .name text
  last : ∀ last ∈ lexemes.getLast?, last.token.isName = false

theorem isSpoken_link {gap : List Char} (blank : ∀ c ∈ gap, isBlank c = true)
    (markup : String) : IsSpoken gap (link gap markup) where
  apart := apart_link blank markup
  head := ⟨_, _, _, rfl, rfl, rfl⟩
  last := by
    intro last member
    cases Option.mem_some.mp member
    rfl

theorem isSpoken_call {name : String} {params : Option String} {head : Lexeme}
    {arguments : List Lexeme}
    (isCall : (head :: arguments).map Lexeme.token = callTokens func name params)
    (apart : Apart (head :: arguments)) : IsSpoken head.gap (head :: arguments) where
  apart := apart
  head := ⟨head, arguments, func, rfl, rfl, (List.cons.inj isCall).1⟩
  last := not_isName_of_mem_getLast? isCall

/-- Up to the next name, nothing changes. -/
theorem untilName_expanded {phrases : List Phrase} (parsed : Parsed func phrases) :
    untilName (tokens (phrases.flatMap (expanded shows))) = untilName (tokens phrases) := by
  induction phrases with
  | nil => rfl
  | cons phrase rest ih =>
      rw [List.flatMap_cons]
      cases phrase with
      | passed lexeme =>
          have same := ih parsed.2
          simp only [untilName, tokens, expanded, List.singleton_append, all_cons, lexemes,
            List.map_cons] at same ⊢
          rw [List.takeWhile_cons, List.takeWhile_cons, same]
      | call name params head arguments =>
          have isName : head.token.isName = true := by
            rw [(List.cons.inj parsed.1).1]
            rfl
          -- a call begins with a name, and so does the data URI in its place
          have nothing : untilName (tokens (call name params head arguments :: rest)) = [] := by
            simp [untilName, tokens, all_cons, lexemes, isName]
          rw [nothing, expanded]
          cases shows name params with
          | ok markup => rfl
          | error fault => simp [untilName, tokens, all_cons, lexemes, isName]

/-- The calls that are left are calls still, and nothing else has become one. -/
theorem parsed_expanded (differs : func ≠ DataUri.callee) {phrases : List Phrase}
    (parsed : Parsed func phrases) : Parsed func (phrases.flatMap (expanded shows)) := by
  induction phrases with
  | nil => exact trivial
  | cons phrase rest ih =>
      rw [List.flatMap_cons]
      cases phrase with
      | passed lexeme =>
          exact ⟨(startsCall_congr (untilName_expanded parsed.2)).not.mpr parsed.1, ih parsed.2⟩
      | call name params head arguments =>
          have later := ih parsed.2
          rw [expanded]
          cases shows name params with
          | error fault => exact ⟨parsed.1, later⟩
          | ok markup =>
              have callee : Token.name DataUri.callee ≠ .name func := by
                rintro same
                exact differs (Token.name.inj same).symm
              exact ⟨not_startsCall_of_ne callee, not_startsCall_of_ne nofun,
                not_startsCall_of_ne nofun, not_startsCall_of_ne nofun, later⟩

/-- What comes out of an expansion does not run together, and what can stop in front of the
phrases can stop in front of it. -/
theorem apart_expanded {phrases : List Phrase} (parsed : Parsed func phrases)
    (apart : Apart (all phrases)) :
    Apart (all (phrases.flatMap (expanded shows))) ∧
      ∀ token, (∀ first ∈ (all phrases).head?, Stops token first.written) →
        ∀ first ∈ (all (phrases.flatMap (expanded shows))).head?, Stops token first.written := by
  induction phrases with
  | nil => exact ⟨apart, fun _ stops => stops⟩
  | cons phrase rest ih =>
      rw [all_cons] at apart
      obtain ⟨here, there⟩ := apart.of_append
      rw [List.flatMap_cons, all_append]
      cases phrase with
      | passed lexeme =>
          obtain ⟨later, heads⟩ := ih parsed.2 there
          obtain ⟨meets, _⟩ := List.isChain_cons.mp apart.meets
          refine ⟨⟨?_, ?_⟩, fun _ stops => stops⟩
          · exact List.forall_mem_cons.mpr ⟨here.sound _ List.mem_cons_self, later.sound⟩
          · exact List.isChain_cons.mpr ⟨heads _ meets, later.meets⟩
      | call name params head arguments =>
          obtain ⟨later, _⟩ := ih parsed.2 there
          have sound := here.sound head List.mem_cons_self
          have isSpoken : IsSpoken head.gap
              (all (expanded shows (.call name params head arguments))) := by
            rw [expanded]
            cases shows name params with
            | ok markup =>
                rw [all_map_passed]
                exact isSpoken_link sound.blank markup
            | error fault =>
                rw [all_singleton]
                exact isSpoken_call parsed.1 here
          -- a call ends with a parenthesis, whether it is kept or not: anything may follow
          refine ⟨isSpoken.apart.append later isSpoken.last, ?_⟩
          intro token stops first isFirst
          obtain ⟨first', rest', _, spoken, sameGap, _⟩ := isSpoken.head
          rw [spoken] at isFirst
          cases Option.mem_some.mp isFirst
          exact stops_of_stops_name sound (List.cons.inj parsed.1).1 sameGap (stops head rfl)

/-- Whether a call shows nothing. -/
def fails (shows : String → Option String → Except AssetFault String)
    (told : String × Option String × List Char) : Bool :=
  !(shows told.1 told.2.1).isOk

/-- The warning of a call that shows nothing. -/
def warning? (shows : String → Option String → Except AssetFault String) :
    Phrase → Option Warning
  | passed _ => none
  | call name params _ _ =>
      match shows name params with
      | .ok _ => none
      | .error fault => some ⟨name, fault.message⟩

theorem filterMap_map_passed {β : Type} {f : Phrase → Option β}
    (nothing : ∀ lexeme, f (.passed lexeme) = none) (lexemes : List Lexeme) :
    (lexemes.map passed).filterMap f = [] := by
  rw [List.filterMap_map, List.filterMap_eq_nil_iff]
  exact fun lexeme _ => nothing lexeme

/-- The calls that are left are those that show nothing. -/
theorem filterMap_told?_expanded (phrases : List Phrase) :
    (phrases.flatMap (expanded shows)).filterMap told? =
      (phrases.filterMap told?).filter (fails shows) := by
  induction phrases with
  | nil => rfl
  | cons phrase rest ih =>
      rw [List.flatMap_cons, List.filterMap_append, ih]
      cases phrase with
      | passed lexeme => rfl
      | call name params head arguments =>
          have told : told? (.call name params head arguments) =
              some (name, params, head.inside ++ Lexeme.text arguments) := rfl
          rw [expanded, List.filterMap_cons_some told, List.filter_cons, fails]
          cases shows name params with
          | ok markup =>
              rw [filterMap_map_passed fun _ => rfl]
              rfl
          | error fault => rfl

theorem filterMap_warning?_expanded (phrases : List Phrase) :
    (phrases.flatMap (expanded shows)).filterMap (warning? shows) =
      phrases.filterMap (warning? shows) := by
  induction phrases with
  | nil => rfl
  | cons phrase rest ih =>
      rw [List.flatMap_cons, List.filterMap_append, ih]
      cases phrase with
      | passed lexeme => rfl
      | call name params head arguments =>
          rw [expanded, List.filterMap_cons, warning?]
          cases outcome : shows name params with
          | ok markup =>
              rw [filterMap_map_passed fun _ => rfl]
              rfl
          | error fault =>
              rw [List.filterMap_cons, warning?, outcome]
              rfl

/-- Nothing is left to be done the second time. -/
theorem flatMap_expanded_expanded (phrases : List Phrase) :
    (phrases.flatMap (expanded shows)).flatMap (expanded shows) =
      phrases.flatMap (expanded shows) := by
  rw [List.flatMap_assoc]
  congr 1
  funext phrase
  cases phrase with
  | passed lexeme => rfl
  | call name params head arguments =>
      rw [expanded]
      cases outcome : shows name params with
      | ok markup => rfl
      | error fault => rw [List.flatMap_singleton, expanded, outcome]

end Phrase

end Declaration

/-! ## What an expansion makes of phrases -/

/-- The markup of an asset of the cache, or of a sprite of it, before it becomes a data URI. -/
def SharedAsset.shown (shared : SharedAsset) (path : List String) (params : Params) :
    Except AssetFault String :=
  match shared.asset.resolve path with
  | .error fault => .error (.notFound fault)
  | .ok asset => (Optimizer.run asset.options.optimizer (asset.markup params)).mapError .optimize

theorem SharedAsset.uri_eq (shared : SharedAsset) (path : List String) (params : Params) :
    shared.uri path params = (shared.shown path params).map DataUri.ofMarkup := by
  unfold uri shown
  cases shared.asset.resolve path with
  | error fault => rfl
  | ok asset =>
      dsimp only [Asset.render]
      cases Optimizer.run asset.options.optimizer (asset.markup params) <;> rfl

namespace Invocation

open Declaration Text

variable {files : Files} {cache cache' : Cache}

/-- The markup that a call shows. -/
def shows (files : Files) (cache : Cache) (name : String) (params : Option String) :
    Except AssetFault String :=
  let place := target ⟨0, 0, name, params⟩
  (cache.get files place.1).1.bind fun shared =>
    shared.shown place.2 (Params.ofShorthand (params.getD ""))

/-- What a call is answered depends on its name and parameters, not on where it stands. -/
theorem fst_render (call : Invocation) (files : Files) (cache : Cache) :
    (call.render files cache).1 =
      (shows files cache call.name call.params).map DataUri.ofMarkup := by
  have same : target ⟨0, 0, call.name, call.params⟩ = call.target := rfl
  rw [render_eq, shows, same]
  cases (cache.get files call.target.1).1 with
  | error fault => rfl
  | ok shared => exact shared.uri_eq call.target.2 _

theorem shows_congr (same : cache.offers files = cache'.offers files) :
    shows files cache = shows files cache' := by
  funext name params
  apply bind_congr_asset
  · rw [Cache.map_asset_get, Cache.map_asset_get, same]
  · intro stamp stamp' asset
    rfl

/-- The calls of phrases are answered by what they show. -/
theorem fst_renderAll (files : Files) (cache : Cache) (calls : List Invocation) :
    (renderAll files calls cache).1 = calls.map fun call =>
      (shows files cache call.name call.params).map DataUri.ofMarkup := by
  rw [renderAll_eq_map]
  exact congrArg calls.map (funext fun call => call.fst_render files cache)

end Invocation

namespace Declaration.Phrase

open Text

variable {shows : String → Option String → Except AssetFault String}

/-- Data URIs in the places of calls are what the phrases become. -/
theorem filled_placesFrom (gap : List Char) (offset : Nat) (phrases : List Phrase) :
    (List.zipWith Invocation.filled (placesFrom gap phrases).1
        ((callsFrom offset phrases).map fun call =>
          (shows call.name call.params).map DataUri.ofMarkup)).flatten ++
      (placesFrom gap phrases).2 =
    gap ++ Lexeme.text (all (phrases.flatMap (expanded shows))) := by
  induction phrases generalizing gap offset with
  | nil => simp [placesFrom, callsFrom, all, Lexeme.text]
  | cons phrase rest ih =>
      rw [List.flatMap_cons, all_append, Lexeme.text_append]
      cases phrase with
      | passed lexeme =>
          rw [placesFrom, callsFrom, ih, expanded, all_singleton, lexemes, Lexeme.text_singleton,
            List.append_assoc]
      | call name params head arguments =>
          have later := ih [] (offset + byteLength head.gap + byteLength head.inside +
            byteLength (Lexeme.text arguments))
          rw [List.nil_append] at later
          rw [placesFrom, callsFrom, List.map_cons, List.zipWith_cons_cons, List.flatten_cons,
            List.append_assoc, later, expanded]
          cases shows name params with
          | ok markup =>
              rw [all_map_passed, text_link]
              simp [Invocation.filled, Except.map]
          | error fault =>
              rw [all_singleton, lexemes, Lexeme.text_cons]
              simp [Invocation.filled, Except.map, Place.written]

theorem warnings_callsFrom (offset : Nat) (phrases : List Phrase) :
    Invocation.warnings (callsFrom offset phrases) ((callsFrom offset phrases).map fun call =>
        (shows call.name call.params).map DataUri.ofMarkup) =
      phrases.filterMap (warning? shows) := by
  induction phrases generalizing offset with
  | nil => rfl
  | cons phrase rest ih =>
      cases phrase with
      | passed lexeme => exact ih _
      | call name params head arguments =>
          have later := ih (offset + byteLength head.gap + byteLength head.inside +
            byteLength (Lexeme.text arguments))
          rw [Invocation.warnings] at later ⊢
          rw [callsFrom, List.map_cons, List.zipWith_cons_cons, List.filterMap_cons,
            List.filterMap_cons, later, warning?]
          cases shows name params <;> rfl

end Declaration.Phrase

/-- The calls that fail when they are all rendered, one after the other. -/
def Invocation.failing (files : Files) (cache : Cache) (calls : List Invocation) :
    List Invocation :=
  ((calls.zip (renderAll files calls cache).1).filter fun answered => !answered.2.isOk).map (·.1)

theorem Invocation.failing_eq (files : Files) (cache : Cache) (calls : List Invocation) :
    failing files cache calls =
      calls.filter fun call => !(shows files cache call.name call.params).isOk := by
  rw [failing, fst_renderAll]
  induction calls with
  | nil => rfl
  | cons call rest ih =>
      rw [List.map_cons, List.zip_cons_cons, List.filter_cons, List.filter_cons]
      cases shows files cache call.name call.params with
      | error fault => exact congrArg (call :: ·) ih
      | ok markup => exact ih

namespace Config

open Declaration Text

variable {config : Config} {phrases : List Phrase} {tail : List Char}

/-- The calls in a text are those among its phrases. -/
theorem find_phrases {func : String} (parsed : Phrase.Parsed func.toList phrases)
    (apart : Apart (Phrase.all phrases)) (blank : ∀ c ∈ tail, isBlank c = true) :
    Invocation.find (String.ofList (Lexeme.text (Phrase.all phrases) ++ tail)) func =
      Phrase.callsFrom 0 phrases := by
  rw [Invocation.find, String.toList_ofList, tokens, tokensFrom_text apart blank,
    Invocation.findIn_placed parsed]

/-- An expansion makes of every phrase in a text what its call shows. -/
theorem expand_phrases (silent : config.isSilent = true)
    (parsed : Phrase.Parsed config.func.toList phrases) (apart : Apart (Phrase.all phrases))
    (blank : ∀ c ∈ tail, isBlank c = true) (files : Files) (cache : Cache) :
    ∃ next,
      config.expand files cache (String.ofList (Lexeme.text (Phrase.all phrases) ++ tail)) =
        (.ok ⟨String.ofList (Lexeme.text (Phrase.all
            (phrases.flatMap (Phrase.expanded (Invocation.shows files cache)))) ++ tail),
          phrases.filterMap (Phrase.warning? (Invocation.shows files cache))⟩, next) := by
  have written : Lexeme.text (Phrase.all phrases) ++ tail =
      [] ++ (Phrase.placesFrom [] phrases).1.flatMap Place.written ++
        ((Phrase.placesFrom [] phrases).2 ++ tail) := by
    rw [List.nil_append, ← List.append_assoc, Phrase.written_placesFrom, List.nil_append]
  have spans : (Phrase.callsFrom 0 phrases).map Invocation.span =
      Place.spansFrom (byteLength []) (Phrase.placesFrom [] phrases).1 :=
    Phrase.spans_placesFrom 0 [] phrases
  have expands : Invocation.expandFrom files true (Lexeme.text (Phrase.all phrases) ++ tail) 0
      (Phrase.callsFrom 0 phrases) cache = _ := Invocation.expandFrom_silent [] written spans
  rw [Invocation.fst_renderAll, Phrase.warnings_callsFrom, Invocation.splice,
    ← List.append_assoc, Phrase.filled_placesFrom, List.nil_append] at expands
  rw [expand, silent, find_phrases parsed apart blank, String.toList_ofList]
  exact ⟨_, expands⟩

/-- Expanding what comes out of an expansion changes nothing and warns of the same, as long as
all quotes of the value are closed. The calls that are found the second time are those that
failed the first time, in their order and as they were written. -/
theorem expand_again (config : Config) (files : Files) (cache : Cache) (value : String)
    (silent : config.isSilent = true) (differs : config.func ≠ "url")
    (closed : QuotesClosed value.toList) :
    ∃ expansion next last,
      config.expand files cache value = (.ok expansion, next) ∧
      config.expand files next expansion.value = (.ok expansion, last) ∧
      (Invocation.find expansion.value config.func).map
          (Invocation.read expansion.value.toList) =
        (Invocation.failing files cache (Invocation.find value config.func)).map
          (Invocation.read value.toList) := by
  obtain ⟨lexemes, tail, split, apart, blank⟩ := exists_lexemes closed
  obtain ⟨phrases, rfl, parsed⟩ := exists_parsed config.func.toList lexemes
  obtain rfl : value = String.ofList (Lexeme.text (Phrase.all phrases) ++ tail) := by
    rw [← split, String.ofList_toList]
  have callee : config.func.toList ≠ DataUri.callee := by
    intro same
    apply differs
    rw [← String.ofList_toList (s := config.func), same]
    decide +kernel
  let shows := Invocation.shows files cache
  have parsed' : Phrase.Parsed config.func.toList (phrases.flatMap (Phrase.expanded shows)) :=
    Phrase.parsed_expanded callee parsed
  have apart' : Apart (Phrase.all (phrases.flatMap (Phrase.expanded shows))) :=
    (Phrase.apart_expanded parsed apart).1
  obtain ⟨next, first⟩ := expand_phrases silent parsed apart blank files cache
  obtain ⟨last, second⟩ := expand_phrases silent parsed' apart' blank files next
  have kept : next.offers files = cache.offers files := by
    have offers := config.offers_expand files cache
      (String.ofList (Lexeme.text (Phrase.all phrases) ++ tail))
    rwa [first] at offers
  -- the cache still offers what it did, so the same calls fail, and nothing else is left
  rw [Invocation.shows_congr kept, Phrase.flatMap_expanded_expanded,
    Phrase.filterMap_warning?_expanded] at second
  refine ⟨_, next, last, first, second, ?_⟩
  have told : (Phrase.callsFrom 0 phrases).map
      (Invocation.read (Lexeme.text (Phrase.all phrases) ++ tail)) =
        phrases.filterMap Phrase.told? := Phrase.map_read_callsFrom [] rfl
  rw [find_phrases parsed' apart' blank, find_phrases parsed apart blank,
    Invocation.failing_eq, String.toList_ofList, String.toList_ofList]
  calc (Phrase.callsFrom 0 (phrases.flatMap (Phrase.expanded shows))).map (Invocation.read _)
    _ = (phrases.flatMap (Phrase.expanded shows)).filterMap Phrase.told? :=
        Phrase.map_read_callsFrom [] rfl
    _ = (phrases.filterMap Phrase.told?).filter (Phrase.fails shows) :=
        Phrase.filterMap_told?_expanded phrases
    _ = ((Phrase.callsFrom 0 phrases).map (Invocation.read _)).filter (Phrase.fails shows) := by
        rw [told]
    _ = _ := List.filter_map

/-- A cache whose assets are rendered without their blanks. -/
def spareCache : Cache :=
  .new ⟨Params.empty, Affixes.empty, some (Optimizer.replacing " " ""), false⟩

theorem expand_again_dot :
    ∃ value expansion next last,
      value = "svg(\"dot\") svg(\"ghost\", \"[fill]: red\")" ∧
      QuotesClosed value.toList ∧
      standard.expand dotFiles spareCache value = (.ok expansion, next) ∧
      standard.expand dotFiles next expansion.value = (.ok expansion, last) ∧
      (Invocation.find expansion.value "svg").map (Invocation.read expansion.value.toList) =
        (Invocation.failing dotFiles spareCache (Invocation.find value "svg")).map
          (Invocation.read value.toList) := by
  have closed : QuotesClosed "svg(\"dot\") svg(\"ghost\", \"[fill]: red\")".toList := by
    decide +kernel
  obtain ⟨expansion, next, last, first, second, calls⟩ :=
    expand_again standard dotFiles spareCache _ rfl (by decide) closed
  exact ⟨_, expansion, next, last, rfl, closed, first, second, calls⟩

end Config

end ThemedSvg

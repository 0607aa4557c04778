/-
# Phrases

Among the lexemes of a declaration value some make up calls, and the others are passed over.
Told as phrases, which are calls and single lexemes, a value shows which calls are found in
it, where each of them is, and what is between them. Whether a call begins somewhere depends
on the tokens up to the next name and on no others.
-/

import ThemedSvg.Proofs.Lexemes

namespace ThemedSvg.Declaration

open Text

/-! ## Tokens of calls -/

/-- The tokens behind the name that is called. -/
def argumentTokens (name : String) : Option String → List Token
  | none => [.opening, .quoted name.toList, .closing]
  | some params =>
      [.opening, .quoted name.toList, .comma, .quoted params.toList, .closing]

/-- The tokens of a call. -/
def callTokens (func : List Char) (name : String) (params : Option String) : List Token :=
  .name func :: argumentTokens name params

/-- Whether tokens begin with those of a call. -/
def StartsCall (func : List Char) (tokens : List Token) : Prop :=
  ∃ name params, callTokens func name params <+: tokens

/-- The tokens up to the first name. -/
def untilName (tokens : List Token) : List Token := tokens.takeWhile fun token => !token.isName

variable {func : List Char} {token : Token} {later later' : List Token}

theorem not_startsCall_of_ne (differs : token ≠ .name func) :
    ¬ StartsCall func (token :: later) := by
  rintro ⟨name, params, starts⟩
  exact differs (List.cons_prefix_cons.mp starts).1.symm

/-- There are no names among the arguments of a call. -/
theorem not_isName_of_mem_argumentTokens {name : String} {params : Option String} :
    ∀ token ∈ argumentTokens name params, token.isName = false := by
  cases params <;> simp [argumentTokens, Token.isName]

theorem untilName_append (name : String) (params : Option String) (behind : List Token) :
    untilName (argumentTokens name params ++ behind) =
      argumentTokens name params ++ untilName behind := by
  apply List.takeWhile_append_of_pos
  intro token member
  rw [not_isName_of_mem_argumentTokens token member]
  rfl

theorem ne_stray_of_mem_callTokens {name : String} {params : Option String} :
    ∀ token ∈ callTokens func name params, token ≠ .stray := by
  cases params <;> simp [callTokens, argumentTokens]

/-- A call ends with a parenthesis. -/
theorem not_isName_of_mem_getLast? {name : String} {params : Option String}
    {lexemes : List Lexeme} (isCall : lexemes.map Lexeme.token = callTokens func name params) :
    ∀ last ∈ lexemes.getLast?, last.token.isName = false := by
  intro last member
  have closes : (callTokens func name params).getLast? = some .closing := by
    cases params <;> rfl
  rw [← isCall, List.getLast?_map, Option.mem_def.mp member] at closes
  rw [Option.some.inj closes]
  rfl

/-- Whether a call begins with a token is settled before the next name. -/
theorem startsCall_congr (same : untilName later = untilName later') :
    StartsCall func (token :: later) ↔ StartsCall func (token :: later') := by
  suffices transfers : ∀ {later later' : List Token}, untilName later = untilName later' →
      StartsCall func (token :: later) → StartsCall func (token :: later') from
    ⟨transfers same, transfers same.symm⟩
  rintro later later' same ⟨name, params, starts⟩
  obtain ⟨head, behind, rfl⟩ := List.cons_prefix_cons.mp starts
  -- all arguments are in front of the next name, where both sequences are the same
  rw [untilName_append] at same
  have kept : argumentTokens name params ++ untilName behind <+: later' := by
    rw [same]
    exact List.takeWhile_prefix _
  exact ⟨name, params, List.cons_prefix_cons.mpr ⟨head, (List.prefix_append ..).trans kept⟩⟩

/-! ## Phrases of a value -/

/-- A lexeme that is passed over, or a call: the lexeme of the name that is called, and the
others. -/
inductive Phrase
  | passed (lexeme : Lexeme)
  | call (name : String) (params : Option String) (head : Lexeme) (arguments : List Lexeme)

namespace Phrase

def lexemes : Phrase → List Lexeme
  | passed lexeme => [lexeme]
  | call _ _ head arguments => head :: arguments

/-- The lexemes of several phrases. -/
def all (phrases : List Phrase) : List Lexeme := phrases.flatMap lexemes

theorem all_cons (phrase : Phrase) (rest : List Phrase) :
    all (phrase :: rest) = phrase.lexemes ++ all rest := List.flatMap_cons

theorem all_singleton (phrase : Phrase) : all [phrase] = phrase.lexemes :=
  List.flatMap_singleton lexemes phrase

theorem all_append (first second : List Phrase) :
    all (first ++ second) = all first ++ all second := List.flatMap_append

/-- The tokens of several phrases. -/
def tokens (phrases : List Phrase) : List Token := (all phrases).map Lexeme.token

/-- Phrases are the ones that there are: calls of `func` with all their tokens, and lexemes
with which no call begins. -/
def Parsed (func : List Char) : List Phrase → Prop
  | [] => True
  | passed lexeme :: rest => ¬ StartsCall func (lexeme.token :: tokens rest) ∧ Parsed func rest
  | call name params head arguments :: rest =>
      (head :: arguments).map Lexeme.token = callTokens func name params ∧ Parsed func rest

/-- The calls of phrases that are written from byte `offset` on. -/
def callsFrom (offset : Nat) : List Phrase → List Invocation
  | [] => []
  | passed lexeme :: rest => callsFrom (offset + byteLength lexeme.written) rest
  | call name params head arguments :: rest =>
      let start := offset + byteLength head.gap
      let stop := start + byteLength head.inside + byteLength (Lexeme.text arguments)
      ⟨start, stop, name, params⟩ :: callsFrom stop rest

end Phrase

/-- Lexemes can be told as phrases. -/
theorem exists_parsed (func : List Char) (lexemes : List Lexeme) :
    ∃ phrases, Phrase.all phrases = lexemes ∧ Phrase.Parsed func phrases := by
  -- on the number of lexemes, as a call takes several of them at once
  induction count' : lexemes.length using Nat.strongRecOn generalizing lexemes with
  | _ count ih =>
      cases lexemes with
      | nil => exact ⟨[], rfl, trivial⟩
      | cons head later =>
          by_cases starts : StartsCall func ((head :: later).map Lexeme.token)
          · obtain ⟨name, params, behind, split⟩ := starts
            obtain ⟨front, rest, cut, isCall, _⟩ := List.map_eq_append_iff.mp split.symm
            cases front with
            | nil => cases isCall
            | cons head' arguments =>
                obtain ⟨rfl, rfl⟩ := List.cons.inj (cut.trans (List.cons_append ..))
                have shorter : rest.length < count := by
                  rw [← count', List.length_cons, List.length_append]
                  omega
                obtain ⟨phrases, rfl, parsed⟩ := ih _ shorter rest rfl
                exact ⟨.call name params head arguments :: phrases, rfl, isCall, parsed⟩
          · obtain ⟨phrases, rfl, parsed⟩ := ih _ (by simp [← count']) later rfl
            exact ⟨.passed head :: phrases, rfl, starts, parsed⟩

end ThemedSvg.Declaration

namespace ThemedSvg.Invocation

open Declaration Text

variable {func : List Char} {tokens after : List PlacedToken} {call : Invocation}

/-- Tokens are those of a call, which spans from the first of them to the last. -/
structure Spells (func : List Char) (called : List PlacedToken) (call : Invocation) : Prop where
  tokens : called.map PlacedToken.token = callTokens func call.name call.params
  start : ∀ first ∈ called.head?, first.start = call.start
  stop : ∀ last ∈ called.getLast?, last.stop = call.stop

/-- A call is taken where tokens begin with one, and nowhere else. -/
theorem take?_eq_some_iff :
    take? func tokens = some (call, after) ↔
      ∃ called, tokens = called ++ after ∧ Spells func called call := by
  constructor
  · intro taken
    unfold take? at taken
    split at taken
    · next callee _ _ _ _ _ _ _ _ =>
        split at taken
        · cases taken
        · next isFunc =>
            obtain rfl : callee = func := by simpa using isFunc
            split at taken
            · cases taken
              refine ⟨[_, _, _, _], rfl, ?_, by simp, by simp⟩
              simp [callTokens, argumentTokens]
            · cases taken
              refine ⟨[_, _, _, _, _, _], rfl, ?_, by simp, by simp⟩
              simp [callTokens, argumentTokens]
            · cases taken
    · cases taken
  · rintro ⟨called, rfl, isCall, starts, stops⟩
    obtain ⟨start, stop, name, params⟩ := call
    cases params with
    | none =>
        simp only [callTokens, argumentTokens, List.map_eq_cons_iff, List.map_eq_nil_iff] at isCall
        obtain ⟨⟨_, _, _⟩, _, rfl, rfl, ⟨_, _, _⟩, _, rfl, rfl, ⟨_, _, _⟩, _, rfl, rfl,
          ⟨_, _, _⟩, _, rfl, rfl, rfl⟩ := isCall
        obtain rfl := starts _ rfl
        obtain rfl := stops _ rfl
        simp [take?]
    | some params =>
        simp only [callTokens, argumentTokens, List.map_eq_cons_iff, List.map_eq_nil_iff] at isCall
        obtain ⟨⟨_, _, _⟩, _, rfl, rfl, ⟨_, _, _⟩, _, rfl, rfl, ⟨_, _, _⟩, _, rfl, rfl,
          ⟨_, _, _⟩, _, rfl, rfl, ⟨_, _, _⟩, _, rfl, rfl, ⟨_, _, _⟩, _, rfl, rfl, rfl⟩ := isCall
        obtain rfl := starts _ rfl
        obtain rfl := stops _ rfl
        simp [take?]

/-- A call is only taken where tokens begin with one. -/
theorem startsCall_of_take? (taken : take? func tokens = some (call, after)) :
    StartsCall func (tokens.map PlacedToken.token) := by
  obtain ⟨called, rfl, spells⟩ := take?_eq_some_iff.mp taken
  refine ⟨call.name, call.params, ?_⟩
  rw [List.map_append, spells.tokens]
  exact List.prefix_append _ _

theorem take?_eq_none (absent : ¬ StartsCall func (tokens.map PlacedToken.token)) :
    take? func tokens = none := by
  by_contra present
  obtain ⟨⟨call, after⟩, taken⟩ := Option.ne_none_iff_exists'.mp present
  exact absent (startsCall_of_take? taken)

/-- The tokens of a call are taken as that call. -/
theorem take?_placed {name : String} {params : Option String} {head : Lexeme}
    {arguments : List Lexeme}
    (isCall : (head :: arguments).map Lexeme.token = callTokens func name params)
    (offset : Nat) (later : List PlacedToken) :
    take? func (Lexeme.placed offset (head :: arguments) ++ later) =
      some (⟨offset + byteLength head.gap,
        offset + byteLength (Lexeme.text (head :: arguments)), name, params⟩, later) := by
  refine take?_eq_some_iff.mpr ⟨_, rfl, ?_, ?_, Lexeme.stop_getLast?_placed _ _⟩
  · rw [Lexeme.map_token_placed, isCall]
  · intro first isFirst
    cases Option.mem_some.mp isFirst
    rfl

/-- The calls that are found are those among the phrases. -/
theorem findIn_placed {phrases : List Phrase} (parsed : Phrase.Parsed func phrases)
    (offset : Nat) :
    findIn func (Lexeme.placed offset (Phrase.all phrases)) = Phrase.callsFrom offset phrases := by
  induction phrases generalizing offset with
  | nil => rw [Phrase.all, List.flatMap_nil, Lexeme.placed, findIn, Phrase.callsFrom]
  | cons phrase rest ih =>
      cases phrase with
      | passed lexeme =>
          have absent : take? func (Lexeme.placed offset (lexeme :: Phrase.all rest)) = none := by
            apply take?_eq_none
            rw [Lexeme.map_token_placed]
            exact parsed.1
          have all : Phrase.all (.passed lexeme :: rest) = lexeme :: Phrase.all rest := rfl
          rw [Lexeme.placed] at absent
          rw [all, Lexeme.placed, findIn_of_none absent, ih parsed.2, Phrase.callsFrom,
            Place.written, byteLength_append, ← Nat.add_assoc]
      | call name params head arguments =>
          have all : Phrase.all (.call name params head arguments :: rest) =
              head :: (arguments ++ Phrase.all rest) := rfl
          rw [all, ← List.cons_append, Lexeme.placed_append,
            findIn_of_some (take?_placed parsed.1 offset _), ih parsed.2, Phrase.callsFrom,
            Lexeme.byteLength_text_cons]
          simp only [Nat.add_assoc]

end ThemedSvg.Invocation

/-! ## Where calls stand -/

namespace ThemedSvg

open Text

/-- What a call in a value asks for, and how it is written there. -/
def Invocation.read (value : List Char) (call : Invocation) :
    String × Option String × List Char :=
  (call.name, call.params, sliceBytes call.start call.stop value)

namespace Declaration.Phrase

/-- The calls of phrases with the text in front of each, and the text behind the last one.
`gap` is text in front of the phrases. -/
def placesFrom (gap : List Char) : List Phrase → List Place × List Char
  | [] => ([], gap)
  | passed lexeme :: rest => placesFrom (gap ++ lexeme.written) rest
  | call _ _ head arguments :: rest =>
      let (places, behind) := placesFrom [] rest
      (⟨gap ++ head.gap, head.inside ++ Lexeme.text arguments⟩ :: places, behind)

theorem written_placesFrom (gap : List Char) (phrases : List Phrase) :
    (placesFrom gap phrases).1.flatMap Place.written ++ (placesFrom gap phrases).2 =
      gap ++ Lexeme.text (all phrases) := by
  induction phrases generalizing gap with
  | nil => simp [placesFrom, all, Lexeme.text]
  | cons phrase rest ih =>
      cases phrase with
      | passed lexeme =>
          rw [placesFrom, ih]
          simp [all, lexemes, Lexeme.text]
      | call name params head arguments =>
          have later := ih []
          rw [placesFrom, List.flatMap_cons, List.append_assoc, later]
          simp [all, lexemes, Lexeme.text, Place.written]

theorem spans_placesFrom (offset : Nat) (gap : List Char) (phrases : List Phrase) :
    (callsFrom (offset + byteLength gap) phrases).map Invocation.span =
      Place.spansFrom offset (placesFrom gap phrases).1 := by
  induction phrases generalizing offset gap with
  | nil => rfl
  | cons phrase rest ih =>
      cases phrase with
      | passed lexeme => rw [callsFrom, placesFrom, ← ih, byteLength_append, Nat.add_assoc]
      | call name params head arguments =>
          rw [callsFrom, placesFrom, List.map_cons, Place.spansFrom, ← ih]
          simp [Invocation.span, byteLength_append, byteLength, Nat.add_assoc]

/-- What a phrase asks for if it is a call, and how it is written. -/
def told? : Phrase → Option (String × Option String × List Char)
  | passed _ => none
  | call name params head arguments =>
      some (name, params, head.inside ++ Lexeme.text arguments)

/-- The calls of phrases in a value are read there as they are told by the phrases. -/
theorem map_read_callsFrom {value : List Char} (before : List Char) {after : List Char}
    {phrases : List Phrase} (written : value = before ++ Lexeme.text (all phrases) ++ after) :
    (callsFrom (byteLength before) phrases).map (Invocation.read value) =
      phrases.filterMap told? := by
  induction phrases generalizing before with
  | nil => rfl
  | cons phrase rest ih =>
      rw [all_cons, Lexeme.text_append, ← List.append_assoc before] at written
      have later := ih _ written
      rw [byteLength_append] at later
      cases phrase with
      | passed lexeme =>
          rw [lexemes, Lexeme.text_singleton] at later
          rw [callsFrom, later]
          rfl
      | call name params head arguments =>
          have start : value = before ++ head.gap ++ (head.inside ++ Lexeme.text arguments) ++
              (Lexeme.text (all rest) ++ after) := by
            simp only [written, lexemes, Lexeme.text_cons, Place.written, List.append_assoc]
          have stop : byteLength before + byteLength (Lexeme.text (head :: arguments)) =
              byteLength before + byteLength head.gap + byteLength head.inside +
                byteLength (Lexeme.text arguments) := by
            simp only [Lexeme.text_cons, Place.written, byteLength_append, Nat.add_assoc]
          have inside := sliceBytes_append (before ++ head.gap)
            (head.inside ++ Lexeme.text arguments) (Lexeme.text (all rest) ++ after)
          rw [← start, byteLength_append, byteLength_append, ← Nat.add_assoc] at inside
          rw [lexemes, stop] at later
          rw [callsFrom, List.map_cons, later, Invocation.read, inside]
          rfl

end Declaration.Phrase

end ThemedSvg

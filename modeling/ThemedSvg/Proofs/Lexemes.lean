/-
# Lexemes

A text is a sequence of lexemes, each a token with the blanks in front of it, and some more
blanks. This goes both ways. The scanner finds the lexemes in any text whose quotes are all
closed, and it finds the tokens of lexemes again wherever they are written one behind the
other, as long as no name runs into what follows it.
-/

import Mathlib.Data.List.Chain
import Mathlib.Data.List.TakeWhile
import ThemedSvg.Proofs.Spans

namespace ThemedSvg.Declaration

open Text

namespace Token

def isName : Token → Bool
  | name _ => true
  | _ => false

def isQuoted : Token → Bool
  | quoted _ => true
  | _ => false

end Token

/-- The characters that a token can be written with. A token that is stray is a single
character, and no quote. -/
inductive Stands : Token → List Char → Prop
  | name {c : Char} {more : List Char} : startsName c = true →
      (∀ next ∈ more, continuesName next = true) → Stands (.name (c :: more)) (c :: more)
  | quoted {quote : Char} {text : List Char} : isQuote quote = true → text ≠ [] →
      quote ∉ text → Stands (.quoted text) (quote :: (text ++ [quote]))
  | opening : Stands .opening ['(']
  | closing : Stands .closing [')']
  | comma : Stands .comma [',']
  | stray {c : Char} : isBlank c = false → startsName c = false → isQuote c = false →
      c ≠ '(' → c ≠ ')' → c ≠ ',' → Stands .stray [c]

/-- A token can stop in front of some text: a name is not continued there. -/
def Stops (token : Token) (after : List Char) : Prop :=
  token.isName = true → ∀ next ∈ after.head?, continuesName next = false

theorem stops_of_not_isName {token : Token} (notName : token.isName = false)
    (after : List Char) : Stops token after := by
  intro isName
  rw [notName] at isName
  cases isName

/-! ## Single tokens -/

theorem continuesName_of_isBlank {c : Char} (blank : isBlank c = true) :
    continuesName c = false := by
  simp only [isBlank, Bool.or_eq_true, beq_iff_eq] at blank
  rcases blank with (((rfl | rfl) | rfl) | rfl) | rfl <;> decide

theorem isBlank_of_startsName {c : Char} (starts : startsName c = true) : isBlank c = false := by
  cases blank : isBlank c with
  | false => rfl
  | true =>
      have continues := continuesName_of_isBlank blank
      simp [continuesName, starts] at continues

theorem not_startsName_of_isQuote {c : Char} (quote : isQuote c = true) :
    startsName c = false ∧ isBlank c = false := by
  simp only [isQuote, Bool.or_eq_true, beq_iff_eq] at quote
  rcases quote with rfl | rfl <;> decide

/-- What a token stands as is not empty, and does not begin with a blank. -/
theorem Stands.exists_cons {token : Token} {inside : List Char} (stands : Stands token inside) :
    ∃ c more, inside = c :: more ∧ isBlank c = false := by
  cases stands with
  | name starts _ => exact ⟨_, _, rfl, isBlank_of_startsName starts⟩
  | quoted quote _ _ => exact ⟨_, _, rfl, (not_startsName_of_isQuote quote).2⟩
  | opening => exact ⟨_, _, rfl, rfl⟩
  | closing => exact ⟨_, _, rfl, rfl⟩
  | comma => exact ⟨_, _, rfl, rfl⟩
  | stray notBlank => exact ⟨_, _, rfl, notBlank⟩

theorem takeWhile_append_stop {p : Char → Bool} {more after : List Char}
    (continues : ∀ next ∈ more, p next = true) (stops : ∀ next ∈ after.head?, p next = false) :
    (more ++ after).takeWhile p = more ∧ (more ++ after).dropWhile p = after := by
  rw [List.takeWhile_append_of_pos continues, List.dropWhile_append_of_pos continues]
  cases after with
  | nil => simp
  | cons next rest =>
      have stop : p next = false := stops next rfl
      simp [stop]

/-- A token is taken as it stands if it can stop there. -/
theorem take_of_stands {token : Token} {c : Char} {more after : List Char}
    (stands : Stands token (c :: more)) (stops : Stops token after) :
    take c (more ++ after) = (token, more, after) := by
  cases stands with
  | name starts continues =>
      obtain ⟨taken, left⟩ := takeWhile_append_stop continues (stops rfl)
      simp only [take, starts, if_true, taken, left]
  | @quoted _ text quote nonempty closed =>
      have notName : startsName c = false := (not_startsName_of_isQuote quote).1
      have continues : ∀ next ∈ text, (next != c) = true := by
        rintro next member
        rw [bne_iff_ne]
        rintro rfl
        exact closed member
      have stop : ∀ next ∈ (c :: after).head?, (next != c) = false := by simp
      obtain ⟨taken, left⟩ := takeWhile_append_stop continues stop
      simp [take, notName, quote, taken, left, nonempty]
  | opening => rfl
  | closing => rfl
  | comma => rfl
  | stray notBlank notName notQuote notOpening notClosing notComma =>
      simp [take, notName, notQuote, notOpening, notClosing, notComma]

/-- A quote that is closed is taken with the text up to the quote that closes it. -/
theorem take_quoted {c : Char} {rest : List Char} (quote : isQuote c = true)
    (closed : (take c rest).1.isQuoted = true) :
    ∃ text after, rest = text ++ c :: after ∧ text ≠ [] ∧ c ∉ text ∧
      take c rest = (.quoted text, text ++ [c], after) := by
  have notName : startsName c = false := (not_startsName_of_isQuote quote).1
  have ends := List.head?_dropWhile_not (· != c) rest
  have whole := List.takeWhile_append_dropWhile (p := (· != c)) (l := rest)
  unfold take at closed ⊢
  simp only [notName, quote, Bool.false_eq_true, if_false, if_true] at closed ⊢
  split at closed
  · cases closed
  · next nonempty =>
      rw [if_neg nonempty]
      split at closed
      · cases closed
      · next closing after dropped =>
          rw [dropped] at ends whole
          obtain rfl : closing = c := by simpa using ends
          refine ⟨_, after, whole.symm, by simpa using nonempty, ?_, rfl⟩
          intro member
          simpa using List.mem_takeWhile_imp member

/-- A quote that is not stray is closed. -/
theorem isQuoted_take {c : Char} {rest : List Char} (quote : isQuote c = true)
    (proper : (take c rest).1 ≠ .stray) : (take c rest).1.isQuoted = true := by
  unfold take at proper ⊢
  simp only [(not_startsName_of_isQuote quote).1, quote, Bool.false_eq_true, if_false,
    if_true] at proper ⊢
  split at proper
  · exact absurd rfl proper
  · next nonempty =>
      rw [if_neg nonempty]
      split at proper
      · exact absurd rfl proper
      · rfl

/-- What is taken from a text stands as its token and can stop there, unless it is a quote
that is not closed. -/
theorem stands_take {c : Char} {rest : List Char} (notBlank : isBlank c = false)
    (closed : isQuote c = true → (take c rest).1.isQuoted = true) :
    Stands (take c rest).1 (c :: (take c rest).2.1) ∧
      Stops (take c rest).1 (take c rest).2.2 := by
  cases starts : startsName c with
  | true =>
      have taken : take c rest =
          (.name (c :: rest.takeWhile continuesName), rest.takeWhile continuesName,
            rest.dropWhile continuesName) := by
        simp only [take, starts, if_true]
      rw [taken]
      refine ⟨.name starts fun next member => List.mem_takeWhile_imp member, ?_⟩
      intro _ next member
      have stops := List.head?_dropWhile_not continuesName rest
      rw [Option.mem_def.mp member] at stops
      simpa using stops
  | false =>
      cases quote : isQuote c with
      | true =>
          obtain ⟨text, after, rfl, nonempty, inside, taken⟩ := take_quoted quote (closed quote)
          rw [taken]
          exact ⟨.quoted quote nonempty inside, stops_of_not_isName rfl _⟩
      | false =>
          simp only [take, starts, quote, Bool.false_eq_true, if_false]
          split
          · next opens => exact ⟨opens ▸ .opening, stops_of_not_isName rfl _⟩
          · split
            · next closes => exact ⟨closes ▸ .closing, stops_of_not_isName rfl _⟩
            · split
              · next separates => exact ⟨separates ▸ .comma, stops_of_not_isName rfl _⟩
              · exact ⟨.stray notBlank starts quote ‹_› ‹_› ‹_›, stops_of_not_isName rfl _⟩

/-! ## Texts of lexemes -/

/-- A token as it is written, with the blanks in front of it. -/
structure Lexeme extends Place where
  token : Token
  deriving DecidableEq, Repr

namespace Lexeme

/-- There are blanks, and then a token stands there. -/
structure Sound (lexeme : Lexeme) : Prop where
  blank : ∀ c ∈ lexeme.gap, isBlank c = true
  stands : Stands lexeme.token lexeme.inside

/-- A lexeme can stop in front of another one. -/
def Meets (first second : Lexeme) : Prop :=
  Stops first.token second.written

/-- The tokens of lexemes that are written one behind the other, from byte `offset` on. -/
def placed (offset : Nat) : List Lexeme → List PlacedToken
  | [] => []
  | lexeme :: rest =>
      let start := offset + byteLength lexeme.gap
      let stop := start + byteLength lexeme.inside
      ⟨lexeme.token, start, stop⟩ :: placed stop rest

theorem map_token_placed (offset : Nat) (lexemes : List Lexeme) :
    (placed offset lexemes).map PlacedToken.token = lexemes.map Lexeme.token := by
  induction lexemes generalizing offset with
  | nil => rfl
  | cons lexeme rest ih => rw [placed, List.map_cons, List.map_cons, ih]

/-- What lexemes are written as. -/
def text (lexemes : List Lexeme) : List Char := lexemes.flatMap fun lexeme => lexeme.written

theorem text_cons (lexeme : Lexeme) (rest : List Lexeme) :
    text (lexeme :: rest) = lexeme.written ++ text rest := List.flatMap_cons

theorem text_singleton (lexeme : Lexeme) : text [lexeme] = lexeme.written := by
  rw [text_cons, text, List.flatMap_nil, List.append_nil]

theorem text_append (first second : List Lexeme) :
    text (first ++ second) = text first ++ text second := List.flatMap_append

theorem byteLength_text_cons (lexeme : Lexeme) (rest : List Lexeme) :
    byteLength (text (lexeme :: rest)) =
      byteLength lexeme.gap + (byteLength lexeme.inside + byteLength (text rest)) := by
  rw [text_cons, Place.written, List.append_assoc, byteLength_append, byteLength_append]

theorem placed_append (offset : Nat) (first second : List Lexeme) :
    placed offset (first ++ second) =
      placed offset first ++ placed (offset + byteLength (text first)) second := by
  induction first generalizing offset with
  | nil => rfl
  | cons lexeme rest ih =>
      rw [List.cons_append, placed, ih, placed, byteLength_text_cons]
      simp only [Nat.add_assoc, List.cons_append]

/-- The last token stops where the text of the lexemes ends. -/
theorem stop_getLast?_placed (offset : Nat) (lexemes : List Lexeme) :
    ∀ last ∈ (placed offset lexemes).getLast?, last.stop = offset + byteLength (text lexemes) := by
  induction lexemes generalizing offset with
  | nil => nofun
  | cons lexeme rest ih =>
      intro last isLast
      rw [byteLength_text_cons, ← Nat.add_assoc, ← Nat.add_assoc]
      cases rest with
      | nil =>
          cases Option.mem_some.mp isLast
          rfl
      | cons second later =>
          rw [placed, placed, List.getLast?_cons_cons] at isLast
          exact ih _ last isLast

end Lexeme

/-- Lexemes that do not run into each other. -/
structure Apart (lexemes : List Lexeme) : Prop where
  sound : ∀ lexeme ∈ lexemes, lexeme.Sound
  meets : lexemes.IsChain Lexeme.Meets

namespace Apart

variable {first second : List Lexeme}

theorem append (apart : Apart first) (apart' : Apart second)
    (ends : ∀ last ∈ first.getLast?, last.token.isName = false) : Apart (first ++ second) where
  sound lexeme member := (List.mem_append.mp member).elim (apart.sound _) (apart'.sound _)
  meets := by
    rw [List.isChain_append]
    refine ⟨apart.meets, apart'.meets, ?_⟩
    intro last isLast _ _ isName
    rw [ends last isLast] at isName
    cases isName

/-- Only names can run into what follows, so the first lexeme is the one that matters if it
is the only name. -/
theorem of_head {head : Lexeme} {rest : List Lexeme}
    (sound : ∀ lexeme ∈ head :: rest, lexeme.Sound)
    (names : ∀ lexeme ∈ rest, lexeme.token.isName = false)
    (meets : ∀ second ∈ rest.head?, head.Meets second) : Apart (head :: rest) where
  sound := sound
  meets := by
    refine List.isChain_cons.mpr ⟨meets, ?_⟩
    apply List.Pairwise.isChain
    exact List.pairwise_of_forall_mem_list fun first member _ _ =>
      stops_of_not_isName (names first member) _

/-- The blanks in front of the first lexeme may be left out. -/
theorem withoutGap {head : Lexeme} (apart : Apart (head :: second)) :
    Apart ({ head with gap := [] } :: second) where
  sound := by
    obtain ⟨sound, sounds⟩ := List.forall_mem_cons.mp apart.sound
    exact List.forall_mem_cons.mpr ⟨⟨List.forall_mem_nil _, sound.stands⟩, sounds⟩
  meets := by
    obtain ⟨meets, later⟩ := List.isChain_cons.mp apart.meets
    exact List.isChain_cons.mpr ⟨meets, later⟩

theorem of_append (apart : Apart (first ++ second)) : Apart first ∧ Apart second := by
  obtain ⟨meets, meets', _⟩ := List.isChain_append.mp apart.meets
  exact ⟨⟨fun lexeme member => apart.sound lexeme (List.mem_append_left _ member), meets⟩,
    ⟨fun lexeme member => apart.sound lexeme (List.mem_append_right _ member), meets'⟩⟩

end Apart

theorem tokensFrom_blanks {gap : List Char} (blank : ∀ c ∈ gap, isBlank c = true) (offset : Nat)
    (after : List Char) :
    tokensFrom offset (gap ++ after) = tokensFrom (offset + byteLength gap) after := by
  induction gap generalizing offset with
  | nil => rfl
  | cons c rest ih =>
      obtain ⟨isBlank, blanks⟩ := List.forall_mem_cons.mp blank
      rw [List.cons_append, tokensFrom, if_pos isBlank, ih blanks, byteLength,
        utf8Size_of_isBlank isBlank, Nat.add_assoc]

/-- A name stops in front of blanks, and in front of a character that cannot go on with it. -/
theorem stops_blanks_append {gap : List Char} (blank : ∀ c ∈ gap, isBlank c = true) {c : Char}
    (stop : continuesName c = false) (token : Token) (after : List Char) :
    Stops token (gap ++ c :: after) := by
  intro _ next isNext
  cases gap with
  | nil =>
      cases Option.mem_some.mp isNext
      exact stop
  | cons first more =>
      cases Option.mem_some.mp isNext
      exact continuesName_of_isBlank (blank _ List.mem_cons_self)

/-- What a token stops in front of is the lexeme there, whatever is behind it. -/
theorem stops_append {lexeme : Lexeme} (sound : lexeme.Sound) (token : Token)
    (after : List Char) : Stops token (lexeme.written ++ after) ↔ Stops token lexeme.written := by
  obtain ⟨c, more, stands, _⟩ := sound.stands.exists_cons
  have head : (lexeme.written ++ after).head? = lexeme.written.head? := by
    rw [Place.written, stands]
    cases lexeme.gap <;> rfl
  rw [Stops, Stops, head]

/-- A lexeme is cut off in front of a text where its token can stop. -/
theorem tokensFrom_written {lexeme : Lexeme} (sound : lexeme.Sound) {after : List Char}
    (stops : Stops lexeme.token after) (offset : Nat) :
    tokensFrom offset (lexeme.written ++ after) =
      ⟨lexeme.token, offset + byteLength lexeme.gap, offset + byteLength lexeme.written⟩ ::
        tokensFrom (offset + byteLength lexeme.written) after := by
  obtain ⟨c, more, inside, notBlank⟩ := sound.stands.exists_cons
  have stands := sound.stands
  rw [inside] at stands
  have taken : take c (more ++ after) = (lexeme.token, more, after) := take_of_stands stands stops
  have length : byteLength lexeme.written =
      byteLength lexeme.gap + (c.utf8Size + byteLength more) := by
    rw [Place.written, inside, byteLength_append, byteLength]
  calc tokensFrom offset (lexeme.written ++ after)
    _ = tokensFrom (offset + byteLength lexeme.gap) (c :: (more ++ after)) := by
        rw [Place.written, inside, List.append_assoc, List.cons_append,
          tokensFrom_blanks sound.blank]
    _ = _ := by
        rw [tokensFrom, if_neg (by simp [notBlank]), taken, length]
        simp only [Nat.add_assoc]

/-- Lexemes that are apart are cut off in front of a text where the last one can stop. -/
theorem tokensFrom_text_append {lexemes : List Lexeme} (apart : Apart lexemes)
    {after : List Char} (stops : ∀ last ∈ lexemes.getLast?, Stops last.token after)
    (offset : Nat) :
    tokensFrom offset (Lexeme.text lexemes ++ after) =
      Lexeme.placed offset lexemes ++
        tokensFrom (offset + byteLength (Lexeme.text lexemes)) after := by
  induction lexemes generalizing offset with
  | nil => rfl
  | cons lexeme rest ih =>
      obtain ⟨sound, sounds⟩ := List.forall_mem_cons.mp apart.sound
      have stops' : Stops lexeme.token (Lexeme.text rest ++ after) := by
        cases rest with
        | nil => exact stops lexeme rfl
        | cons second later =>
            obtain ⟨meets, _⟩ := List.isChain_cons_cons.mp apart.meets
            rw [Lexeme.text_cons, List.append_assoc, stops_append (sounds _ List.mem_cons_self)]
            exact meets
      have later := ih ⟨sounds, apart.meets.tail⟩ fun last isLast => by
        apply stops last
        cases rest with
        | nil => cases isLast
        | cons second later => rwa [List.getLast?_cons_cons]
      rw [Lexeme.text_cons, List.append_assoc, tokensFrom_written sound stops', later,
        Lexeme.placed, Place.written]
      simp only [byteLength_append, Nat.add_assoc, List.cons_append]

/-- Lexemes that are apart are found again, wherever they are written. -/
theorem tokensFrom_text {lexemes : List Lexeme} (apart : Apart lexemes) {tail : List Char}
    (blank : ∀ c ∈ tail, isBlank c = true) (offset : Nat) :
    tokensFrom offset (Lexeme.text lexemes ++ tail) = Lexeme.placed offset lexemes := by
  have nothing (offset : Nat) : tokensFrom offset tail = [] := by
    rw [← List.append_nil tail, tokensFrom_blanks blank, tokensFrom]
  rw [tokensFrom_text_append apart, nothing, List.append_nil]
  intro last _ _ next member
  exact continuesName_of_isBlank (blank next (List.mem_of_mem_head? member))

/-- If a token can stop in front of a name, it can stop in front of anything that has the same
blanks before it: without blanks, only what is continued by nothing stops there. -/
theorem stops_of_stops_name {token : Token} {first second : Lexeme} {text : List Char}
    (sound : first.Sound) (isName : first.token = .name text) (same : second.gap = first.gap)
    (stops : Stops token first.written) : Stops token second.written := by
  intro continued next member
  have stands := sound.stands
  rw [isName] at stands
  cases blanks : first.gap with
  | cons blank rest =>
      apply stops continued next
      simpa [Place.written, same, blanks] using member
  | nil =>
      cases inside : first.inside with
      | nil =>
          rw [inside] at stands
          cases stands
      | cons c more =>
          rw [inside] at stands
          cases stands with
          | name starts _ =>
              have stop := stops continued c (by simp [Place.written, blanks, inside])
              simp [continuesName, starts] at stop

/-! ## The lexemes of a text -/

/-- Every quote in a text that starts at byte `offset` is part of a quoted string. -/
def QuotesClosedFrom (offset : Nat) (text : List Char) : Prop :=
  ∀ before quote after, text = before ++ quote :: after → isQuote quote = true →
    ∃ token ∈ tokensFrom offset text, token.token.isQuoted = true ∧
      token.start ≤ offset + byteLength before ∧ offset + byteLength before < token.stop

instance (offset : Nat) (text : List Char) : Decidable (QuotesClosedFrom offset text) :=
  decidable_of_iff (∀ place : Fin text.length, isQuote text[place] = true →
    ∃ token ∈ tokensFrom offset text, token.token.isQuoted = true ∧
      token.start ≤ offset + byteLength (text.take place) ∧
      offset + byteLength (text.take place) < token.stop) <| by
  constructor
  · rintro covered before quote after rfl isQuote
    have inside : before.length < (before ++ quote :: after).length := by simp
    have covers := covered ⟨before.length, inside⟩
    simp only [Fin.getElem_fin, List.getElem_append_right (Nat.le_refl _), Nat.sub_self,
      List.getElem_cons_zero, List.take_left] at covers
    exact covers isQuote
  · intro closed place isQuote
    have split : text = text.take place ++ text[place] :: text.drop (place + 1) := by simp
    exact closed _ _ _ split isQuote

/-- Every quote in a value is part of a quoted string. -/
def QuotesClosed (value : List Char) : Prop := QuotesClosedFrom 0 value

instance (value : List Char) : Decidable (QuotesClosed value) :=
  inferInstanceAs (Decidable (QuotesClosedFrom 0 value))

theorem le_start_of_mem_tokensFrom {offset : Nat} {text : List Char} {token : PlacedToken}
    (member : token ∈ tokensFrom offset text) : offset ≤ token.start := by
  induction offset, text using tokensFrom.induct with
  | case1 offset =>
      rw [tokensFrom] at member
      cases member
  | case2 offset c rest blank ih =>
      rw [tokensFrom, if_pos blank] at member
      exact Nat.le_of_succ_le (ih member)
  | case3 offset c rest notBlank taken stop ih =>
      rw [tokensFrom, if_neg notBlank] at member
      rcases List.mem_cons.mp member with rfl | member
      · exact Nat.le_refl _
      · have later := ih member
        omega

theorem tokensFrom_of_notBlank {offset : Nat} {c : Char} {rest : List Char}
    (notBlank : ¬ isBlank c = true) :
    tokensFrom offset (c :: rest) =
      ⟨(take c rest).1, offset, offset + c.utf8Size + byteLength (take c rest).2.1⟩ ::
        tokensFrom (offset + c.utf8Size + byteLength (take c rest).2.1) (take c rest).2.2 := by
  rw [tokensFrom, if_neg notBlank]

namespace QuotesClosedFrom

variable {offset : Nat} {c : Char} {rest : List Char}

theorem behind_blank (closed : QuotesClosedFrom offset (c :: rest)) (blank : isBlank c = true) :
    QuotesClosedFrom (offset + 1) rest := by
  intro before quote after split isQuote
  have whole : c :: rest = (c :: before) ++ quote :: after := by rw [split, List.cons_append]
  obtain ⟨token, member, covers⟩ := closed _ quote after whole isQuote
  rw [tokensFrom, if_pos blank] at member
  rw [byteLength, utf8Size_of_isBlank blank, ← Nat.add_assoc] at covers
  exact ⟨token, member, covers⟩

/-- A quote that begins a token is not stray. -/
theorem isQuoted (closed : QuotesClosedFrom offset (c :: rest)) (notBlank : ¬ isBlank c = true)
    (isQuote : isQuote c = true) : (take c rest).1.isQuoted = true := by
  obtain ⟨token, member, quoted, starts, _⟩ := closed [] c rest rfl isQuote
  rw [tokensFrom_of_notBlank notBlank] at member
  rcases List.mem_cons.mp member with rfl | member
  · exact quoted
  · -- the tokens behind start too late to have the quote in them
    have later := le_start_of_mem_tokensFrom member
    have wide := c.utf8Size_pos
    rw [byteLength] at starts
    omega

theorem behind (closed : QuotesClosedFrom offset (c :: rest)) (notBlank : ¬ isBlank c = true) :
    QuotesClosedFrom (offset + c.utf8Size + byteLength (take c rest).2.1) (take c rest).2.2 := by
  intro before quote after split isQuote
  have whole : c :: rest = (c :: (take c rest).2.1 ++ before) ++ quote :: after := by
    rw [List.append_assoc, ← split, List.cons_append, take_append]
  have position : offset + byteLength (c :: (take c rest).2.1 ++ before) =
      offset + c.utf8Size + byteLength (take c rest).2.1 + byteLength before := by
    rw [byteLength_append, byteLength, ← Nat.add_assoc, ← Nat.add_assoc]
  obtain ⟨token, member, quoted, starts, stops⟩ := closed _ quote after whole isQuote
  rw [position] at starts stops
  rw [tokensFrom_of_notBlank notBlank] at member
  rcases List.mem_cons.mp member with rfl | member
  · -- the first token stops in front of the quote
    exact absurd stops (by simp)
  · exact ⟨token, member, quoted, starts, stops⟩

end QuotesClosedFrom

/-- A text whose quotes are closed consists of lexemes that are apart, and blanks. -/
theorem exists_lexemes {offset : Nat} {text : List Char} (closed : QuotesClosedFrom offset text) :
    ∃ lexemes tail, text = Lexeme.text lexemes ++ tail ∧ Apart lexemes ∧
      ∀ c ∈ tail, isBlank c = true := by
  induction offset, text using tokensFrom.induct with
  | case1 offset => exact ⟨[], [], rfl, ⟨List.forall_mem_nil _, .nil⟩, List.forall_mem_nil _⟩
  | case2 offset c rest blank ih =>
      -- a blank goes to the lexeme behind it, or to the blanks at the end
      obtain ⟨lexemes, tail, rfl, apart, blanks⟩ := ih (closed.behind_blank blank)
      cases lexemes with
      | nil => exact ⟨[], c :: tail, rfl, apart, List.forall_mem_cons.mpr ⟨blank, blanks⟩⟩
      | cons lexeme later =>
          obtain ⟨sound, sounds⟩ := List.forall_mem_cons.mp apart.sound
          refine ⟨{ lexeme with gap := c :: lexeme.gap } :: later, tail, ?_, ⟨?_, ?_⟩, blanks⟩
          · simp [Lexeme.text, Place.written]
          · refine List.forall_mem_cons.mpr ⟨⟨?_, sound.stands⟩, sounds⟩
            exact List.forall_mem_cons.mpr ⟨blank, sound.blank⟩
          · obtain ⟨meets, laters⟩ := List.isChain_cons.mp apart.meets
            exact List.isChain_cons.mpr ⟨meets, laters⟩
  | case3 offset c rest notBlank taken stop ih =>
      obtain ⟨stands, stops⟩ := stands_take (by simpa using notBlank) (closed.isQuoted notBlank)
      obtain ⟨lexemes, tail, left, apart, blanks⟩ := ih (closed.behind notBlank)
      refine ⟨⟨⟨[], c :: taken.2.1⟩, taken.1⟩ :: lexemes, tail, ?_, ⟨?_, ?_⟩, blanks⟩
      · rw [Lexeme.text_cons, Place.written, List.nil_append, List.append_assoc, ← left,
          List.cons_append, take_append]
      · exact List.forall_mem_cons.mpr ⟨⟨List.forall_mem_nil _, stands⟩, apart.sound⟩
      · refine List.isChain_cons.mpr ⟨?_, apart.meets⟩
        intro second isSecond
        obtain ⟨later, rfl⟩ := List.head?_eq_some_iff.mp isSecond
        rw [left, Lexeme.text_cons, List.append_assoc,
          stops_append (apart.sound second List.mem_cons_self)] at stops
        exact stops

/-! ## Tokens of a part -/

/-- Where the tokens of a text are cut in two, the text can be cut as well: the tokens behind
are those of the text behind. -/
theorem exists_suffix (offset : Nat) (text : List Char) :
    ∀ front later, tokensFrom offset text = front ++ later →
      ∃ before after, text = before ++ after ∧
        tokensFrom (offset + byteLength before) after = later := by
  induction offset, text using tokensFrom.induct with
  | case1 offset =>
      intro front later cut
      rw [tokensFrom] at cut
      obtain ⟨rfl, rfl⟩ := List.append_eq_nil_iff.mp cut.symm
      exact ⟨[], [], rfl, by rw [tokensFrom]⟩
  | case2 offset c rest blank ih =>
      intro front later cut
      rw [tokensFrom, if_pos blank] at cut
      obtain ⟨before, after, rfl, tokens⟩ := ih front later cut
      refine ⟨c :: before, after, rfl, ?_⟩
      rw [byteLength, utf8Size_of_isBlank blank, ← Nat.add_assoc]
      exact tokens
  | case3 offset c rest notBlank taken stop ih =>
      intro front later cut
      rw [tokensFrom_of_notBlank notBlank] at cut
      cases front with
      | nil => exact ⟨[], c :: rest, rfl, (tokensFrom_of_notBlank notBlank).trans cut⟩
      | cons token front =>
          obtain ⟨before, after, left, tokens⟩ := ih front later (List.cons.inj cut).2
          refine ⟨c :: (taken.2.1 ++ before), after, ?_, ?_⟩
          · rw [List.cons_append, List.append_assoc, ← left, take_append]
          · rw [byteLength, byteLength_append, ← Nat.add_assoc, ← Nat.add_assoc]
            exact tokens

/-- A first token that is not stray is a lexeme at the front of the text. -/
theorem exists_lexeme_of_cons {offset : Nat} {text : List Char} {token : PlacedToken}
    {later : List PlacedToken} (cut : tokensFrom offset text = token :: later)
    (proper : token.token ≠ .stray) :
    ∃ lexeme : Lexeme, ∃ after, text = lexeme.written ++ after ∧ lexeme.Sound ∧
      Stops lexeme.token after ∧
      token = ⟨lexeme.token, offset + byteLength lexeme.gap, offset + byteLength lexeme.written⟩ ∧
      tokensFrom (offset + byteLength lexeme.written) after = later := by
  induction offset, text using tokensFrom.induct with
  | case1 offset =>
      rw [tokensFrom] at cut
      cases cut
  | case2 offset c rest blank ih =>
      rw [tokensFrom, if_pos blank] at cut
      obtain ⟨lexeme, after, rfl, sound, stops, rfl, tokens⟩ := ih cut
      have wider : byteLength (c :: lexeme.gap) = 1 + byteLength lexeme.gap := by
        rw [byteLength, utf8Size_of_isBlank blank]
      refine ⟨{ lexeme with gap := c :: lexeme.gap }, after, rfl, ⟨?_, sound.stands⟩, stops, ?_, ?_⟩
      · exact List.forall_mem_cons.mpr ⟨blank, sound.blank⟩
      · simp only [Place.written, byteLength_append, wider, Nat.add_assoc]
      · simpa only [Place.written, byteLength_append, wider, Nat.add_assoc] using tokens
  | case3 offset c rest notBlank taken stop ih =>
      rw [tokensFrom_of_notBlank notBlank] at cut
      obtain ⟨rfl, tokens⟩ := List.cons.inj cut
      obtain ⟨stands, stops⟩ :=
        stands_take (by simpa using notBlank) fun quote => isQuoted_take quote proper
      refine ⟨⟨⟨[], c :: (take c rest).2.1⟩, (take c rest).1⟩, (take c rest).2.2, ?_,
        ⟨List.forall_mem_nil _, stands⟩, stops, ?_, ?_⟩
      · rw [Place.written, List.nil_append, List.cons_append, take_append]
      · simp only [Place.written, List.nil_append, byteLength, Nat.add_zero, Nat.add_assoc]
      · simpa only [Place.written, List.nil_append, byteLength, Nat.add_assoc] using tokens

/-- First tokens that are not stray are lexemes at the front of the text. -/
theorem exists_lexemes_of_append {offset : Nat} {text : List Char}
    {front later : List PlacedToken} (cut : tokensFrom offset text = front ++ later)
    (proper : ∀ token ∈ front, token.token ≠ .stray) :
    ∃ lexemes after, text = Lexeme.text lexemes ++ after ∧ Apart lexemes ∧
      Lexeme.placed offset lexemes = front := by
  induction front generalizing offset text with
  | nil => exact ⟨[], text, rfl, ⟨List.forall_mem_nil _, .nil⟩, rfl⟩
  | cons token front ih =>
      obtain ⟨notStray, propers⟩ := List.forall_mem_cons.mp proper
      obtain ⟨lexeme, after, rfl, sound, stops, rfl, tokens⟩ := exists_lexeme_of_cons cut notStray
      obtain ⟨lexemes, after, rfl, apart, placed⟩ := ih tokens propers
      refine ⟨lexeme :: lexemes, after, ?_, ⟨?_, ?_⟩, ?_⟩
      · rw [Lexeme.text_cons, List.append_assoc]
      · exact List.forall_mem_cons.mpr ⟨sound, apart.sound⟩
      · refine List.isChain_cons.mpr ⟨?_, apart.meets⟩
        intro second isSecond
        obtain ⟨rest, rfl⟩ := List.head?_eq_some_iff.mp isSecond
        rw [Lexeme.text_cons, List.append_assoc,
          stops_append (apart.sound second List.mem_cons_self)] at stops
        exact stops
      · rw [Lexeme.placed, ← placed, Place.written, byteLength_append, Nat.add_assoc]

end ThemedSvg.Declaration

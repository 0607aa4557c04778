/-
# Written calls

Scanning undoes writing. A call may be written with blanks between all of its tokens and with
either quote around each of its arguments, as long as that quote is not in the argument; what
else is there, be it another call, is the argument's own. Between calls there may be white
space, commas and names that stand apart. The scanner finds the calls that were written, in
their order, each where it was put.
-/

import ThemedSvg.Proofs.CallSites

namespace ThemedSvg.Declaration

open Text

/-! ## Parts of a call -/

/-- A letter or an underscore, and what can go on with it in a name. -/
structure Word where
  first : Char
  more : List Char
  starts : startsName first = true
  continues : ∀ c ∈ more, continuesName c = true

def Word.text (word : Word) : List Char := word.first :: word.more

/-- Blanks, or nothing. -/
structure Gap where
  text : List Char
  blank : ∀ c ∈ text, isBlank c = true

/-- A text between two quotes of a kind that is not in it. -/
structure Quotation where
  quote : Char
  text : List Char
  isQuote : isQuote quote = true
  nonempty : text ≠ []
  closed : quote ∉ text

/-- An argument with the blanks in front of it. -/
structure Argument where
  gap : Gap
  string : Quotation

def Argument.written (argument : Argument) : List Char :=
  argument.gap.text ++ argument.string.quote :: (argument.string.text ++ [argument.string.quote])

/-- A call as it is written: its arguments, and the blanks in front of the two parentheses and
of the comma, if there is one. -/
structure Script where
  beforeOpening : Gap
  name : Argument
  params : Option (Gap × Argument)
  beforeClosing : Gap

namespace Script

/-- The name that a call has in quotes. -/
def nameText (script : Script) : String := String.ofList script.name.string.text

/-- The parameters that a call has in quotes. -/
def paramsText (script : Script) : Option String :=
  script.params.map fun params => String.ofList params.2.string.text

/-- A call of `func`. -/
def written (func : Word) (script : Script) : List Char :=
  func.text ++ script.beforeOpening.text ++ ['('] ++ script.name.written ++
    (match script.params with
      | none => []
      | some (beforeComma, params) => beforeComma.text ++ [','] ++ params.written) ++
    script.beforeClosing.text ++ [')']

end Script

/-! ## Values -/

/-- What may stand between calls. -/
inductive Filler
  | space (c : Char) (isSpace : Text.isSpace c = true)
  | comma
  | word (name : Word)

namespace Filler

def written : Filler → List Char
  | space c _ => [c]
  | comma => [',']
  | word name => name.text

def isWord : Filler → Bool
  | word _ => true
  | _ => false

end Filler

/-- A run of fillers. The words in it stand apart, and none is the name that is called. -/
structure Run (func : Word) where
  fillers : List Filler
  apart : fillers.IsChain fun first second => first.isWord = true → second.isWord = false
  other : ∀ name, .word name ∈ fillers → name.text ≠ func.text

/-- A run in front of a call, whose name stands apart as well. -/
structure Lead (func : Word) extends Run func where
  ends : ∀ last ∈ fillers.getLast?, last.isWord = false

def Run.written {func : Word} (run : Run func) : List Char := run.fillers.flatMap Filler.written

/-- A value with calls of `func`, each behind a run, and a run behind the last one. -/
structure Composition (func : Word) where
  calls : List (Lead func × Script)
  rest : Run func

namespace Composition

variable {func : Word}

def written (value : Composition func) : List Char :=
  (value.calls.flatMap fun (lead, script) => lead.written ++ script.written func) ++
    value.rest.written

/-- The calls of a value with the bytes at which they are put, if the first run is at byte
`offset`. -/
def placedFrom (offset : Nat) : List (Lead func × Script) → List Invocation
  | [] => []
  | (lead, script) :: calls =>
      let start := offset + byteLength lead.written
      let stop := start + byteLength (script.written func)
      ⟨start, stop, script.nameText, script.paramsText⟩ :: placedFrom stop calls

def placed (value : Composition func) : List Invocation := placedFrom 0 value.calls

end Composition

/-! ## Calls as lexemes -/

namespace Argument

def lexeme (argument : Argument) : Lexeme where
  gap := argument.gap.text
  inside := argument.string.quote :: (argument.string.text ++ [argument.string.quote])
  token := .quoted argument.string.text

theorem sound (argument : Argument) : argument.lexeme.Sound :=
  ⟨argument.gap.blank,
    .quoted argument.string.isQuote argument.string.nonempty argument.string.closed⟩

end Argument

namespace Script

variable (func : Word) (script : Script)

/-- The name that is called. -/
def head : Lexeme := ⟨⟨[], func.text⟩, .name func.text⟩

/-- A mark that is a token by itself, with the blanks in front of it. -/
def mark (gap : Gap) (token : Token) (c : Char) : Lexeme := ⟨⟨gap.text, [c]⟩, token⟩

/-- The lexemes behind the name that is called. -/
def arguments : List Lexeme :=
  mark script.beforeOpening .opening '(' :: script.name.lexeme ::
    ((match script.params with
      | none => []
      | some (beforeComma, params) => [mark beforeComma .comma ',', params.lexeme]) ++
    [mark script.beforeClosing .closing ')'])

theorem text_lexemes : Lexeme.text (head func :: script.arguments) = script.written func := by
  obtain ⟨beforeOpening, name, params, beforeClosing⟩ := script
  cases params <;>
    simp [Lexeme.text, Place.written, head, mark, arguments, written, Argument.written,
      Argument.lexeme]

theorem map_token_lexemes :
    (head func :: script.arguments).map Lexeme.token =
      callTokens func.text script.nameText script.paramsText := by
  obtain ⟨beforeOpening, name, params, beforeClosing⟩ := script
  cases params <;>
    simp [head, mark, arguments, Argument.lexeme, callTokens, argumentTokens, nameText,
      paramsText]

theorem sound_head : (head func).Sound :=
  ⟨List.forall_mem_nil _, .name func.starts func.continues⟩

theorem sound_arguments : ∀ lexeme ∈ script.arguments, lexeme.Sound := by
  have sound_mark {gap : Gap} {token : Token} {c : Char} (stands : Stands token [c]) :
      (mark gap token c).Sound := ⟨gap.blank, stands⟩
  obtain ⟨beforeOpening, name, params, beforeClosing⟩ := script
  cases params with
  | none =>
      simp only [arguments, List.nil_append, List.forall_mem_cons]
      exact ⟨sound_mark .opening, name.sound, sound_mark .closing, List.forall_mem_nil _⟩
  | some params =>
      simp only [arguments, List.cons_append, List.nil_append, List.forall_mem_cons]
      exact ⟨sound_mark .opening, name.sound, sound_mark .comma, params.2.sound,
        sound_mark .closing, List.forall_mem_nil _⟩

theorem apart_lexemes : Apart (head func :: script.arguments) := by
  have isCall := script.map_token_lexemes func
  apply Apart.of_head
  · exact List.forall_mem_cons.mpr ⟨sound_head func, script.sound_arguments⟩
  · intro lexeme member
    have isPart : lexeme.token ∈ argumentTokens script.nameText script.paramsText := by
      rw [← (List.cons.inj isCall).2]
      exact List.mem_map_of_mem member
    exact not_isName_of_mem_argumentTokens _ isPart
  · intro second isSecond
    cases Option.mem_some.mp isSecond
    exact stops_blanks_append script.beforeOpening.blank rfl _ _

/-- A written call is found where it begins, and reading goes on behind it. -/
theorem findIn_written (offset : Nat) (after : List Char) :
    Invocation.findIn func.text (tokensFrom offset (script.written func ++ after)) =
      ⟨offset, offset + byteLength (script.written func), script.nameText, script.paramsText⟩ ::
        Invocation.findIn func.text
          (tokensFrom (offset + byteLength (script.written func)) after) := by
  rw [← text_lexemes]
  exact Invocation.findIn_call (script.map_token_lexemes func) (script.apart_lexemes func)
    offset after

end Script

/-! ## Fillers -/

/-- A lexeme that is not the name of the function is passed over. -/
theorem findIn_passed (lexeme : Lexeme) (sound : lexeme.Sound) {after : List Char}
    (stops : Stops lexeme.token after) {func : List Char} (differs : lexeme.token ≠ .name func)
    (offset : Nat) :
    Invocation.findIn func (tokensFrom offset (lexeme.written ++ after)) =
      Invocation.findIn func (tokensFrom (offset + byteLength lexeme.written) after) := by
  rw [tokensFrom_written sound stops]
  apply Invocation.findIn_of_none
  exact Invocation.take?_eq_none (not_startsCall_of_ne differs)

/-- White space goes on with no name. -/
theorem continuesName_of_isSpace {c : Char} (space : Text.isSpace c = true) :
    continuesName c = false := by
  by_contra continues
  simp only [continuesName, startsName, Bool.not_eq_false, Bool.or_eq_true,
    beq_iff_eq] at continues
  simp only [Text.isSpace, Bool.or_eq_true, Bool.and_eq_true, decide_eq_true_eq,
    beq_iff_eq] at space
  rcases continues with ((alpha | rfl) | digit) | rfl
  · rcases Bool.or_eq_true_iff.mp alpha with upper | lower
    · have bounds : 65 ≤ c.toNat ∧ c.toNat ≤ 90 := of_decide_eq_true upper
      omega
    · have bounds : (decide (97 ≤ c.toNat) && decide (c.toNat ≤ 122)) = true := lower
      simp only [Bool.and_eq_true, decide_eq_true_iff] at bounds
      omega
  · revert space
    decide
  · have bounds : 48 ≤ c.toNat ∧ c.toNat ≤ 57 := Char.isDigit_iff_toNat.mp digit
    omega
  · revert space
    decide

/-- White space that the scanner does not skip is a token by itself. -/
theorem stands_of_isSpace {c : Char} (space : Text.isSpace c = true)
    (notBlank : isBlank c = false) : Stands .stray [c] := by
  have notName : startsName c = false := by
    have stop := continuesName_of_isSpace space
    simp only [continuesName, Bool.or_eq_false_iff] at stop
    exact stop.1.1
  have differs {mark : Char} (notSpace : Text.isSpace mark = false) : c ≠ mark := by
    rintro rfl
    exact absurd space (by simp [notSpace])
  refine .stray notBlank notName ?_ (differs rfl) (differs rfl) (differs rfl)
  have single : c ≠ '"' := differs rfl
  have double : c ≠ '\'' := differs rfl
  simp [isQuote, single, double]

namespace Filler

/-- Any name stops in front of a filler that is no name. -/
theorem stops_written {filler : Filler} (notWord : filler.isWord = false) (token : Token)
    (after : List Char) : Stops token (filler.written ++ after) := by
  cases filler with
  | space c isSpace =>
      exact stops_blanks_append (List.forall_mem_nil _) (continuesName_of_isSpace isSpace) token _
  | comma => exact stops_blanks_append (List.forall_mem_nil _) rfl token _
  | word name => cases notWord

/-- A filler is passed over. -/
theorem findIn_written {filler : Filler} {func : List Char}
    (other : ∀ name, filler = .word name → name.text ≠ func) {after : List Char}
    (stops : filler.isWord = true → ∀ next ∈ after.head?, continuesName next = false)
    (offset : Nat) :
    Invocation.findIn func (tokensFrom offset (filler.written ++ after)) =
      Invocation.findIn func (tokensFrom (offset + byteLength filler.written) after) := by
  have unspaced : ∀ c ∈ [], isBlank c = true := List.forall_mem_nil _
  cases filler with
  | space c isSpace =>
      cases blank : isBlank c with
      | true =>
          have skipped : ∀ blank ∈ [c], isBlank blank = true :=
            List.forall_mem_singleton.mpr blank
          rw [written, tokensFrom_blanks skipped]
      | false =>
          exact findIn_passed ⟨⟨[], [c]⟩, .stray⟩
            ⟨unspaced, stands_of_isSpace isSpace blank⟩ (stops_of_not_isName rfl _) nofun offset
  | comma =>
      exact findIn_passed ⟨⟨[], [',']⟩, .comma⟩ ⟨unspaced, .comma⟩
        (stops_of_not_isName rfl _) nofun offset
  | word name =>
      apply findIn_passed ⟨⟨[], name.text⟩, .name name.text⟩
        ⟨unspaced, .name name.starts name.continues⟩ (fun _ => stops rfl)
      intro same
      exact other name rfl (Token.name.inj same)

/-- Fillers whose words stand apart are passed over. -/
theorem findIn_written_all {fillers : List Filler} {func : List Char}
    (apart : fillers.IsChain fun first second => first.isWord = true → second.isWord = false)
    (other : ∀ name, .word name ∈ fillers → name.text ≠ func) {after : List Char}
    (stops : ∀ last ∈ fillers.getLast?, last.isWord = true →
      ∀ next ∈ after.head?, continuesName next = false)
    (offset : Nat) :
    Invocation.findIn func (tokensFrom offset (fillers.flatMap written ++ after)) =
      Invocation.findIn func
        (tokensFrom (offset + byteLength (fillers.flatMap written)) after) := by
  induction fillers generalizing offset with
  | nil => rfl
  | cons filler rest ih =>
      obtain ⟨meets, apart'⟩ := List.isChain_cons.mp apart
      have stop : filler.isWord = true →
          ∀ next ∈ (rest.flatMap written ++ after).head?, continuesName next = false := by
        intro isWord
        cases rest with
        | nil => exact stops filler rfl isWord
        | cons second later =>
            rw [List.flatMap_cons, List.append_assoc]
            exact stops_written (meets second rfl isWord) (.name []) _ rfl
      have later := ih apart' (fun name member => other name (List.mem_cons_of_mem _ member))
        (by
          intro last isLast
          apply stops last
          cases rest with
          | nil => cases isLast
          | cons second later => rwa [List.getLast?_cons_cons])
      rw [List.flatMap_cons, List.append_assoc, findIn_written _ stop, later, byteLength_append,
        Nat.add_assoc]
      rintro name rfl
      exact other name List.mem_cons_self

end Filler

/-! ## Scanning -/

namespace Composition

variable {func : Word}

theorem findIn_calls (calls : List (Lead func × Script)) (rest : Run func) (offset : Nat) :
    Invocation.findIn func.text (tokensFrom offset
        ((calls.flatMap fun (lead, script) => lead.written ++ script.written func) ++
          rest.written)) =
      placedFrom offset calls := by
  induction calls generalizing offset with
  | nil =>
      have ends : ∀ last ∈ rest.fillers.getLast?, last.isWord = true →
          ∀ next ∈ ([] : List Char).head?, continuesName next = false :=
        fun _ _ _ _ isNext => nomatch isNext
      have passed := Filler.findIn_written_all rest.apart rest.other ends offset
      rw [List.append_nil, tokensFrom, Invocation.findIn] at passed
      exact passed
  | cons call calls ih =>
      obtain ⟨lead, script⟩ := call
      -- the run in front ends with no word that the call could go on with
      have stops (after : List Char) : ∀ last ∈ lead.fillers.getLast?, last.isWord = true →
          ∀ next ∈ after.head?, continuesName next = false := by
        intro last isLast isWord
        rw [lead.ends last isLast] at isWord
        cases isWord
      rw [List.flatMap_cons, List.append_assoc, List.append_assoc, Run.written,
        Filler.findIn_written_all lead.apart lead.other (stops _), script.findIn_written, ih]
      rfl

/-- Where the calls of a value are put, they can be read as they were written. -/
theorem map_read_placedFrom {calls : List (Lead func × Script)} {value : List Char}
    (before : List Char) {after : List Char}
    (split : value =
      before ++ (calls.flatMap fun (lead, script) => lead.written ++ script.written func) ++
        after) :
    (placedFrom (byteLength before) calls).map (Invocation.read value) =
      calls.map fun (_, script) =>
        (script.nameText, script.paramsText, script.written func) := by
  induction calls generalizing before with
  | nil => rfl
  | cons call calls ih =>
      obtain ⟨lead, script⟩ := call
      rw [List.flatMap_cons] at split
      dsimp only at split
      have start : byteLength before + byteLength lead.written =
          byteLength (before ++ lead.written) := (byteLength_append _ _).symm
      have stop : byteLength (before ++ lead.written) + byteLength (script.written func) =
          byteLength (before ++ lead.written ++ script.written func) :=
        (byteLength_append _ _).symm
      have later := ih (before ++ lead.written ++ script.written func)
        (by simpa only [List.append_assoc] using split)
      have inside := sliceBytes_append (before ++ lead.written) (script.written func)
        ((calls.flatMap fun (lead, script) => lead.written ++ script.written func) ++ after)
      have whole : value = before ++ lead.written ++ script.written func ++
          ((calls.flatMap fun (lead, script) => lead.written ++ script.written func) ++
            after) := by
        simpa only [List.append_assoc] using split
      rw [← whole] at inside
      rw [placedFrom, List.map_cons, List.map_cons, start, stop, later, Invocation.read, ← stop,
        inside]

/-- The scanner finds the calls of a value with what was written in them, at the bytes where
they were written, and nothing else. -/
theorem find_written (value : Composition func) :
    Invocation.find (String.ofList value.written) (String.ofList func.text) = value.placed ∧
      value.placed.map (Invocation.read value.written) = value.calls.map fun (_, script) =>
        (script.nameText, script.paramsText, script.written func) := by
  constructor
  · rw [Invocation.find, String.toList_ofList, String.toList_ofList]
    exact findIn_calls value.calls value.rest 0
  · exact map_read_placedFrom [] rfl

/-! ## A value with two calls -/

/-- The name that is called. -/
def svgWord : Word := ⟨'s', ['v', 'g'], rfl, List.all_eq_true.mp rfl⟩

/-- Another name. -/
def urlWord : Word := ⟨'u', ['r', 'l'], rfl, List.all_eq_true.mp rfl⟩

/-- Nothing between two tokens. -/
def noGap : Gap := ⟨[], List.forall_mem_nil _⟩

def spaceGap : Gap := ⟨[' '], List.forall_mem_singleton.mpr rfl⟩

/-- A name and a comma, and then a blank in front of the call. -/
def urlLead : Lead svgWord where
  fillers := [.word urlWord, .comma, .space ' ' rfl]
  apart := by decide
  other := by
    intro name member
    obtain rfl : name = urlWord := by simpa using member
    decide
  ends := by decide

def commaLead : Lead svgWord where
  fillers := [.comma, .space ' ' rfl]
  apart := by decide
  other := by simp
  ends := by decide

/-- A call without parameters and without blanks. -/
def dotScript : Script where
  beforeOpening := noGap
  name := ⟨noGap, '\'', "dot".toList, rfl, by decide, by decide⟩
  params := none
  beforeClosing := noGap

/-- A call with a blank between all of its tokens. Its name looks like a call as well. -/
def quotedScript : Script where
  beforeOpening := spaceGap
  name := ⟨spaceGap, '"', "svg('a')".toList, rfl, by decide, by decide⟩
  params := some (spaceGap, ⟨spaceGap, '\'', [' '], rfl, by decide, by decide⟩)
  beforeClosing := spaceGap

/-- One call behind the other, and a name behind both. -/
def twoCalls : Composition svgWord where
  calls := [(urlLead, dotScript), (commaLead, quotedScript)]
  rest :=
    { fillers := [.space '\n' rfl, .word urlWord]
      apart := by decide
      other := by
        intro name member
        obtain rfl : name = urlWord := by simpa using member
        decide }

theorem find_written_twoCalls :
    ∃ value calls, value = "url, svg('dot'), svg ( \"svg('a')\" , ' ' )\nurl" ∧
      calls = [⟨5, 15, "dot", none⟩, ⟨17, 41, "svg('a')", some " "⟩] ∧
      Invocation.find value "svg" = calls ∧
      calls.map (Invocation.read value.toList) =
        [("dot", none, "svg('dot')".toList),
          ("svg('a')", some " ", "svg ( \"svg('a')\" , ' ' )".toList)] := by
  have text : twoCalls.written = "url, svg('dot'), svg ( \"svg('a')\" , ' ' )\nurl".toList := by
    decide +kernel
  have placed : twoCalls.placed =
      [⟨5, 15, "dot", none⟩, ⟨17, 41, "svg('a')", some " "⟩] := by
    decide +kernel
  obtain ⟨found, reads⟩ := find_written twoCalls
  rw [placed, text, String.ofList_toList] at found
  rw [placed, text] at reads
  exact ⟨_, _, rfl, rfl, found, reads⟩

end Composition

end ThemedSvg.Declaration

/-
# Data URIs

Nothing of a text is lost in its data URI, for the payload can be decoded to the bytes of it.
Nothing of the payload means anything to a style sheet: it has no quote, backslash or line
break that could end the string around it. So a data URI reads as one call of `url` with one
quoted argument, whatever the text.
-/

import ThemedSvg.DataUri
import ThemedSvg.Paint.Notation
import ThemedSvg.Proofs.Lexemes
import ThemedSvg.Text.Line

namespace ThemedSvg

namespace DataUri

/-! ## Payloads -/

/-- The bytes that a payload stands for. A percent sign and two hexadecimal digits are a byte,
and every other character is what it is. -/
def decode : List Char → List UInt8
  | [] => []
  | '%' :: high :: low :: rest =>
      match Paint.hexValue? high, Paint.hexValue? low with
      | some high', some low' => UInt8.ofNat (16 * high' + low') :: decode rest
      | _, _ => String.utf8EncodeChar '%' ++ decode (high :: low :: rest)
  | c :: rest => String.utf8EncodeChar c ++ decode rest

/-- The digits that a byte is encoded with. -/
def digits : List Char := "0123456789ABCDEF".toList

/-- A character that means nothing in a style sheet or a URL: a letter, a digit or one of nine
marks, all of them ASCII. -/
def Unreserved (c : Char) : Prop :=
  c.isAlphanum = true ∨ c ∈ ['-', '_', '.', '!', '~', '*', '\'', '(', ')']

/-- A text of unreserved characters, and of percent signs with two digits behind each. -/
inductive IsPayload : List Char → Prop
  | nil : IsPayload []
  | plain {c : Char} {rest : List Char} : Unreserved c → IsPayload rest →
      IsPayload (c :: rest)
  | encoded {high low : Char} {rest : List Char} : high ∈ digits → low ∈ digits →
      IsPayload rest → IsPayload ('%' :: high :: low :: rest)

theorem isPlain_iff {c : Char} : isPlain c = true ↔ Unreserved c := by
  have spelled : marks = ['-', '_', '.', '!', '~', '*', '\'', '(', ')'] := by decide +kernel
  rw [isPlain, Bool.or_eq_true, List.contains_iff_mem, spelled, Unreserved]

theorem hexDigit_mem {n : Nat} (small : n < 16) :
    hexDigit n ∈ digits ∧ Paint.hexValue? (hexDigit n) = some n := by
  have all : ∀ n : Fin 16, hexDigit n ∈ digits ∧ Paint.hexValue? (hexDigit n) = some n.val := by
    decide +kernel
  exact all ⟨n, small⟩

/-- A byte is encoded with the digits of its two halves. -/
theorem halves_lt (byte : UInt8) : byte.toNat / 16 < 16 ∧ byte.toNat % 16 < 16 := by
  have bound := byte.toNat_lt
  omega

/-! ## Decoding -/

theorem decode_encodeByte_append (byte : UInt8) (rest : List Char) :
    decode (encodeByte byte ++ rest) = byte :: decode rest := by
  rw [encodeByte, List.cons_append, List.cons_append, List.cons_append, List.nil_append, decode,
    (hexDigit_mem (halves_lt byte).1).2, (hexDigit_mem (halves_lt byte).2).2]
  dsimp only
  rw [Nat.div_add_mod, UInt8.ofNat_toNat]

theorem decode_encodeBytes_append (bytes : List UInt8) (rest : List Char) :
    decode (bytes.flatMap encodeByte ++ rest) = bytes ++ decode rest := by
  induction bytes with
  | nil => rfl
  | cons byte bytes ih =>
      rw [List.flatMap_cons, List.append_assoc, decode_encodeByte_append, ih, List.cons_append]

theorem decode_cons_of_isPlain {c : Char} (plain : isPlain c = true) (rest : List Char) :
    decode (c :: rest) = String.utf8EncodeChar c ++ decode rest := by
  have notPercent : c ≠ '%' := by
    rintro rfl
    cases plain
  rw [decode]
  intro _ _ _ isPercent
  exact absurd isPercent notPercent

/-- Decoding a payload gives the bytes of the text. -/
theorem decode_encode (text : List Char) :
    decode (encode text) = text.flatMap String.utf8EncodeChar := by
  induction text with
  | nil => rfl
  | cons c rest ih =>
      rw [encode, List.flatMap_cons, List.flatMap_cons, ← ih, ← encode, encodeChar]
      split
      · next plain => exact decode_cons_of_isPlain plain (encode rest)
      · exact decode_encodeBytes_append _ _

theorem toByteArray_decode_encode (markup : String) :
    (decode (encode markup.toList)).toByteArray = markup.toUTF8 := by
  rw [decode_encode, String.toUTF8_eq_toByteArray]
  conv => rhs; rw [← String.ofList_toList (s := markup), String.toByteArray_ofList]
  rfl

/-! ## Characters of payloads -/

theorem isPayload_encodeBytes_append {rest : List Char} (payload : IsPayload rest)
    (bytes : List UInt8) : IsPayload (bytes.flatMap encodeByte ++ rest) := by
  induction bytes with
  | nil => exact payload
  | cons byte bytes ih =>
      exact .encoded (hexDigit_mem (halves_lt byte).1).1 (hexDigit_mem (halves_lt byte).2).1 ih

theorem isPayload_encode (text : List Char) : IsPayload (encode text) := by
  induction text with
  | nil => exact .nil
  | cons c rest ih =>
      rw [encode, List.flatMap_cons, ← encode, encodeChar]
      split
      · next plain => exact .plain (isPlain_iff.mp plain) ih
      · exact isPayload_encodeBytes_append ih _

/-- There is nothing but plain characters and percent signs in a payload. -/
theorem IsPayload.forall_mem {text : List Char} (payload : IsPayload text) :
    ∀ c ∈ text, isPlain c = true ∨ c = '%' := by
  have plainDigits : ∀ digit ∈ digits, isPlain digit = true :=
    List.all_eq_true.mp (by decide +kernel)
  induction payload with
  | nil => exact List.forall_mem_nil _
  | plain plain _ ih => exact List.forall_mem_cons.mpr ⟨.inl (isPlain_iff.mpr plain), ih⟩
  | encoded high low _ ih =>
      simp only [List.forall_mem_cons]
      exact ⟨.inr trivial, .inl (plainDigits _ high), .inl (plainDigits _ low), ih⟩

/-- Whatever is not plain is no part of a payload, the percent sign apart. -/
theorem IsPayload.not_mem {text : List Char} (payload : IsPayload text) {c : Char}
    (notPlain : isPlain c = false) (notPercent : c ≠ '%') : c ∉ text := by
  intro member
  rcases payload.forall_mem c member with plain | percent
  · cases plain.symm.trans notPlain
  · exact notPercent percent

/-- Each of the seven characters that can end a line is written out. -/
theorem mem_of_endsLine {c : Char} (ends : Text.endsLine c = true) :
    c ∈ ['\r', '\n', '\x0b', '\x0c', '\x85', '\u2028', '\u2029'] := by
  simp only [Text.endsLine, Bool.or_eq_true, Bool.and_eq_true, decide_eq_true_eq,
    beq_iff_eq] at ends
  rcases ends with (((rfl | between) | rfl) | rfl) | rfl
  · decide
  · have same := Char.ofNat_toNat c
    obtain code | code | code : c.toNat = 10 ∨ c.toNat = 11 ∨ c.toNat = 12 := by omega
    all_goals
      rw [code] at same
      rw [← same]
      decide
  · decide
  · decide
  · decide

/-- No line ends within a payload. -/
theorem IsPayload.not_endsLine {text : List Char} (payload : IsPayload text) :
    ∀ c ∈ text, Text.endsLine c = false := by
  have strange : ∀ c ∈ ['\r', '\n', '\x0b', '\x0c', '\x85', '\u2028', '\u2029'],
      (!isPlain c && c != '%') = true := List.all_eq_true.mp (by decide +kernel)
  intro c member
  by_contra ends
  have isStrange := strange c (mem_of_endsLine (by simpa using ends))
  rw [Bool.and_eq_true, Bool.not_eq_true', bne_iff_ne] at isStrange
  exact payload.not_mem isStrange.1 isStrange.2 member

/-! ## What stands around a payload -/

/-- The name that data URIs call. -/
def callee : List Char := ['u', 'r', 'l']

/-- What stands before a payload inside of the quotes. -/
def scheme : String := "data:image/svg+xml;charset=utf-8,"

/-- What is quoted in a data URI. -/
def quoted (markup : String) : List Char := scheme.toList ++ encode markup.toList

theorem opening_eq : opening = String.ofList (callee ++ ['(', '"']) ++ scheme := by decide +kernel

theorem closing_eq : closing = String.ofList ['"', ')'] := by decide +kernel

theorem toList_ofMarkup (markup : String) :
    (ofMarkup markup).toList = callee ++ '(' :: '"' :: (quoted markup ++ ['"', ')']) := by
  simp [ofMarkup, opening_eq, closing_eq, quoted]

theorem scheme_ne_nil : scheme.toList ≠ [] := by decide +kernel

theorem quote_not_mem_scheme : '"' ∉ scheme.toList := by decide +kernel

/-- There are no quotes in a payload, so none of them ends the string around it. -/
theorem quote_not_mem_quoted (markup : String) : '"' ∉ quoted markup := by
  rw [quoted, List.mem_append, not_or]
  exact ⟨quote_not_mem_scheme, (isPayload_encode _).not_mem rfl (by decide)⟩

end DataUri

namespace Declaration

open Text

/-! ## Data URIs as lexemes -/

/-- The lexemes of a data URI behind some blanks. -/
def link (gap : List Char) (markup : String) : List Lexeme :=
  [⟨⟨gap, DataUri.callee⟩, .name DataUri.callee⟩, ⟨⟨[], ['(']⟩, .opening⟩,
    ⟨⟨[], '"' :: (DataUri.quoted markup ++ ['"'])⟩, .quoted (DataUri.quoted markup)⟩,
    ⟨⟨[], [')']⟩, .closing⟩]

theorem text_link (gap : List Char) (markup : String) :
    Lexeme.text (link gap markup) = gap ++ (DataUri.ofMarkup markup).toList := by
  rw [DataUri.toList_ofMarkup]
  simp [link, Lexeme.text, Place.written]

/-- The lexemes of a data URI do not run into each other. -/
theorem apart_link {gap : List Char} (blank : ∀ c ∈ gap, isBlank c = true) (markup : String) :
    Apart (link gap markup) := by
  have continues : ∀ next ∈ ['r', 'l'], continuesName next = true := by
    simp only [List.forall_mem_cons]
    exact ⟨rfl, rfl, nofun⟩
  have callee : Stands (.name DataUri.callee) DataUri.callee := .name rfl continues
  have nonempty : DataUri.quoted markup ≠ [] := by
    intro isEmpty
    exact DataUri.scheme_ne_nil (List.append_eq_nil_iff.mp isEmpty).1
  have string : Stands (.quoted (DataUri.quoted markup))
      ('"' :: (DataUri.quoted markup ++ ['"'])) :=
    .quoted rfl nonempty (DataUri.quote_not_mem_quoted markup)
  have unspaced : ∀ c ∈ [], isBlank c = true := List.forall_mem_nil _
  apply Apart.of_head
  · simp only [List.forall_mem_cons]
    exact ⟨⟨blank, callee⟩, ⟨unspaced, .opening⟩, ⟨unspaced, string⟩, ⟨unspaced, .closing⟩,
      List.forall_mem_nil _⟩
  · simp only [List.forall_mem_cons]
    exact ⟨rfl, rfl, rfl, List.forall_mem_nil _⟩
  · intro second isSecond
    cases Option.mem_some.mp isSecond
    exact stops_blanks_append unspaced rfl _ _

end Declaration

namespace DataUri

open Declaration

/-! ## What data URIs carry -/

/-- The tokens of a data URI are those of one call of `url`. -/
theorem map_token_tokens_ofMarkup (markup : String) :
    (tokens (ofMarkup markup).toList).map PlacedToken.token =
      [.name callee, .opening, .quoted (quoted markup), .closing] := by
  have unspaced : ∀ c ∈ [], isBlank c = true := List.forall_mem_nil _
  have found := tokensFrom_text (apart_link unspaced markup) unspaced 0
  rw [text_link, List.nil_append, List.append_nil] at found
  rw [tokens, found, Lexeme.map_token_placed]
  rfl

/-- A text can be told from its payload. -/
theorem encode_injective : Function.Injective fun markup : String => encode markup.toList := by
  intro first second same
  have bytes := congrArg (fun payload => (decode payload).toByteArray) same
  dsimp only at bytes
  rw [toByteArray_decode_encode, toByteArray_decode_encode] at bytes
  exact String.toByteArray_inj.mp bytes

/-- The data URI of a text carries a payload: what stands in it between the fixed text in front
and the quote and parenthesis at the end. -/
structure Carries (markup : String) (payload : List Char) : Prop where
  between : (ofMarkup markup).toList = opening.toList ++ payload ++ closing.toList
  bytes : (decode payload).toByteArray = markup.toUTF8
  isPayload : IsPayload payload
  harmless : ∀ c ∈ payload, c ≠ '"' ∧ c ≠ '\\' ∧ Text.endsLine c = false
  tokens : (tokens (ofMarkup markup).toList).map PlacedToken.token =
    [.name "url".toList, .opening, .quoted (scheme.toList ++ payload), .closing]

/-- A data URI carries all of its text and nothing that a style sheet could mistake for its
own, so that no two texts have the same one. -/
theorem ofMarkup_carries :
    Function.Injective ofMarkup ∧ ∀ markup, ∃ payload, Carries markup payload := by
  have between (markup : String) : (ofMarkup markup).toList =
      opening.toList ++ encode markup.toList ++ closing.toList := String.toList_ofList
  constructor
  · intro first second same
    have texts := congrArg String.toList same
    rw [between, between] at texts
    exact encode_injective (List.append_cancel_left (List.append_cancel_right texts))
  · intro markup
    have isPayload := isPayload_encode markup.toList
    refine ⟨encode markup.toList, between markup, toByteArray_decode_encode markup, isPayload,
      ?_, ?_⟩
    · intro c member
      refine ⟨?_, ?_, isPayload.not_endsLine c member⟩
      · rintro rfl
        exact isPayload.not_mem rfl (by decide) member
      · rintro rfl
        exact isPayload.not_mem rfl (by decide) member
    · have name : "url".toList = callee := by decide +kernel
      rw [map_token_tokens_ofMarkup, name]
      rfl

end DataUri

end ThemedSvg

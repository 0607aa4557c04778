/-
# Where faults stand

A fault of a tag is placed at the bracket that opens the tag. Bytes are counted from behind a
byte order mark, so with one all places of malformations are too low. Without one they are
between two characters.
-/

import Mathlib.Data.List.Infix
import ThemedSvg.Proofs.Spans
import ThemedSvg.Proofs.WrongTags

namespace ThemedSvg

namespace Text

theorem utf8Encode_eq (text : List Char) :
    text.utf8Encode = (text.flatMap String.utf8EncodeChar).toByteArray := rfl

theorem length_flatMap_utf8EncodeChar (text : List Char) :
    (text.flatMap String.utf8EncodeChar).length = byteLength text := by
  induction text with
  | nil => rfl
  | cons c rest ih =>
      rw [List.flatMap_cons, List.length_append, ih, String.length_utf8EncodeChar, byteLength]

theorem toList_data_toUTF8 (text : String) :
    text.toUTF8.data.toList = text.toList.flatMap String.utf8EncodeChar := by
  rw [String.toUTF8_eq_toByteArray]
  conv => lhs; rw [← String.ofList_toList (s := text), String.toByteArray_ofList, utf8Encode_eq]
  simp

/-- The size of a text is its length in bytes. -/
theorem utf8ByteSize_eq (text : String) : text.utf8ByteSize = byteLength text.toList := by
  rw [← length_flatMap_utf8EncodeChar, ← toList_data_toUTF8]
  rfl

/-- The boundaries of a text can be listed. -/
theorem isBoundary_iff {text : List Char} {position : Nat} :
    IsBoundary text position ↔ position ∈ text.inits.map byteLength := by
  rw [List.mem_map]
  constructor
  · rintro ⟨before, after, rfl, rfl⟩
    exact ⟨before, (List.mem_inits _ _).mpr (List.prefix_append _ _), rfl⟩
  · rintro ⟨before, starts, rfl⟩
    obtain ⟨after, rfl⟩ := (List.mem_inits _ _).mp starts
    exact ⟨before, after, rfl, rfl⟩

end Text

namespace Markup

/-! ## Positions -/

/-- Markup that starts with a byte order mark. -/
def HasMark (markup : String) : Prop := markup.toList.head? = some '\uFEFF'

theorem withoutMark_of_not_hasMark {text : List Char} (unmarked : text.head? ≠ some '\uFEFF') :
    withoutMark text = text := by
  cases text with
  | nil => rfl
  | cons c rest =>
      have notMark : c ≠ '\uFEFF' := fun same => unmarked (congrArg some same)
      simp [withoutMark, notMark]

/-- A position is that of the bracket that stands behind some of the markup. -/
structure IsBracketBehind (markup : String) (front : List Char) (position : Nat) : Prop where
  inside : position < markup.utf8ByteSize
  bracket : markup.toUTF8.data[position]? = some '<'.toUInt8
  behind : position = Text.byteLength front

theorem isBracketBehind_of_eq {markup : String} {front text : List Char}
    (whole : markup.toList = front ++ '<' :: text) :
    IsBracketBehind markup front (Text.byteLength front) where
  inside := by
    rw [Text.utf8ByteSize_eq, whole, Text.byteLength_append, Text.byteLength]
    have := '<'.utf8Size_pos
    omega
  bracket := by
    rw [← Array.getElem?_toList, Text.toList_data_toUTF8, whole, List.flatMap_append,
      ← Text.length_flatMap_utf8EncodeChar, List.getElem?_append_right (Nat.le_refl _),
      Nat.sub_self]
    rfl
  behind := rfl

/-- Without a mark, bytes are counted from the start. -/
theorem byteLength_withoutMark {markup : String} {front rest : List Char}
    (whole : markup.toList = front ++ rest) (unmarked : ¬ HasMark markup) :
    Text.byteLength (withoutMark front) = Text.byteLength front := by
  rw [withoutMark_of_not_hasMark]
  intro starts
  rw [HasMark, whole, List.head?_append, starts] at unmarked
  exact unmarked rfl

theorem byteLength_withoutMark_le (text : List Char) :
    Text.byteLength (withoutMark text) ≤ Text.byteLength text := by
  unfold withoutMark
  split
  · exact Nat.le_add_left _ _
  · exact Nat.le_refl _

theorem byteLength_withoutMark_lt {markup : String} {front text : List Char}
    (whole : markup.toList = front ++ '<' :: text) (hasMark : HasMark markup) :
    Text.byteLength (withoutMark front) < Text.byteLength front := by
  rw [HasMark, whole] at hasMark
  cases front with
  | nil => cases hasMark
  | cons c more =>
      cases hasMark
      have := '\uFEFF'.utf8Size_pos
      rw [withoutMark, Text.byteLength]
      omega

theorem position_of_unclosed {markup tag : String} {position : Nat}
    (unclosed : parse markup = .error (.unclosed tag position)) :
    position = markup.utf8ByteSize := by
  rw [parse_eq_takeIn] at unclosed
  rcases bind_eq_error.mp unclosed with fails | ⟨progress, _, fails⟩
  · obtain ⟨_, _, _, _, same, _⟩ := exists_fails_of_takeIn fails
    cases same
  · rw [Progress.finish] at fails
    split at fails <;> cases fails
    rfl

/-- A fault is placed behind some of the markup, or before that if there is a mark. -/
theorem exists_front_of_place {markup : String} {fault : ParseFault} {position : Nat}
    (fails : parse markup = .error fault) (isPlace : position ∈ fault.position?) :
    ∃ front rest, markup.toList = front ++ rest ∧ position ≤ Text.byteLength front ∧
      (¬ HasMark markup → position = Text.byteLength front) := by
  cases fault with
  | malformed place cause =>
      cases isPlace
      obtain ⟨front, last, whole, _, _, _, fails⟩ := exists_front_of_malformed fails
      obtain ⟨piece, rest, text, rfl⟩ := exists_piece_of_fails fails
      refine ⟨front ++ piece, rest, ?_, ?_, fun unmarked => ?_⟩
      · rw [whole, text, List.append_assoc]
      · rw [Text.byteLength_append]
        exact Nat.add_le_add_right (byteLength_withoutMark_le front) _
      · rw [byteLength_withoutMark whole unmarked, Text.byteLength_append]
  | noRoot => cases isPlace
  | unclosed tag place =>
      cases isPlace
      have same := (position_of_unclosed fails).trans (Text.utf8ByteSize_eq markup)
      exact ⟨markup.toList, [], (List.append_nil _).symm, Nat.le_of_eq same, fun _ => same⟩

/-- No fault is placed beyond the markup. -/
theorem position_le_of_parse {markup : String} {fault : ParseFault} {position : Nat}
    (fails : parse markup = .error fault) (isPlace : position ∈ fault.position?) :
    position ≤ markup.utf8ByteSize := by
  obtain ⟨front, rest, whole, bound, _⟩ := exists_front_of_place fails isPlace
  rw [Text.utf8ByteSize_eq, whole, Text.byteLength_append]
  omega

theorem openElement_of_tagName {content : List Char} (bare : tagName content = content)
    (position : Nat) :
    Progress.openElement position content = .ok ⟨String.ofList content, [], []⟩ := by
  rw [Progress.openElement, attributes, bare, List.drop_length, attributesFrom]
  rfl

/-- A second root is found at its bracket, counted without a byte order mark. -/
theorem parse_secondRoot {markup : String} {first second rest name other : List Char}
    {start stop : Nat} (text : withoutMark markup.toList = '<' :: first)
    (taken : takeMarkup 0 first = .ok (.empty name, start, '<' :: second))
    (bare : tagName name = name)
    (taken' : takeMarkup start second = .ok (.empty other, stop, rest))
    (bare' : tagName other = other) :
    parse markup = .error (.malformed start .secondRoot) := by
  have isRoot : Progress.start.step ⟨0, .empty name⟩ =
      .ok ⟨[], some ⟨String.ofList name, [], []⟩⟩ := by
    simp only [Progress.step, openElement_of_tagName bare]
    rfl
  have isSecond : Progress.step ⟨[], some ⟨String.ofList name, [], []⟩⟩ ⟨start, .empty other⟩ =
      .error (.malformed start .secondRoot) := by
    simp only [Progress.step, openElement_of_tagName bare']
    rfl
  rw [parse_eq_takeIn, events, text, eventsFrom_of_takeMarkup taken rfl,
    eventsFrom_of_takeMarkup taken' rfl, Progress.takeIn_cons, isRoot, ok_bind,
    Progress.takeIn_cons, isSecond]
  rfl

/-- A fault of a tag is placed at the bracket of the one tag where the markup goes wrong,
unless there is a byte order mark, which is not counted. No fault is placed beyond the markup,
and without a mark all stand between two characters or at an end. -/
theorem parse_points_at_tag {markup : String} {fault : ParseFault}
    (fails : parse markup = .error fault) :
    (∀ position cause, fault = .malformed position cause → cause.IsOfTag →
      ∃ front, GoesWrong markup front cause ∧
        (∀ other cause', GoesWrong markup other cause' → other = front) ∧
        (IsBracketBehind markup front position ↔ ¬ HasMark markup)) ∧
    ∀ position ∈ fault.position?, position ≤ markup.utf8ByteSize ∧
      (¬ HasMark markup → Text.IsBoundary markup.toList position) := by
  constructor
  · rintro position cause rfl ofTag
    obtain ⟨front, wrong, isPlace⟩ := exists_goesWrong fails ofTag
    refine ⟨front, wrong, fun other cause' wrong' => wrong'.front_unique wrong, ?_⟩
    obtain ⟨_, _, text, _, _, whole, _⟩ := wrong.tag
    constructor
    · intro points hasMark
      have := byteLength_withoutMark_lt whole hasMark
      have := points.behind
      omega
    · intro unmarked
      rw [isPlace, byteLength_withoutMark whole unmarked]
      exact isBracketBehind_of_eq whole
  · intro position isPlace
    refine ⟨position_le_of_parse fails isPlace, fun unmarked => ?_⟩
    obtain ⟨front, rest, whole, _, same⟩ := exists_front_of_place fails isPlace
    exact ⟨front, rest, whole, (same unmarked).symm⟩

/-- Without a mark, the second root is found at the second bracket. -/
theorem points_at_second_root :
    ¬ HasMark "<é/><a/>" ∧ ∃ fault, parse "<é/><a/>" = .error fault ∧
      ∃ front, GoesWrong "<é/><a/>" front .secondRoot ∧ IsBracketBehind "<é/><a/>" front 5 ∧
        Text.IsBoundary "<é/><a/>".toList 5 := by
  have unmarked : ¬ HasMark "<é/><a/>" := by
    rw [HasMark]
    decide
  have fails : parse "<é/><a/>" = .error (.malformed 5 .secondRoot) :=
    parse_secondRoot rfl rfl (by decide) rfl (by decide)
  obtain ⟨tags, places⟩ := parse_points_at_tag fails
  obtain ⟨front, wrong, _, points⟩ := tags 5 _ rfl ⟨⟩
  exact ⟨unmarked, _, fails, front, wrong, points.mpr unmarked, (places 5 rfl).2 unmarked⟩

/-- With one, it is found inside a character of the first. -/
theorem points_inside_character :
    parse "\uFEFF<é/><a/>" = .error (.malformed 5 .secondRoot) ∧
      "\uFEFF<é/><a/>".toUTF8.data[5]? ≠ some '<'.toUInt8 ∧
      ¬ Text.IsBoundary "\uFEFF<é/><a/>".toList 5 := by
  refine ⟨parse_secondRoot rfl rfl (by decide) rfl (by decide), by decide, ?_⟩
  rw [Text.isBoundary_iff]
  decide

end Markup

end ThemedSvg

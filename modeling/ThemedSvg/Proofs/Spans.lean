/-
# Spans of tokens and calls

A declaration value is cut at byte positions which the scanner counts. The spans of its
tokens lie one behind the other, each from the end of one character to the end of another,
and so do the spans of the calls that are made of them. Whatever is cut out of a value
between such positions is a part of it.
-/

import Mathlib.Data.List.Basic
import ThemedSvg.Declaration.Invocation

namespace ThemedSvg

namespace Text

/-- A byte position at one end of a text or between two of its characters. -/
def IsBoundary (text : List Char) (position : Nat) : Prop :=
  ∃ before after, text = before ++ after ∧ byteLength before = position

/-- The bytes from `start` to `stop` are all there, and no character is cut in two. -/
def IsSlice (text : List Char) (start stop : Nat) : Prop :=
  start ≤ stop ∧ IsBoundary text start ∧ IsBoundary text stop

theorem isSlice_append (before inside after : List Char) :
    IsSlice (before ++ inside ++ after) (byteLength before)
      (byteLength before + byteLength inside) := by
  refine ⟨Nat.le_add_right _ _, ⟨before, inside ++ after, ?_, rfl⟩,
    ⟨before ++ inside, after, rfl, ?_⟩⟩
  · rw [List.append_assoc]
  · rw [byteLength_append]

theorem sliceBytes_append (before inside after : List Char) :
    sliceBytes (byteLength before) (byteLength before + byteLength inside)
      (before ++ inside ++ after) = inside := by
  rw [sliceBytes, List.append_assoc, dropBytes_byteLength_append, Nat.add_sub_cancel_left,
    takeBytes_byteLength_append]

/-- Something that stands in a text: the characters it takes, and the ones in front of it,
back to what stands there before it. -/
structure Place where
  gap : List Char
  inside : List Char
  deriving DecidableEq, Repr

namespace Place

def written (place : Place) : List Char := place.gap ++ place.inside

/-- The bytes that places take, one behind the other from byte `offset` on. -/
def spansFrom (offset : Nat) : List Place → List (Nat × Nat)
  | [] => []
  | place :: rest =>
      let start := offset + byteLength place.gap
      let stop := start + byteLength place.inside
      (start, stop) :: spansFrom stop rest

end Place

/-- Spans that lie one behind the other in a text which starts at byte `offset`. -/
def Lie : Nat → List Char → List (Nat × Nat) → Prop
  | _, _, [] => True
  | offset, text, span :: spans =>
      ∃ gap inside rest, text = gap ++ inside ++ rest ∧
        span = (offset + byteLength gap, offset + byteLength gap + byteLength inside) ∧
        Lie span.2 rest spans

namespace Lie

variable {offset : Nat} {text : List Char} {first second : Nat × Nat} {spans : List (Nat × Nat)}

/-- More text in front makes the first gap wider. -/
theorem behind (before : List Char) (lie : Lie (offset + byteLength before) text spans) :
    Lie offset (before ++ text) spans := by
  cases spans with
  | nil => exact trivial
  | cons span spans =>
      obtain ⟨gap, inside, rest, rfl, rfl, lie⟩ := lie
      refine ⟨before ++ gap, inside, rest, ?_, ?_, lie⟩
      · simp only [List.append_assoc]
      · rw [byteLength_append, Nat.add_assoc offset]

/-- The first span may be passed over. -/
theorem tail (lie : Lie offset text (first :: spans)) : Lie offset text spans := by
  obtain ⟨gap, inside, rest, rfl, rfl, lie⟩ := lie
  apply Lie.behind
  rwa [byteLength_append, ← Nat.add_assoc]

/-- Two neighbours are one span together, with what is between them. -/
theorem join (lie : Lie offset text (first :: second :: spans)) :
    Lie offset text ((first.1, second.2) :: spans) := by
  obtain ⟨gap, inside, rest, rfl, rfl, gap', inside', rest', rfl, rfl, lie⟩ := lie
  refine ⟨gap, inside ++ gap' ++ inside', rest', ?_, ?_, lie⟩
  · simp only [List.append_assoc]
  · simp only [byteLength_append, Nat.add_assoc]

theorem le_start (lie : Lie offset text spans) : ∀ span ∈ spans, offset ≤ span.1 := by
  induction spans generalizing offset text with
  | nil => exact List.forall_mem_nil _
  | cons span spans ih =>
      obtain ⟨gap, inside, rest, rfl, rfl, lie⟩ := lie
      refine List.forall_mem_cons.mpr ⟨Nat.le_add_right _ _, ?_⟩
      intro later member
      have behind := ih lie later member
      dsimp only at behind
      omega

/-- No two spans overlap, and they are in the order of the text. -/
theorem pairwise (lie : Lie offset text spans) :
    spans.Pairwise fun first second => first.2 ≤ second.1 := by
  induction spans generalizing offset text with
  | nil => exact .nil
  | cons span spans ih =>
      obtain ⟨gap, inside, rest, rfl, isSpan, lie⟩ := lie
      exact List.pairwise_cons.mpr ⟨lie.le_start, ih lie⟩

/-- Spans that lie in a text are those of places in it. -/
theorem exists_places (lie : Lie offset text spans) :
    ∃ (places : List Place) (behind : List Char),
      text = places.flatMap Place.written ++ behind ∧ spans = Place.spansFrom offset places := by
  induction spans generalizing offset text with
  | nil => exact ⟨[], text, rfl, rfl⟩
  | cons span spans ih =>
      obtain ⟨gap, inside, rest, rfl, rfl, lie⟩ := lie
      obtain ⟨places, behind, rfl, rfl⟩ := ih lie
      refine ⟨⟨gap, inside⟩ :: places, behind, ?_, rfl⟩
      simp only [List.flatMap_cons, Place.written, List.append_assoc]

end Lie

/-- What is cut out of a text of so many bytes when the spans are treated one by one from
byte `offset` on: the text up to each span, the span itself, and all that is behind. -/
def cutsFrom (length : Nat) : Nat → List (Nat × Nat) → List (Nat × Nat)
  | offset, [] => [(offset, length)]
  | offset, span :: spans => (offset, span.1) :: span :: cutsFrom length span.2 spans

/-- Every cut around places in a text is a slice of it. -/
theorem isSlice_of_mem_cutsFrom {places : List Place} (before : List Char)
    {behind text : List Char}
    (written : text = before ++ places.flatMap Place.written ++ behind) {cut : Nat × Nat}
    (member : cut ∈ cutsFrom (byteLength text) (byteLength before)
      (Place.spansFrom (byteLength before) places)) :
    IsSlice text cut.1 cut.2 := by
  induction places generalizing before with
  | nil =>
      rw [List.flatMap_nil, List.append_nil] at written
      rw [Place.spansFrom, cutsFrom, List.mem_singleton] at member
      subst member written
      have slice := isSlice_append before behind []
      rwa [List.append_nil, ← byteLength_append] at slice
  | cons place rest ih =>
      rw [List.flatMap_cons, Place.written] at written
      rw [Place.spansFrom, cutsFrom, List.mem_cons, List.mem_cons] at member
      rcases member with rfl | rfl | member
      · have slice := isSlice_append before place.gap
          (place.inside ++ rest.flatMap Place.written ++ behind)
        simpa only [written, List.append_assoc] using slice
      · have slice := isSlice_append (before ++ place.gap) place.inside
          (rest.flatMap Place.written ++ behind)
        simpa only [written, byteLength_append, List.append_assoc] using slice
      · apply ih (before ++ place.gap ++ place.inside)
        · simpa only [List.append_assoc] using written
        · simpa only [byteLength_append, Nat.add_assoc] using member

end Text

namespace Declaration

open Text

def PlacedToken.span (token : PlacedToken) : Nat × Nat := (token.start, token.stop)

/-- A token and the rest behind it are the text that it was taken from. -/
theorem take_append (c : Char) (rest : List Char) :
    (take c rest).2.1 ++ (take c rest).2.2 = rest := by
  unfold take
  dsimp only
  split
  · exact List.takeWhile_append_dropWhile
  · split
    · split
      · rfl
      · split
        · exact List.append_nil rest
        · next closing after dropped =>
            have closes : closing = c := by
              have head := List.head?_dropWhile_not (· != c) rest
              rw [dropped] at head
              simpa using head
            calc List.takeWhile (· != c) rest ++ [c] ++ after
              _ = List.takeWhile (· != c) rest ++ closing :: after := by
                  rw [closes, List.append_assoc, List.singleton_append]
              _ = rest := by rw [← dropped, List.takeWhile_append_dropWhile]
    · repeat' split
      all_goals rfl

theorem utf8Size_of_isBlank {c : Char} (blank : isBlank c = true) : c.utf8Size = 1 := by
  simp only [isBlank, Bool.or_eq_true, beq_iff_eq] at blank
  rcases blank with (((rfl | rfl) | rfl) | rfl) | rfl <;> rfl

/-- The tokens of a text lie in it one behind the other. -/
theorem lie_tokensFrom (offset : Nat) (text : List Char) :
    Lie offset text ((tokensFrom offset text).map PlacedToken.span) := by
  induction offset, text using tokensFrom.induct with
  | case1 offset =>
      rw [tokensFrom]
      exact trivial
  | case2 offset c rest blank ih =>
      rw [tokensFrom, if_pos blank]
      apply Lie.behind [c]
      rwa [byteLength, byteLength, utf8Size_of_isBlank blank]
  | case3 offset c rest notBlank taken stop ih =>
      rw [tokensFrom, if_neg notBlank, List.map_cons]
      refine ⟨[], c :: taken.2.1, taken.2.2, ?_, ?_, ih⟩
      · rw [List.nil_append, List.cons_append, take_append]
      · simp only [PlacedToken.span, byteLength, Nat.add_zero, Nat.add_assoc, taken]

end Declaration

namespace Invocation

open Declaration Text

def span (call : Invocation) : Nat × Nat := (call.start, call.stop)

/-- A call spans its tokens, from the first to the last. -/
theorem lie_take? {func : List Char} {tokens rest : List PlacedToken} {call : Invocation}
    {offset : Nat} {text : List Char} (taken : take? func tokens = some (call, rest))
    (lie : Lie offset text (tokens.map PlacedToken.span)) :
    Lie offset text (call.span :: rest.map PlacedToken.span) := by
  unfold take? at taken
  split at taken
  · split at taken
    · cases taken
    · split at taken
      · cases taken
        exact lie.join.join.join
      · cases taken
        exact lie.join.join.join.join.join
      · cases taken
  · cases taken

theorem findIn_of_some {func : List Char} {tokens after : List PlacedToken} {call : Invocation}
    (taken : take? func tokens = some (call, after)) :
    findIn func tokens = call :: findIn func after := by
  cases tokens with
  | nil => cases taken
  | cons token rest =>
      rw [findIn]
      split
      · next taken' => cases taken.symm.trans taken'; rfl
      · next absent => cases taken.symm.trans absent

theorem findIn_of_none {func : List Char} {token : PlacedToken} {tokens : List PlacedToken}
    (absent : take? func (token :: tokens) = none) :
    findIn func (token :: tokens) = findIn func tokens := by
  rw [findIn]
  split
  · next taken => cases absent.symm.trans taken
  · rfl

/-- The calls among tokens lie where these do. -/
theorem lie_findIn {func : List Char} {tokens : List PlacedToken} {offset : Nat}
    {text : List Char} (lie : Lie offset text (tokens.map PlacedToken.span)) :
    Lie offset text ((findIn func tokens).map span) := by
  induction tokens using findIn.induct func generalizing offset text with
  | case1 =>
      rw [findIn]
      exact trivial
  | case2 token tokens call rest taken ih =>
      obtain ⟨gap, inside, behind, rfl, spans, lie⟩ := lie_take? taken lie
      rw [findIn_of_some taken, List.map_cons]
      exact ⟨gap, inside, behind, rfl, spans, ih lie⟩
  | case3 token tokens absent ih =>
      rw [findIn_of_none absent]
      exact ih lie.tail

/-- The calls that are found in a value lie in it one behind the other. -/
theorem lie_find (value func : String) : Lie 0 value.toList ((find value func).map span) :=
  lie_findIn (lie_tokensFrom 0 value.toList)

end Invocation

end ThemedSvg

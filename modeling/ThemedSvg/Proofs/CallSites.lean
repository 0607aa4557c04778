/-
# Call sites

The scanner reports a call for every place where the tokens of a value go on like those of
one, and for no other place. That it goes on behind a call when it has found one costs it
nothing: there are no names among the arguments of a call, so no other call begins there. A
call that is cut out of its value is the same call, for what its tokens are depends on their
own text alone.
-/

import Mathlib.Data.List.Forall2
import ThemedSvg.Proofs.Phrases

namespace ThemedSvg.Invocation

open Declaration Text

variable {func : List Char} {tokens front later called : List PlacedToken} {index : Nat}
  {call other : Invocation}

/-- A call stands at an index among tokens: they go on from there with the tokens of it. -/
def StandsAt (func : List Char) (tokens : List PlacedToken) (index : Nat) (call : Invocation) :
    Prop :=
  ∃ called, called <+: tokens.drop index ∧ Spells func called call

/-! ## Places of calls -/

theorem Spells.length_eq (spells : Spells func called call) :
    called.length = (argumentTokens call.name call.params).length + 1 := by
  simpa [callTokens] using congrArg List.length spells.tokens

theorem standsAt_zero_iff :
    StandsAt func tokens 0 call ↔ ∃ after, take? func tokens = some (call, after) := by
  constructor
  · rintro ⟨called, ⟨after, split⟩, spells⟩
    exact ⟨after, take?_eq_some_iff.mpr ⟨called, split.symm, spells⟩⟩
  · rintro ⟨after, taken⟩
    obtain ⟨called, split, spells⟩ := take?_eq_some_iff.mp taken
    exact ⟨called, ⟨after, split.symm⟩, spells⟩

/-- Tokens in front only move the places of calls. -/
theorem standsAt_append_iff :
    StandsAt func (front ++ later) (front.length + index) call ↔
      StandsAt func later index call := by
  rw [StandsAt, StandsAt, List.drop_length_add_append]

theorem not_standsAt_nil : ¬ StandsAt func [] index call := by
  rintro ⟨called, isPrefix, spells⟩
  rw [List.drop_nil, List.prefix_nil] at isPrefix
  have isCall := spells.tokens
  rw [isPrefix] at isCall
  cases isCall

/-- No call begins inside of another one. -/
theorem StandsAt.eq_zero (stands : StandsAt func (called ++ later) index other)
    (spells : Spells func called call) (inside : index < called.length) : index = 0 := by
  by_contra notFirst
  obtain ⟨place, rfl⟩ := Nat.exists_eq_succ_of_ne_zero notFirst
  obtain ⟨others, ⟨rest, split⟩, isCall, _⟩ := stands
  -- the other call begins with a name, and what stands there is an argument of the first
  have isName : ((called ++ later).map PlacedToken.token)[place + 1]? = some (.name func) := by
    rw [← List.head?_drop, ← List.map_drop, ← split, List.map_append, isCall]
    rfl
  rw [List.map_append, spells.tokens, callTokens, List.cons_append, List.getElem?_cons_succ,
    List.getElem?_append_left] at isName
  · cases not_isName_of_mem_argumentTokens _ (List.mem_of_getElem? isName)
  · have length := spells.length_eq
    omega

/-- The calls that are found are those that stand at some indices, in their order, and no call
stands anywhere else. -/
theorem exists_indices (func : List Char) (tokens : List PlacedToken) :
    ∃ indices : List Nat, indices.Pairwise (· < ·) ∧
      List.Forall₂ (StandsAt func tokens) indices (findIn func tokens) ∧
      ∀ index call, StandsAt func tokens index call → index ∈ indices := by
  induction tokens using findIn.induct func with
  | case1 =>
      rw [findIn]
      exact ⟨[], .nil, .nil, fun _ _ stands => absurd stands not_standsAt_nil⟩
  | case2 token tokens call after taken ih =>
      obtain ⟨indices, ordered, stand, complete⟩ := ih
      obtain ⟨called, split, spells⟩ := take?_eq_some_iff.mp taken
      have length := spells.length_eq
      rw [findIn_of_some taken, split]
      refine ⟨0 :: indices.map (called.length + ·), ?_, ?_, ?_⟩
      · refine List.pairwise_cons.mpr ⟨?_, ?_⟩
        · intro index member
          obtain ⟨place, _, rfl⟩ := List.mem_map.mp member
          omega
        · exact List.pairwise_map.mpr (ordered.imp fun less => by omega)
      · refine .cons ⟨called, List.prefix_append _ _, spells⟩ ?_
        rw [List.forall₂_map_left_iff]
        exact stand.imp fun _ _ => standsAt_append_iff.mpr
      · intro index other stands
        by_cases inside : index < called.length
        · rw [stands.eq_zero spells inside]
          exact List.mem_cons_self
        · obtain ⟨place, rfl⟩ := Nat.exists_eq_add_of_le (Nat.le_of_not_lt inside)
          exact List.mem_cons_of_mem _
            (List.mem_map_of_mem (complete place other (standsAt_append_iff.mp stands)))
  | case3 token tokens absent ih =>
      obtain ⟨indices, ordered, stand, complete⟩ := ih
      have shifts (place : Nat) (other : Invocation) :
          StandsAt func ([token] ++ tokens) (1 + place) other ↔ StandsAt func tokens place other :=
        standsAt_append_iff
      rw [findIn_of_none absent]
      refine ⟨indices.map (1 + ·), ?_, ?_, ?_⟩
      · exact List.pairwise_map.mpr (ordered.imp fun less => by omega)
      · rw [List.forall₂_map_left_iff]
        exact stand.imp fun _ _ => (shifts _ _).mpr
      · intro index other stands
        cases index with
        | zero =>
            obtain ⟨after, taken⟩ := standsAt_zero_iff.mp stands
            cases absent.symm.trans taken
        | succ place =>
            rw [Nat.add_comm] at stands ⊢
            exact List.mem_map_of_mem (complete place other ((shifts _ _).mp stands))

/-! ## Calls by themselves -/

/-- A call at the front of a text is found there, and reading goes on behind it. -/
theorem findIn_call {name : String} {params : Option String} {head : Lexeme}
    {arguments : List Lexeme}
    (isCall : (head :: arguments).map Lexeme.token = callTokens func name params)
    (apart : Apart (head :: arguments)) (offset : Nat) (after : List Char) :
    findIn func (tokensFrom offset (Lexeme.text (head :: arguments) ++ after)) =
      ⟨offset + byteLength head.gap, offset + byteLength (Lexeme.text (head :: arguments)),
          name, params⟩ ::
        findIn func
          (tokensFrom (offset + byteLength (Lexeme.text (head :: arguments))) after) := by
  have stops : ∀ last ∈ (head :: arguments).getLast?, Stops last.token after :=
    fun last isLast => stops_of_not_isName (not_isName_of_mem_getLast? isCall last isLast) after
  rw [tokensFrom_text_append apart stops, findIn_of_some (take?_placed isCall offset _)]

/-- A call is written in a value behind some text and in front of some other. Its span begins
with the name of the function and ends with the parenthesis. -/
structure IsWritten (func value : List Char) (call : Invocation) (before : List Char)
    (head : Lexeme) (arguments : List Lexeme) (after : List Char) : Prop where
  value : value = before ++ Lexeme.text (head :: arguments) ++ after
  apart : Apart (head :: arguments)
  tokens : (head :: arguments).map Lexeme.token = callTokens func call.name call.params
  gap : head.gap = []
  start : call.start = byteLength before
  stop : call.stop = byteLength before + byteLength (Lexeme.text (head :: arguments))

/-- A call that stands among the tokens of a value is written there. -/
theorem StandsAt.exists_isWritten {value : List Char}
    (stands : StandsAt func (Declaration.tokens value) index call) :
    ∃ before head arguments after, IsWritten func value call before head arguments after := by
  obtain ⟨called, ⟨later, split⟩, spells⟩ := stands
  have whole : tokensFrom 0 value =
      (Declaration.tokens value).take index ++ (called ++ later) := by
    rw [split, List.take_append_drop]
    rfl
  obtain ⟨before, rest, rfl, cut⟩ := exists_suffix 0 value _ _ whole
  have proper : ∀ token ∈ called, token.token ≠ .stray := by
    intro token member
    have isPart : token.token ∈ callTokens func call.name call.params := by
      rw [← spells.tokens]
      exact List.mem_map_of_mem member
    exact ne_stray_of_mem_callTokens _ isPart
  obtain ⟨lexemes, after, rfl, apart, rfl⟩ := exists_lexemes_of_append cut proper
  have isCall := spells.tokens
  rw [Lexeme.map_token_placed] at isCall
  cases lexemes with
  | nil => cases isCall
  | cons head arguments =>
      obtain ⟨last, isLast⟩ : ∃ last, last ∈
          (Lexeme.placed (0 + byteLength before) (head :: arguments)).getLast? :=
        ⟨_, List.getLast?_cons⟩
      have stop := Lexeme.stop_getLast?_placed _ _ last isLast
      rw [spells.stop last isLast, Nat.zero_add, Lexeme.byteLength_text_cons] at stop
      have start := spells.start _ rfl
      rw [Nat.zero_add] at start
      -- the blanks in front of the name belong to the text before the call
      refine ⟨before ++ head.gap, { head with gap := [] }, arguments, after, ?_,
        apart.withoutGap, isCall, rfl, ?_, ?_⟩
      · simp only [Lexeme.text_cons, Place.written, List.append_assoc, List.nil_append]
      · rw [byteLength_append]
        exact start.symm
      · simp only [stop, Lexeme.byteLength_text_cons, byteLength_append, byteLength]
        omega

/-- Nothing but a call is scanned in the text of it, and what is scanned is the call. -/
theorem IsWritten.find_inside {value func : String} {before after : List Char} {head : Lexeme}
    {arguments : List Lexeme}
    (isWritten : IsWritten func.toList value.toList call before head arguments after) :
    IsSlice value.toList call.start call.stop ∧ call.start < call.stop ∧
      sliceBytes call.start call.stop value.toList = Lexeme.text (head :: arguments) ∧
      find (String.ofList (Lexeme.text (head :: arguments))) func =
        [⟨0, byteLength (Lexeme.text (head :: arguments)), call.name, call.params⟩] := by
  obtain ⟨split, apart, isCall, gap, start, stop⟩ := isWritten
  refine ⟨?_, ?_, ?_, ?_⟩
  · rw [split, start, stop]
    exact isSlice_append before _ after
  · obtain ⟨c, more, inside, _⟩ := (apart.sound head List.mem_cons_self).stands.exists_cons
    have wide := c.utf8Size_pos
    rw [start, stop, Lexeme.byteLength_text_cons, inside, byteLength]
    omega
  · rw [split, start, stop]
    exact sliceBytes_append before _ after
  · have alone := findIn_call isCall apart 0 []
    rw [List.append_nil, gap, byteLength, Nat.add_zero, Nat.zero_add, tokensFrom, findIn] at alone
    rw [find, String.toList_ofList]
    exact alone

/-! ## Calls of a value -/

/-- What a scanner reports for a value: its calls from the left, one for each place where one
stands. -/
structure Reports (value func : String) (calls : List Invocation) : Prop where
  slices : ∀ call ∈ calls, call.start < call.stop ∧ IsSlice value.toList call.start call.stop
  ordered : calls.Pairwise fun first second => first.stop ≤ second.start
  /-- A call that is cut out of the value is the only one there. -/
  alone : ∀ call ∈ calls,
    let inside := sliceBytes call.start call.stop value.toList
    find (String.ofList inside) func = [⟨0, byteLength inside, call.name, call.params⟩]
  /-- No call is reported that does not stand somewhere, and none that does is missed. -/
  sites : ∃ indices : List Nat, indices.Pairwise (· < ·) ∧
    List.Forall₂ (StandsAt func.toList (Declaration.tokens value.toList)) indices calls ∧
    ∀ index call, StandsAt func.toList (Declaration.tokens value.toList) index call →
      index ∈ indices

/-- The scanner reports exactly the calls that stand in a value, each with the bytes that it
takes there. -/
theorem reports_find (value func : String) : Reports value func (find value func) := by
  obtain ⟨indices, ordered, stand, complete⟩ :=
    exists_indices func.toList (Declaration.tokens value.toList)
  have inside : ∀ call ∈ find value func, ∃ before head arguments after,
      IsWritten func.toList value.toList call before head arguments after := by
    intro call member
    obtain ⟨place, bound, rfl⟩ := List.getElem_of_mem member
    have stands := stand.get (stand.length_eq ▸ bound) bound
    exact stands.exists_isWritten
  exact {
    slices := by
      intro call member
      obtain ⟨_, _, _, _, isWritten⟩ := inside call member
      obtain ⟨slice, nonempty, _⟩ := isWritten.find_inside
      exact ⟨nonempty, slice⟩
    ordered := List.pairwise_map.mp (lie_find value func).pairwise
    alone := by
      intro call member
      obtain ⟨_, _, _, _, isWritten⟩ := inside call member
      obtain ⟨_, _, cut, alone⟩ := isWritten.find_inside
      rw [cut]
      exact alone
    sites := ⟨indices, ordered, stand, complete⟩ }

end ThemedSvg.Invocation

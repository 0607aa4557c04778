/-
# Where markup ends

Comments and character data end at their first terminator, tags at the first
bracket outside quotes. This module says so for the scanner in both directions:
what is written is cut where its writing ends, and what was cut held no earlier
terminator.
-/

import ThemedSvg.Markup.Event
import ThemedSvg.Proofs.Outcomes
import ThemedSvg.Proofs.Tags

namespace ThemedSvg.Markup

/-! ## Comments and character data -/

/-- The cut is at the first bracket that is accepted. -/
theorem cutAt_eq_some_iff {accepts : List Char → Bool} {before text content rest : List Char} :
    cutAt accepts before text = some (content, rest) ↔
      ∃ taken, content = before.reverse ++ taken ∧ text = taken ++ '>' :: rest ∧
        accepts (taken.reverse ++ before) = true ∧
        ∀ earlier later, taken = earlier ++ '>' :: later →
          accepts (earlier.reverse ++ before) = false := by
  induction text generalizing before with
  | nil => simp [cutAt]
  | cons c tail ih =>
      rw [cutAt]
      by_cases stops : c = '>' ∧ accepts before = true
      · obtain ⟨rfl, accepted⟩ := stops
        rw [if_pos (by simp [accepted])]
        constructor
        · intro cut
          cases cut
          exact ⟨[], by simp, by simp, by simpa using accepted, by simp⟩
        · rintro ⟨taken, rfl, split_text, _, first⟩
          cases taken with
          | nil =>
              cases split_text
              simp
          | cons d more =>
              cases split_text
              have := first [] more rfl
              simp [accepted] at this
      · rw [if_neg (by simpa using stops), ih]
        constructor
        · rintro ⟨taken, rfl, rfl, accepted, first⟩
          refine ⟨c :: taken, by simp, by simp, by simpa using accepted, ?_⟩
          intro earlier later split_taken
          cases earlier with
          | nil =>
              cases split_taken
              simpa using stops
          | cons d more =>
              cases split_taken
              simpa using first more later rfl
        · rintro ⟨taken, rfl, split_text, accepted, first⟩
          cases taken with
          | nil =>
              cases split_text
              exact absurd ⟨rfl, by simpa using accepted⟩ stops
          | cons d more =>
              cases split_text
              refine ⟨more, by simp, rfl, by simpa using accepted, ?_⟩
              intro earlier later split_more
              simpa using first (c :: earlier) later (by rw [split_more]; rfl)

/-- A text holds the terminator that two marks and a bracket make. -/
def HoldsTerminator (mark : Char) (text : List Char) : Prop :=
  [mark, mark, '>'] <:+: text

instance (mark : Char) (text : List Char) : Decidable (HoldsTerminator mark text) :=
  inferInstanceAs (Decidable (_ <:+: _))

/-- Behind its opener a kind of markup ends at a bracket after two marks. -/
structure EndsAfterMarks (accepts : List Char → Bool) (opener : List Char) (mark : Char) :
    Prop where
  mark_ne : mark ≠ '>'
  opener_plain : '>' ∉ opener
  accepts_iff : ∀ text : List Char,
    accepts (opener ++ text).reverse = true ↔ [mark, mark] <:+ text

theorem isPrefixOf_reverse_iff {mark : Char} {text : List Char} :
    [mark, mark].isPrefixOf text.reverse = true ↔ [mark, mark] <:+ text := by
  rw [List.isPrefixOf_iff_prefix, ← List.reverse_prefix]
  rfl

theorem comment_endsAfterMarks :
    EndsAfterMarks Bracket.comment.endsAfter ['!', '-', '-'] '-' where
  mark_ne := by decide
  opener_plain := by decide
  accepts_iff text := by
    rw [Bracket.endsAfter, Bool.and_eq_true, isPrefixOf_reverse_iff, decide_eq_true_eq,
      List.length_reverse, List.length_append]
    constructor
    · rintro ⟨ends, long⟩
      apply List.suffix_of_suffix_length_le ends (List.suffix_append _ _)
      simp only [List.length_cons, List.length_nil] at long ⊢
      omega
    · intro ends
      have long := ends.length_le
      simp only [List.length_cons, List.length_nil] at long ⊢
      exact ⟨ends.trans (List.suffix_append _ _), by omega⟩

theorem cdata_endsAfterMarks :
    EndsAfterMarks Bracket.cdata.endsAfter ['!', '[', 'C', 'D', 'A', 'T', 'A', '['] ']' where
  mark_ne := by decide
  opener_plain := by decide
  accepts_iff text := by
    rw [Bracket.endsAfter, isPrefixOf_reverse_iff]
    constructor
    · intro ends
      match text with
      | [] => exact absurd ends (by decide)
      | [c] => simp [List.suffix_cons_iff] at ends
      | c :: d :: rest =>
          exact List.suffix_of_suffix_length_le ends (List.suffix_append _ _) (by simp)
    · intro ends
      exact ends.trans (List.suffix_append _ _)

/-- A bracket behind a text without brackets lies in what follows the text. -/
theorem exists_of_append_eq {plain text earlier later : List Char} (free : '>' ∉ plain)
    (same : plain ++ text = earlier ++ '>' :: later) :
    ∃ between, earlier = plain ++ between ∧ text = between ++ '>' :: later := by
  rcases List.append_eq_append_iff.mp same with ⟨between, split⟩ | ⟨between, rfl, split⟩
  · exact ⟨between, split⟩
  · cases between with
    | nil => exact ⟨[], by simp, split.symm⟩
    | cons c more =>
        cases split
        exact absurd (List.mem_append_right _ List.mem_cons_self) free

variable {accepts : List Char → Bool} {opener : List Char} {mark : Char}

/-- What follows an opener is cut behind its first terminator. -/
theorem cutAt_opener (ends : EndsAfterMarks accepts opener mark) {inner : List Char}
    (clear : ¬ HoldsTerminator mark inner) (rest : List Char) :
    cutAt accepts [] (opener ++ (inner ++ mark :: mark :: '>' :: rest)) =
      some (opener ++ (inner ++ [mark, mark]), rest) := by
  rw [cutAt_eq_some_iff]
  refine ⟨opener ++ (inner ++ [mark, mark]), by simp, by simp, ?_, ?_⟩
  · rw [List.append_nil]
    exact (ends.accepts_iff _).mpr (List.suffix_append _ _)
  · intro earlier later split_taken
    obtain ⟨between, rfl, split_inner⟩ := exists_of_append_eq ends.opener_plain split_taken
    rw [List.append_nil, ← Bool.not_eq_true, ends.accepts_iff]
    rintro ⟨start, rfl⟩
    -- the bracket is not behind `inner`, where only marks stand, so it closes a
    -- terminator inside
    rcases List.append_eq_append_iff.mp split_inner with
      ⟨more, _, behind⟩ | ⟨more, within, behind⟩
    · have : '>' ∈ [mark, mark] := behind ▸ List.mem_append_right _ List.mem_cons_self
      simp [ends.mark_ne.symm] at this
    · cases more with
      | nil =>
          have : '>' = mark := (List.cons.inj behind).1
          exact ends.mark_ne this.symm
      | cons c more =>
          cases behind
          exact clear ⟨start, more, by rw [within]; simp⟩

/-- What was cut behind an opener holds no terminator but the one at its end. -/
theorem exists_inner_of_cutAt (ends : EndsAfterMarks accepts opener mark)
    {text content rest : List Char} (cut : cutAt accepts [] text = some (content, rest))
    (starts : opener <+: content) :
    ∃ inner, content = opener ++ (inner ++ [mark, mark]) ∧
      ¬ HoldsTerminator mark inner := by
  obtain ⟨taken, same, rfl, accepted, first⟩ := cutAt_eq_some_iff.mp cut
  rw [List.reverse_nil, List.nil_append] at same
  subst same
  obtain ⟨behind, rfl⟩ := starts
  rw [List.append_nil, ends.accepts_iff] at accepted
  obtain ⟨inner, rfl⟩ := accepted
  refine ⟨inner, rfl, ?_⟩
  rintro ⟨start, stop, rfl⟩
  have rejected := first (opener ++ (start ++ [mark, mark])) (stop ++ [mark, mark]) (by simp)
  rw [List.append_nil, (ends.accepts_iff _).mpr (List.suffix_append _ _)] at rejected
  cases rejected

/-! ## Tags -/

/-- The scan of a tag passes over a text: no quote is open behind it, and no
bracket in it ends the tag. -/
def Passes (text : List Char) : Prop :=
  ∀ rest, cutTag none (text ++ rest) =
    (cutTag none rest).map fun (content, after) => (text ++ content, after)

theorem passes_nil : Passes [] := by
  intro rest
  simp

theorem Passes.append {first second : List Char} (h : Passes first) (h' : Passes second) :
    Passes (first ++ second) := by
  intro rest
  rw [List.append_assoc, h, h', Option.map_map]
  congr 1
  funext cut
  simp

theorem passes_cons {c : Char} (notBracket : c ≠ '>') (notDouble : c ≠ '"')
    (notSingle : c ≠ '\'') : Passes [c] := by
  intro rest
  simp [cutTag, notBracket, notDouble, notSingle]

theorem passes_of_plain {text : List Char} (plain : ∀ c ∈ text, isPlainChar c = true) :
    Passes text := by
  induction text with
  | nil => exact passes_nil
  | cons c rest ih =>
      obtain ⟨_, _, notBracket, _, _, notSingle, notDouble, _⟩ :=
        isPlainChar_iff.mp (plain c List.mem_cons_self)
      exact (passes_cons notBracket notDouble notSingle).append
        (ih fun d member => plain d (List.mem_cons_of_mem _ member))

theorem cutTag_some_append {quote : Char} {value : List Char} (free : quote ∉ value)
    (rest : List Char) :
    cutTag (some quote) (value ++ quote :: rest) =
      (cutTag none rest).map fun (content, after) => (value ++ quote :: content, after) := by
  induction value with
  | nil => simp [cutTag]
  | cons c more ih =>
      rw [List.mem_cons, not_or] at free
      simp [cutTag, Ne.symm free.1, ih free.2, Function.comp_def]

theorem passes_quoted {value : List Char} (free : '"' ∉ value) :
    Passes ('"' :: (value ++ ['"'])) := by
  intro rest
  have opened := cutTag_some_append free rest
  simp only [List.cons_append, List.append_assoc, List.nil_append]
  simp [cutTag, opened, Function.comp_def]

theorem passes_written {slot : Attribute} (plain : PlainName slot.name) (params : Params) :
    Passes (slot.written params) := by
  have free : '"' ∉ escape (slot.value.textUnder params).toList :=
    not_mem_escape (by decide) _
  have parts : slot.written params = [' '] ++ slot.name.toList ++ ['='] ++
      '"' :: (escape (slot.value.textUnder params).toList ++ ['"']) := by
    simp [Attribute.written]
  rw [parts]
  exact (((passes_cons (by decide) (by decide) (by decide)).append
    (passes_of_plain plain.2)).append
    (passes_cons (by decide) (by decide) (by decide))).append (passes_quoted free)

/-- Text that is passed over is the content of the tag that a bracket ends. -/
theorem cutTag_of_passes {content : List Char} (passes : Passes content) (rest : List Char) :
    cutTag none (content ++ '>' :: rest) = some (content, rest) := by
  rw [passes]
  simp [cutTag]

theorem eq_append_of_cutTag {quote : Option Char} {text content rest : List Char}
    (cut : cutTag quote text = some (content, rest)) : text = content ++ '>' :: rest := by
  induction text generalizing quote content with
  | nil => cases cut
  | cons c tail ih =>
      unfold cutTag at cut
      split at cut
      · next ends =>
          cases cut
          simp only [Bool.and_eq_true, decide_eq_true_eq] at ends
          rw [ends.1]
          rfl
      · obtain ⟨⟨inner, after⟩, cut', same⟩ := Option.map_eq_some_iff.mp cut
        cases same
        rw [ih cut']
        rfl

/-! ## Events -/

/-- The markup between brackets that gives an event. -/
inductive Spells : List Char → Event → Prop
  | opening (content : List Char) : Spells content (.opening content)
  | empty (content : List Char) : Spells (content ++ ['/']) (.empty content)
  | closing (name : List Char) : Spells ('/' :: name) (.closing (closingName name))
  | comment {inner : List Char} : ¬ HoldsTerminator '-' inner →
      Spells (['!', '-', '-'] ++ (inner ++ ['-', '-'])) (.comment inner)
  | cdata {inner : List Char} : ¬ HoldsTerminator ']' inner →
      Spells (['!', '[', 'C', 'D', 'A', 'T', 'A', '['] ++ (inner ++ [']', ']'])) (.cdata inner)
  | prolog (content : List Char) : Spells content .prolog

theorem spells_tagEvent (content : List Char) : Spells content (tagEvent content) := by
  unfold tagEvent
  split
  · exact .closing _
  · split
    · next last =>
        obtain ⟨start, rfl⟩ := List.getLast?_eq_some_iff.mp last
        rw [List.dropLast_concat]
        exact .empty start
    · exact .opening content

/-- The inner part of markup between a start and an end. -/
theorem inner_append (start middle stop : List Char) :
    inner start.length stop.length (start ++ (middle ++ stop)) = middle := by
  simp [inner]

theorem eq_append_of_cutAt {accepts : List Char → Bool} {text content rest : List Char}
    (cut : cutAt accepts [] text = some (content, rest)) : text = content ++ '>' :: rest := by
  obtain ⟨taken, rfl, same, _⟩ := cutAt_eq_some_iff.mp cut
  exact same

/-- Markup gives its event if it was cut where its kind ends. -/
theorem spells_of_eventOf {bracket : Bracket} {text content rest : List Char} {event : Event}
    (cut : cutMarkup bracket text = some (content, rest))
    (gives : eventOf bracket content = .ok event) : Spells content event := by
  cases bracket with
  | tag =>
      cases gives
      exact spells_tagEvent content
  | comment =>
      unfold eventOf at gives
      dsimp only at gives
      split at gives
      · next starts =>
          cases gives
          obtain ⟨middle, rfl, clear⟩ := exists_inner_of_cutAt comment_endsAfterMarks cut
            (List.isPrefixOf_iff_prefix.mp starts)
          rw [show inner 3 2 _ = middle from inner_append ['!', '-', '-'] middle ['-', '-']]
          exact .comment clear
      · cases gives
  | cdata =>
      unfold eventOf at gives
      dsimp only at gives
      split at gives
      · next starts =>
          cases gives
          obtain ⟨middle, rfl, clear⟩ := exists_inner_of_cutAt cdata_endsAfterMarks cut
            (List.isPrefixOf_iff_prefix.mp starts)
          rw [show inner 8 2 _ = middle from
            inner_append ['!', '[', 'C', 'D', 'A', 'T', 'A', '['] middle [']', ']']]
          exact .cdata clear
      · cases gives
  | doctype =>
      unfold eventOf at gives
      dsimp only at gives
      split at gives
      · split at gives
        · cases gives
        · cases gives
          exact .prolog content
      · cases gives
  | instruction =>
      unfold eventOf at gives
      dsimp only at gives
      split at gives
      · cases gives
        exact .prolog content
      · cases gives

/-- Markup is taken if its kind is told, its end is found and its content is an event. -/
theorem takeMarkup_eq_ok_iff {start stop : Nat} {text rest : List Char} {event : Event} :
    takeMarkup start text = .ok (event, stop, rest) ↔
      ∃ bracket content, Bracket.of text = .ok bracket ∧
        cutMarkup bracket text = some (content, rest) ∧ eventOf bracket content = .ok event ∧
          stop = start + Text.byteLength content + 2 := by
  constructor
  · intro taken
    rw [takeMarkup] at taken
    split at taken
    · cases taken
    · next bracket kind =>
        split at taken
        · cases taken
        · next content after cut =>
            split at taken
            · cases taken
            · next found gives =>
                cases taken
                exact ⟨bracket, content, kind, cut, gives, rfl⟩
  · rintro ⟨bracket, content, kind, cut, gives, rfl⟩
    simp only [takeMarkup, kind, cut, gives]

theorem eq_append_of_cutMarkup {bracket : Bracket} {text content rest : List Char}
    (cut : cutMarkup bracket text = some (content, rest)) : text = content ++ '>' :: rest := by
  cases bracket with
  | tag => exact eq_append_of_cutTag cut
  | comment | cdata | doctype | instruction => exact eq_append_of_cutAt cut

/-- Markup that is taken stands between the brackets and gives its event. -/
theorem spells_of_takeMarkup {start stop : Nat} {text rest : List Char} {event : Event}
    (taken : takeMarkup start text = .ok (event, stop, rest)) :
    ∃ content, text = content ++ '>' :: rest ∧ Spells content event := by
  obtain ⟨bracket, content, _, cut, gives, _⟩ := takeMarkup_eq_ok_iff.mp taken
  exact ⟨content, eq_append_of_cutMarkup cut, spells_of_eventOf cut gives⟩

end ThemedSvg.Markup

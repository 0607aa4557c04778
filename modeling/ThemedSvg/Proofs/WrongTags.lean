/-
# Wrong tags

A tag is wrong behind the markup in front of it, which says by itself what is open there and
whether there is a root. Markup goes wrong at one tag at most, and a fault of a tag is placed
there, in bytes from behind a byte order mark.
-/

import ThemedSvg.Proofs.Fronts

namespace ThemedSvg

/-- The faults of tags. -/
def Malformation.IsOfTag : Malformation → Prop
  | ofSyntax (.mismatchedEnd _ _) | ofSyntax (.unmatchedEnd _) => True
  | ofTag _ | secondRoot | cdataOutside | endWithoutStart => True
  | _ => False

namespace Markup

/-- Nothing is open behind markup: it is a document, or there is no element in it. -/
def LeavesNothingOpen (front : String) : Prop :=
  (∃ root, parse front = .ok root) ∨ parse front = .error .noRoot

/-- How a tag is wrong behind the markup in front of it: it is one root too many, or character
data around the root; its attributes cannot be read; it closes another element than the one
that is open, or none is. -/
inductive IsWrong (front : String) : Event → Malformation → Prop
  | secondOpening {root : Element} {content : List Char} : parse front = .ok root →
      IsWrong front (.opening content) .secondRoot
  | secondEmpty {root : Element} {content : List Char} : parse front = .ok root →
      IsWrong front (.empty content) .secondRoot
  | cdataOutside {content : List Char} : LeavesNothingOpen front →
      IsWrong front (.cdata content) .cdataOutside
  | opening {content : List Char} {fault : TagFault} : attributes content = .error fault →
      IsWrong front (.opening content) (.ofTag fault)
  | empty {content : List Char} {fault : TagFault} : attributes content = .error fault →
      IsWrong front (.empty content) (.ofTag fault)
  | mismatched {expected : String} {size : Nat} {name : List Char} :
      parse front = .error (.unclosed expected size) → String.ofList name ≠ expected →
      IsWrong front (.closing name) (.ofSyntax (.mismatchedEnd expected (String.ofList name)))
  | unmatched {name : List Char} : LeavesNothingOpen front →
      IsWrong front (.closing name) (.ofSyntax (.unmatchedEnd (String.ofList name)))

/-- Markup goes on with a wrong tag behind a part of it in which nothing is malformed. -/
structure GoesWrong (markup : String) (front : List Char) (cause : Malformation) : Prop where
  sound : ∀ position cause, parse (String.ofList front) ≠ .error (.malformed position cause)
  tag : ∃ start stop text event rest, markup.toList = front ++ '<' :: text ∧
    takeMarkup start text = .ok (event, stop, rest) ∧ IsWrong (String.ofList front) event cause

/-- Behind a run that leaves nothing open, there is a root or nothing. -/
theorem leavesNothingOpen_of_run {front : String} {last : Reading}
    (parsed : parse front = last.progress.finish front.utf8ByteSize)
    (isEmpty : last.progress.stack = []) : LeavesNothingOpen front := by
  rw [LeavesNothingOpen, parsed, Progress.finish, isEmpty]
  cases last.progress.root with
  | none => exact .inr rfl
  | some root => exact .inl ⟨root, rfl⟩

theorem parse_eq_ok_of_run {front : String} {last : Reading}
    (parsed : parse front = last.progress.finish front.utf8ByteSize)
    (isEmpty : last.progress.stack = []) (occupied : last.progress.root ≠ none) :
    ∃ root, parse front = .ok root := by
  obtain ⟨root, isRoot⟩ := Option.ne_none_iff_exists'.mp occupied
  refine ⟨root, ?_⟩
  rw [parsed, Progress.finish, isEmpty, isRoot]

/-- The event that is turned down is a wrong tag, if the fault is that of a tag. -/
theorem isWrong_of_rejects {front : String} {last : Reading} {event : Event}
    {cause : Malformation} (parsed : parse front = last.progress.finish front.utf8ByteSize)
    (orderly : last.progress.IsOrderly) (ofTag : cause.IsOfTag)
    (matched : cause ≠ .endWithoutStart) (rejects : last.progress.Rejects event cause) :
    IsWrong front event cause := by
  cases rejects with
  | secondOpening isEmpty occupied =>
      obtain ⟨root, isDocument⟩ := parse_eq_ok_of_run parsed isEmpty occupied
      exact .secondOpening isDocument
  | opening reads => exact .opening reads
  | secondEmpty isEmpty occupied =>
      obtain ⟨root, isDocument⟩ := parse_eq_ok_of_run parsed isEmpty occupied
      exact .secondEmpty isDocument
  | empty reads => exact .empty reads
  | closing isEmpty => exact absurd rfl matched
  | secondClosing stack occupied =>
      rcases orderly with fresh | isEmpty
      · exact absurd fresh occupied
      · rw [isEmpty] at stack
        cases stack
  | text _ _ => cases ofTag
  | cdata isEmpty => exact .cdataOutside (leavesNothingOpen_of_run parsed isEmpty)

/-- An end tag that the scanner does not allow is wrong. -/
theorem isWrong_of_openAfter {front : String} {last : Reading} {event : Event}
    {fault : SyntaxFault} (parsed : parse front = last.progress.finish front.utf8ByteSize)
    (same : last.progress.names = last.names) (fails : openAfter last.names event = .error fault) :
    IsWrong front event (.ofSyntax fault) := by
  rw [← same, Progress.names] at fails
  cases event with
  | closing name =>
      cases stack : last.progress.stack with
      | nil =>
          rw [stack] at fails
          cases fails
          exact .unmatched (leavesNothingOpen_of_run parsed stack)
      | cons element outer =>
          rw [stack, List.map_cons, openAfter] at fails
          split at fails
          · cases fails
          · next differs =>
              cases fails
              rw [String.ofList_toList]
              have unclosed : parse front = .error (.unclosed element.name front.utf8ByteSize) := by
                rw [parsed, Progress.finish, stack]
              refine .mismatched unclosed fun isName => ?_
              exact differs (by rw [← isName, String.toList_ofList])
  | opening _ | empty _ | text _ | cdata _ | comment _ | prolog => cases fails

theorem eventOf_eq_error {bracket : Bracket} {content : List Char} {fault : SyntaxFault}
    (fails : eventOf bracket content = .error fault) :
    fault = bracket.fault ∨ fault = .doctypeWithoutName := by
  cases bracket with
  | tag => cases fails
  | comment | cdata | instruction =>
      unfold eventOf at fails
      dsimp only at fails
      split at fails
      · cases fails
      · cases fails
        exact .inl rfl
  | doctype =>
      unfold eventOf at fails
      dsimp only at fails
      split at fails
      · split at fails
        · cases fails
          exact .inr rfl
        · cases fails
      · cases fails
        exact .inl rfl

/-- Markup that cannot be taken off is not a tag that is wrong, and its fault is placed at its
bracket or, if there is an end to it, at that. -/
theorem takeMarkup_eq_error {start position : Nat} {text : List Char} {fault : SyntaxFault}
    (fails : takeMarkup start text = .error (position, fault)) :
    ¬ (Malformation.ofSyntax fault).IsOfTag ∧
      ∃ piece rest, '<' :: text = piece ++ rest ∧ position = start + Text.byteLength piece := by
  have notOfTag (bracket : Bracket) : ¬ (Malformation.ofSyntax bracket.fault).IsOfTag := by
    cases bracket <;> exact id
  rw [takeMarkup] at fails
  split at fails
  · next kind =>
      cases fails
      refine ⟨?_, [], _, rfl, rfl⟩
      unfold Bracket.of at kind
      split at kind <;> cases kind <;> exact id
  · next bracket _ =>
      split at fails
      · cases fails
        exact ⟨notOfTag bracket, [], _, rfl, rfl⟩
      · next content rest cut =>
          split at fails
          · next gives =>
              cases fails
              obtain rfl := eq_append_of_cutMarkup cut
              rcases eventOf_eq_error gives with rfl | rfl
              · refine ⟨notOfTag bracket, [], _, rfl, ?_⟩
                cases bracket <;> rfl
              · refine ⟨id, '<' :: content, '>' :: rest, rfl, ?_⟩
                have bracket : '<'.utf8Size = 1 := by decide
                rw [faultOffset, Text.byteLength, bracket, Nat.add_assoc]
          · cases fails

/-- The place of a fault is at the start of the text that is left, or inside. -/
theorem exists_piece_of_fails {start position : Nat} {last : Reading} {cause : Malformation}
    (fails : last.Fails start position cause) :
    ∃ piece rest, last.text = piece ++ rest ∧ position = start + Text.byteLength piece := by
  cases fails with
  | markup fails => exact (takeMarkup_eq_error fails).2
  | name _ _ | event _ _ | text _ => exact ⟨[], _, rfl, rfl⟩

/-- Reading up to a fault: in front of it stands markup without a malformation. -/
theorem exists_front_of_malformed {markup : String} {position : Nat} {cause : Malformation}
    (malformed : parse markup = .error (.malformed position cause)) :
    ∃ (front : List Char) (last : Reading), markup.toList = front ++ last.text ∧
      parse (String.ofList front) =
        last.progress.finish (String.ofList front).utf8ByteSize ∧
      last.progress.IsOrderly ∧ last.progress.names = last.names ∧
      last.Fails (Text.byteLength (withoutMark front)) position cause := by
  rw [parse_eq_takeIn] at malformed
  rcases bind_eq_error.mp malformed with fails | ⟨progress, _, fails⟩
  · obtain ⟨before, last, _, _, same, split, run, ends⟩ := exists_fails_of_takeIn fails
    cases same
    obtain ⟨front, whole, isBefore⟩ := exists_front split
    obtain ⟨_, split', again⟩ := Reading.exists_of_run run
    obtain rfl := List.append_cancel_right (split.symm.trans split')
    have alone := again [] (by simp [AtBracket])
    rw [List.append_nil, ← isBefore] at alone
    rw [← String.toList_ofList (l := front)] at alone
    refine ⟨front, last, whole, parse_of_run alone, ?_, ?_, ?_⟩
    · exact Reading.isOrderly_of_run run (.inr rfl)
    · exact run.invariant (fun state => state.progress.names = state.names)
        Reading.names_of_step rfl
    · rwa [Nat.zero_add, ← isBefore] at ends
  · rw [Progress.finish] at fails
    split at fails <;> cases fails

/-- A fault of a tag is placed where the markup goes wrong, counted from behind a byte order
mark. -/
theorem exists_goesWrong {markup : String} {position : Nat} {cause : Malformation}
    (malformed : parse markup = .error (.malformed position cause)) (ofTag : cause.IsOfTag) :
    ∃ front, GoesWrong markup front cause ∧ position = Text.byteLength (withoutMark front) := by
  obtain ⟨front, last, whole, parsed, orderly, same, fails⟩ := exists_front_of_malformed malformed
  have sound (position : Nat) (cause : Malformation) :
      parse (String.ofList front) ≠ .error (.malformed position cause) := by
    rw [parsed, Progress.finish]
    split <;> simp
  have matched : cause ≠ .endWithoutStart := by
    rintro rfl
    exact parse_ne_endWithoutStart markup position malformed
  cases fails with
  | markup fails => exact absurd ofTag (takeMarkup_eq_error fails).1
  | name taken fails =>
      exact ⟨front, ⟨sound, _, _, _, _, _, whole, taken,
        isWrong_of_openAfter parsed same fails⟩, rfl⟩
  | event taken rejects =>
      exact ⟨front, ⟨sound, _, _, _, _, _, whole, taken,
        isWrong_of_rejects parsed orderly ofTag matched rejects⟩, rfl⟩
  | text rejects =>
      cases rejects
      cases ofTag

/-! ## Markup goes wrong once -/

/-- A run leads over all of a markup in which nothing is malformed. -/
theorem exists_run_of_sound {front : List Char}
    (sound : ∀ position cause, parse (String.ofList front) ≠ .error (.malformed position cause)) :
    ∃ last : Reading, Reading.Run ⟨[], Progress.start, withoutMark front⟩ last ∧ last.text = [] ∧
      parse (String.ofList front) =
        last.progress.finish (String.ofList front).utf8ByteSize ∧
      last.progress.names = last.names := by
  have parsed := parse_eq_takeIn (String.ofList front)
  rw [String.toList_ofList] at parsed
  cases taken : Progress.start.takeIn (events front) with
  | error fault =>
      obtain ⟨_, _, position, cause, rfl, _⟩ := exists_fails_of_takeIn taken
      rw [taken, error_bind] at parsed
      exact absurd parsed (sound position cause)
  | ok progress =>
      obtain ⟨complete, built⟩ := Progress.takeIn_eq_ok taken
      obtain ⟨names, run⟩ := run_of_events complete built
      rw [taken, ok_bind] at parsed
      exact ⟨_, run, rfl, parsed, run.invariant (fun state => state.progress.names = state.names)
        Reading.names_of_step rfl⟩

theorem stack_of_leavesNothingOpen {front : String} {progress : Progress} {size : Nat}
    (parsed : parse front = progress.finish size) (nothing : LeavesNothingOpen front) :
    progress.stack = [] := by
  rw [LeavesNothingOpen, parsed, Progress.finish] at nothing
  split at nothing
  · simp at nothing
  · next stack _ => exact stack
  · next stack _ => exact stack

theorem stack_of_unclosed {front expected : String} {progress : Progress} {size place : Nat}
    (parsed : parse front = progress.finish size)
    (unclosed : parse front = .error (.unclosed expected place)) :
    ∃ element outer, progress.stack = element :: outer ∧ element.name = expected := by
  rw [parsed, Progress.finish] at unclosed
  split at unclosed
  · next element outer stack =>
      cases unclosed
      exact ⟨element, outer, stack, rfl⟩
  · cases unclosed
  · cases unclosed

/-- No step leads over a tag that is wrong. -/
theorem not_step_of_isWrong {front : String} {progress : Progress} {next : Reading}
    {start stop size : Nat} {text rest : List Char} {event : Event} {cause : Malformation}
    (parsed : parse front = progress.finish size)
    (taken : takeMarkup start text = .ok (event, stop, rest)) (wrong : IsWrong front event cause) :
    ¬ Reading.Step ⟨progress.names, progress, '<' :: text⟩ next := by
  intro step
  obtain ⟨next, moves, names, opened⟩ : ∃ next, progress.Moves event next ∧
      ∃ names, openAfter progress.names event = .ok names := by
    generalize same : Reading.mk _ _ ('<' :: text) = whole at step
    cases step with
    | markup taken' opened stepped =>
        cases same
        obtain ⟨_, retaken⟩ := takeMarkup_eq_ok taken' start
        cases taken.symm.trans retaken
        exact ⟨_, Progress.step_eq_ok_iff.mp stepped, _, opened⟩
    | @text _ _ _ _ content _ nonempty plain _ _ =>
        obtain ⟨c, more, rfl⟩ := List.exists_cons_of_ne_nil nonempty
        cases same
        exact absurd List.mem_cons_self plain
  have full {root : Element} (isDocument : parse front = .ok root) :
      ¬ (progress.root = none ∨ progress.stack ≠ []) := by
    obtain rfl := Progress.finish_eq_ok_iff.mp (parsed.symm.trans isDocument)
    simp
  cases wrong with
  | secondOpening isDocument =>
      cases moves with
      | opening _ room => exact full isDocument room
  | secondEmpty isDocument =>
      cases moves with
      | empty _ added => exact full isDocument (Progress.room_of_addElement added)
  | cdataOutside nothing =>
      cases moves with
      | cdata added =>
          obtain ⟨_, _, stack, _⟩ := Progress.add?_eq_some_iff.mp added
          rw [stack_of_leavesNothingOpen parsed nothing] at stack
          cases stack
  | opening fails =>
      cases moves with
      | opening opens _ =>
          obtain ⟨_, reads, _⟩ := Progress.openElement_eq_ok_iff.mp opens
          cases fails.symm.trans reads
  | empty fails =>
      cases moves with
      | empty opens _ =>
          obtain ⟨_, reads, _⟩ := Progress.openElement_eq_ok_iff.mp opens
          cases fails.symm.trans reads
  | mismatched unclosed differs =>
      obtain ⟨element, outer, stack, rfl⟩ := stack_of_unclosed parsed unclosed
      rw [Progress.names, stack, List.map_cons, openAfter] at opened
      split at opened
      · next isName => exact differs (by rw [isName, String.ofList_toList])
      · cases opened
  | unmatched nothing =>
      rw [Progress.names, stack_of_leavesNothingOpen parsed nothing] at opened
      cases opened

theorem withoutMark_append (front rest : List Char) :
    withoutMark (front ++ '<' :: rest) = withoutMark front ++ '<' :: rest := by
  cases front with
  | nil => rfl
  | cons c more =>
      by_cases isMark : c = '\uFEFF'
      · subst isMark
        rfl
      · simp [withoutMark, isMark]

/-- A run leads to the place where markup goes wrong, and no step from there. -/
theorem GoesWrong.exists_run {markup : String} {front : List Char} {cause : Malformation}
    (wrong : GoesWrong markup front cause) :
    ∃ last : Reading, Reading.Run ⟨[], Progress.start, withoutMark markup.toList⟩ last ∧
      markup.toList = front ++ last.text ∧ ∀ next, ¬ Reading.Step last next := by
  obtain ⟨start, stop, text, event, rest, whole, taken, isWrong⟩ := wrong.tag
  obtain ⟨last, run, ends, parsed, same⟩ := exists_run_of_sound wrong.sound
  obtain ⟨before, split, again⟩ := Reading.exists_of_run run
  rw [ends, List.append_nil] at split
  dsimp only at split
  subst split
  have atBracket : AtBracket ('<' :: text) := fun c starts => (Option.some.inj starts).symm
  refine ⟨⟨last.names, last.progress, '<' :: text⟩, ?_, whole, fun next => ?_⟩
  · rw [whole, withoutMark_append]
    exact again _ atBracket
  · rw [← same]
    exact not_step_of_isWrong parsed taken isWrong

/-- Markup goes wrong at one tag at most. -/
theorem GoesWrong.front_unique {markup : String} {front other : List Char}
    {cause cause' : Malformation} (wrong : GoesWrong markup front cause)
    (wrong' : GoesWrong markup other cause') : front = other := by
  obtain ⟨last, run, whole, stuck⟩ := wrong.exists_run
  obtain ⟨last', run', whole', stuck'⟩ := wrong'.exists_run
  have same : last = last' := by
    rcases Reading.run_or_run run run' with onwards | onwards
    · cases onwards with
      | refl => rfl
      | head step _ => exact absurd step (stuck _)
    · cases onwards with
      | refl => rfl
      | head step _ => exact absurd step (stuck' _)
  subst same
  exact List.append_cancel_right (whole.symm.trans whole')

end Markup

end ThemedSvg

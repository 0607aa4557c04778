/-
# Reading up to a fault

Markup is read event by event, and nothing in that looks ahead. So what stands in front of an
event is read in the same way where it is a whole markup. Where reading fails, a run leads up
to an event that cannot be taken off or that the document does not take in.
-/

import ThemedSvg.Proofs.Balance

namespace ThemedSvg.Markup

/-! ## Reading does not look ahead -/

theorem cutAt_again {accepts : List Char → Bool} {before text content rest : List Char}
    (cut : cutAt accepts before text = some (before.reverse ++ content, rest)) (after : List Char) :
    cutAt accepts before (content ++ '>' :: after) = some (before.reverse ++ content, after) := by
  obtain ⟨taken, same, _, accepted, first⟩ := cutAt_eq_some_iff.mp cut
  obtain rfl := List.append_cancel_left same
  exact cutAt_eq_some_iff.mpr ⟨content, rfl, rfl, accepted, first⟩

theorem cutTag_again {quote : Option Char} {text content rest : List Char}
    (cut : cutTag quote text = some (content, rest)) (after : List Char) :
    cutTag quote (content ++ '>' :: after) = some (content, after) := by
  induction text generalizing quote content with
  | nil => cases cut
  | cons c tail ih =>
      unfold cutTag at cut
      split at cut
      · next ends =>
          cases cut
          obtain ⟨rfl, closed⟩ : c = '>' ∧ quote.isNone := by simpa using ends
          simp [cutTag, closed]
      · next inside =>
          obtain ⟨⟨inner, rest'⟩, cut, same⟩ := Option.map_eq_some_iff.mp cut
          cases same
          rw [List.cons_append]
          unfold cutTag
          rw [if_neg inside]
          dsimp only
          rw [ih cut, Option.map_some]

/-- What is cut off does not depend on what stands behind it. -/
theorem cutMarkup_again {bracket : Bracket} {text content rest : List Char}
    (cut : cutMarkup bracket text = some (content, rest)) (after : List Char) :
    cutMarkup bracket (content ++ '>' :: after) = some (content, after) := by
  cases bracket with
  | tag => exact cutTag_again cut after
  | comment | cdata | doctype | instruction => exact cutAt_again cut after

/-- Two characters tell the kind of markup. -/
theorem bracket_of_cons_cons (c d : Char) (rest after : List Char) :
    Bracket.of (c :: d :: rest) = Bracket.of (c :: d :: after) := by
  by_cases isBang : c = '!'
  · subst isBang
    by_cases isKind : d = '[' ∨ d = '-' ∨ d = 'D' ∨ d = 'd'
    · rcases isKind with rfl | rfl | rfl | rfl <;> rfl
    · rw [not_or, not_or, not_or] at isKind
      simp [Bracket.of, isKind]
  · by_cases isQuery : c = '?'
    · subst isQuery
      rfl
    · simp [Bracket.of, isBang, isQuery]

theorem bracket_of_again (content rest after : List Char) :
    Bracket.of (content ++ '>' :: rest) = Bracket.of (content ++ '>' :: after) := by
  match content with
  | [] => rfl
  | [c] => exact bracket_of_cons_cons c '>' rest after
  | c :: d :: more => exact bracket_of_cons_cons c d _ _

/-- What is taken as an event is the same event in front of anything else. -/
theorem takeMarkup_again {start stop : Nat} {text rest : List Char} {event : Event}
    (taken : takeMarkup start text = .ok (event, stop, rest)) :
    ∃ content, text = content ++ '>' :: rest ∧ stop = start + Text.byteLength content + 2 ∧
      Spells content event ∧
      ∀ after, takeMarkup start (content ++ '>' :: after) = .ok (event, stop, after) := by
  obtain ⟨bracket, content, kind, cut, gives, isStop⟩ := takeMarkup_eq_ok_iff.mp taken
  obtain rfl := eq_append_of_cutMarkup cut
  refine ⟨content, rfl, isStop, spells_of_eventOf cut gives, ?_⟩
  intro after
  rw [bracket_of_again content rest after] at kind
  exact takeMarkup_eq_ok_iff.mpr ⟨bracket, content, kind, cutMarkup_again cut after, gives, isStop⟩

namespace Reading

/-- A run takes the same off whatever it stands in front of, as long as that goes on with a
bracket. -/
theorem exists_of_run {first last : Reading} (run : Run first last) :
    ∃ before, first.text = before ++ last.text ∧
      ∀ after, AtBracket after →
        Run ⟨first.names, first.progress, before ++ after⟩ ⟨last.names, last.progress, after⟩ := by
  induction run with
  | refl state => exact ⟨[], rfl, fun after _ => .refl _⟩
  | head step _ ih =>
      obtain ⟨before, split, again⟩ := ih
      cases step with
      | markup taken opened stepped =>
          obtain ⟨content, rfl, _, _, retaken⟩ := takeMarkup_again taken
          cases split
          refine ⟨'<' :: (content ++ '>' :: before), by simp, ?_⟩
          intro after atBracket
          have whole : '<' :: (content ++ '>' :: before) ++ after =
              '<' :: (content ++ '>' :: (before ++ after)) := by simp
          rw [whole]
          exact .head (.markup (retaken _) opened stepped) (again after atBracket)
      | @text _ _ _ _ content rest nonempty plain atBracket stepped =>
          cases split
          refine ⟨content ++ before, by simp, ?_⟩
          intro after atBracket'
          have ends : AtBracket (before ++ after) := by
            cases before with
            | nil => exact atBracket'
            | cons c more => exact atBracket
          rw [List.append_assoc]
          exact .head (.text nonempty plain ends stepped) (again after atBracket')

end Reading

/-! ## The event that does not fit -/

namespace Progress

variable {progress : Progress}

/-- All that an event can be turned down for. -/
inductive Rejects (progress : Progress) : Event → Malformation → Prop
  | secondOpening {content : List Char} : progress.stack = [] → progress.root ≠ none →
      Rejects progress (.opening content) .secondRoot
  | opening {content : List Char} {fault : TagFault} : attributes content = .error fault →
      Rejects progress (.opening content) (.ofTag fault)
  | secondEmpty {content : List Char} : progress.stack = [] → progress.root ≠ none →
      Rejects progress (.empty content) .secondRoot
  | empty {content : List Char} {fault : TagFault} : attributes content = .error fault →
      Rejects progress (.empty content) (.ofTag fault)
  | closing {name : List Char} : progress.stack = [] →
      Rejects progress (.closing name) .endWithoutStart
  | secondClosing {name : List Char} {opened : OpenElement} : progress.stack = [opened] →
      progress.root ≠ none → Rejects progress (.closing name) .secondRoot
  | text {content : List Char} : progress.stack = [] → Text.isBlank content = false →
      Rejects progress (.text content) .textOutside
  | cdata {content : List Char} : progress.stack = [] →
      Rejects progress (.cdata content) .cdataOutside

theorem openElement_eq_error {position : Nat} {content : List Char} {fault : ParseFault}
    (fails : openElement position content = .error fault) :
    ∃ cause, fault = .malformed position (.ofTag cause) ∧ attributes content = .error cause := by
  rw [openElement] at fails
  split at fails
  · next cause reads =>
      cases fails
      exact ⟨cause, rfl, reads⟩
  · cases fails

theorem addElement_eq_error {position : Nat} {element : Element} {fault : ParseFault}
    (fails : progress.addElement position element = .error fault) :
    fault = .malformed position .secondRoot ∧ progress.stack = [] ∧ progress.root ≠ none := by
  rw [addElement] at fails
  split at fails
  · cases fails
  · next outside =>
      split at fails
      · cases fails
      · next occupied =>
          cases fails
          exact ⟨rfl, add?_eq_none_iff.mp outside, by simpa using occupied⟩

/-- An event that is turned down is so at its place. -/
theorem rejects_of_step {event : Event} {start : Nat} {fault : ParseFault}
    (fails : progress.step ⟨start, event⟩ = .error fault) :
    ∃ cause, fault = .malformed start cause ∧ progress.Rejects event cause := by
  cases event with
  | opening content =>
      simp only [step] at fails
      split at fails
      · next occupied =>
          cases fails
          obtain ⟨isRoot, isEmpty⟩ : progress.root.isSome ∧ progress.stack = [] := by
            simpa using occupied
          exact ⟨_, rfl, .secondOpening isEmpty (Option.isSome_iff_ne_none.mp isRoot)⟩
      · rcases bind_eq_error.mp fails with opens | ⟨opened, _, fails⟩
        · obtain ⟨cause, rfl, reads⟩ := openElement_eq_error opens
          exact ⟨_, rfl, .opening reads⟩
        · cases fails
  | empty content =>
      rcases bind_eq_error.mp fails with opens | ⟨opened, _, fails⟩
      · obtain ⟨cause, rfl, reads⟩ := openElement_eq_error opens
        exact ⟨_, rfl, .empty reads⟩
      · obtain ⟨rfl, isEmpty, occupied⟩ := addElement_eq_error fails
        exact ⟨_, rfl, .secondEmpty isEmpty occupied⟩
  | closing name =>
      simp only [step] at fails
      split at fails
      · next isEmpty =>
          cases fails
          exact ⟨_, rfl, .closing isEmpty⟩
      · next opened outer stack =>
          obtain ⟨rfl, isEmpty, occupied⟩ := addElement_eq_error fails
          dsimp only at isEmpty occupied
          rw [isEmpty] at stack
          exact ⟨_, rfl, .secondClosing stack occupied⟩
  | text content =>
      simp only [step] at fails
      split at fails
      · cases fails
      · next outside =>
          split at fails
          · cases fails
          · next visible =>
              cases fails
              exact ⟨_, rfl, .text (add?_eq_none_iff.mp outside) (by simpa using visible)⟩
  | cdata content =>
      simp only [step] at fails
      split at fails
      · cases fails
      · next outside =>
          cases fails
          exact ⟨_, rfl, .cdata (add?_eq_none_iff.mp outside)⟩
  | comment content => cases fails
  | prolog => cases fails

end Progress

/-- How reading ends in a state: at which byte, and why. The text that is left starts at byte
`start`. -/
inductive Reading.Fails (start : Nat) : Reading → Nat → Malformation → Prop
  | markup {names : List (List Char)} {progress : Progress} {text : List Char} {position : Nat}
      {fault : SyntaxFault} : takeMarkup start text = .error (position, fault) →
        Fails start ⟨names, progress, '<' :: text⟩ position (.ofSyntax fault)
  | name {names : List (List Char)} {progress : Progress} {stop : Nat} {text rest : List Char}
      {event : Event} {fault : SyntaxFault} :
      takeMarkup start text = .ok (event, stop, rest) → openAfter names event = .error fault →
        Fails start ⟨names, progress, '<' :: text⟩ start (.ofSyntax fault)
  | event {names : List (List Char)} {progress : Progress} {stop : Nat} {text rest : List Char}
      {event : Event} {cause : Malformation} :
      takeMarkup start text = .ok (event, stop, rest) → progress.Rejects event cause →
        Fails start ⟨names, progress, '<' :: text⟩ start cause
  | text {names : List (List Char)} {progress : Progress} {text content : List Char}
      {cause : Malformation} :
      progress.Rejects (.text content) cause → Fails start ⟨names, progress, text⟩ start cause

/-- Takes in what has been read, and then fails as reading did. -/
def Progress.takeIn (progress : Progress) (read : List PlacedEvent × Ending) :
    Except ParseFault Progress := do
  let progress ← read.1.foldlM step progress
  match read.2 with
  | .broken position fault => .error (.malformed position (.ofSyntax fault))
  | .complete => return progress

theorem parse_eq_takeIn (markup : String) :
    parse markup =
      Progress.start.takeIn (events markup.toList) >>= Progress.finish markup.utf8ByteSize := by
  unfold parse Progress.takeIn
  split
  next placed ending scanned =>
    rw [scanned]
    dsimp only
    cases placed.foldlM Progress.step Progress.start with
    | error fault => rfl
    | ok progress => cases ending <;> rfl

theorem Progress.takeIn_cons (progress : Progress) (first : PlacedEvent)
    (rest : List PlacedEvent) (ending : Ending) :
    progress.takeIn (first :: rest, ending) =
      progress.step first >>= fun next => next.takeIn (rest, ending) := by
  unfold takeIn
  rw [List.foldlM_cons]
  cases progress.step first <;> rfl

theorem Progress.takeIn_eq_ok {progress final : Progress} {read : List PlacedEvent × Ending}
    (taken : progress.takeIn read = .ok final) :
    read.2 = .complete ∧ read.1.foldlM step progress = .ok final := by
  obtain ⟨next, built, ends⟩ := bind_eq_ok.mp taken
  split at ends
  · cases ends
  · next complete =>
      cases ends
      exact ⟨complete, built⟩

/-- Where taking in fails, a run leads to a state in which reading ends. -/
theorem exists_fails_of_takeIn {names : List (List Char)} {start : Nat} {text : List Char}
    {progress : Progress} {fault : ParseFault}
    (fails : progress.takeIn (eventsFrom names start text) = .error fault) :
    ∃ before last position cause, fault = .malformed position cause ∧
      text = before ++ last.text ∧ Reading.Run ⟨names, progress, text⟩ last ∧
      last.Fails (start + Text.byteLength before) position cause := by
  fun_induction eventsFrom names start text generalizing progress with
  | case1 names start => cases fails
  | case2 names start text position cause failed =>
      cases fails
      exact ⟨[], _, position, _, rfl, rfl, .refl _, .markup failed⟩
  | case3 names start text event stop rest taken cause failed =>
      cases fails
      exact ⟨[], _, start, _, rfl, rfl, .refl _, .name taken failed⟩
  | case4 names start text event stop rest taken names' opened events ending later ih =>
      rw [later] at ih
      rw [Progress.takeIn_cons] at fails
      rcases bind_eq_error.mp fails with stepped | ⟨next, stepped, fails⟩
      · obtain ⟨cause, rfl, rejects⟩ := Progress.rejects_of_step stepped
        exact ⟨[], _, start, cause, rfl, rfl, .refl _, .event taken rejects⟩
      · obtain ⟨before, last, position, cause, rfl, rfl, run, ends⟩ := ih fails
        obtain ⟨content, same, rfl, _⟩ := takeMarkup_again taken
        refine ⟨'<' :: (content ++ '>' :: before), last, position, cause, rfl, ?_,
          .head (.markup taken opened stepped) run, ?_⟩
        · rw [same]
          simp
        · have bytes : start + Text.byteLength ('<' :: (content ++ '>' :: before)) =
              start + Text.byteLength content + 2 + Text.byteLength before := by
            have bracket : '<'.utf8Size = 1 ∧ '>'.utf8Size = 1 := by decide
            simp only [Text.byteLength, Text.byteLength_append, bracket]
            omega
          rw [bytes]
          exact ends
  | case5 names start c rest notBracket content events ending later =>
      rename_i ih
      rw [later] at ih
      obtain ⟨whole, plain, atBracket⟩ := text_split notBracket rest
      rw [Progress.takeIn_cons] at fails
      rcases bind_eq_error.mp fails with stepped | ⟨next, stepped, fails⟩
      · obtain ⟨cause, rfl, rejects⟩ := Progress.rejects_of_step stepped
        exact ⟨[], ⟨names, progress, c :: rest⟩, start, cause, rfl, rfl, .refl _, .text rejects⟩
      · obtain ⟨before, last, position, cause, rfl, same, run, ends⟩ := ih fails
        refine ⟨content ++ before, last, position, cause, rfl, ?_, ?_, ?_⟩
        · rw [List.append_assoc, ← same]
          exact whole
        · rw [whole]
          exact .head (.text (List.cons_ne_nil _ _) plain atBracket stepped) run
        · rw [Text.byteLength_append, ← Nat.add_assoc]
          exact ends

/-! ## Runs from one state -/

namespace Reading

variable {state first second : Reading}

/-- There is one step at most. -/
theorem step_unique (step : Step state first) (step' : Step state second) : first = second := by
  cases step with
  | @markup _ _ _ _ start _ text _ _ taken opened stepped =>
      generalize same : Reading.mk _ _ ('<' :: text) = whole at step'
      cases step' with
      | markup taken' opened' stepped' =>
          cases same
          obtain ⟨_, retaken⟩ := takeMarkup_eq_ok taken' start
          cases taken.symm.trans retaken
          cases opened.symm.trans opened'
          cases stepped.symm.trans (Progress.step_eq_ok stepped' start)
          rfl
      | @text _ _ _ _ content _ nonempty plain _ _ =>
          obtain ⟨c, more, rfl⟩ := List.exists_cons_of_ne_nil nonempty
          cases same
          exact absurd List.mem_cons_self plain
  | @text _ _ _ start content rest nonempty plain atBracket stepped =>
      generalize same : Reading.mk _ _ (content ++ rest) = whole at step'
      cases step' with
      | markup _ _ _ =>
          obtain ⟨c, more, rfl⟩ := List.exists_cons_of_ne_nil nonempty
          cases same
          exact absurd List.mem_cons_self plain
      | @text _ _ _ _ content' rest' _ plain' atBracket' stepped' =>
          obtain ⟨rfl, rfl, texts⟩ := Reading.mk.inj same
          have contents := congrArg (List.takeWhile (· != '<')) texts
          rw [(cut_text plain atBracket).1, (cut_text plain' atBracket').1] at contents
          subst contents
          obtain rfl := List.append_cancel_left texts
          cases stepped.symm.trans (Progress.step_eq_ok stepped' start)
          rfl

/-- Of two runs from one state, one goes on where the other one ends. -/
theorem run_or_run (run : Run state first) (run' : Run state second) :
    Run first second ∨ Run second first := by
  induction run with
  | refl => exact .inl run'
  | head step rest ih =>
      cases run' with
      | refl => exact .inr (.head step rest)
      | head step' rest' =>
          cases step_unique step step'
          exact ih rest'

end Reading

/-! ## What stands in front -/

/-- Where a run leads over all of a markup, its outcome is that of the document the run
leaves. -/
theorem parse_of_run {front : String} {names : List (List Char)} {progress : Progress}
    (run : Reading.Run ⟨[], Progress.start, withoutMark front.toList⟩ ⟨names, progress, []⟩) :
    parse front = progress.finish front.utf8ByteSize := by
  obtain ⟨complete, built⟩ := events_of_run run rfl 0
  have whole : Progress.start.takeIn (events front.toList) = .ok progress := by
    rw [Progress.takeIn, events, built, ok_bind, complete]
    rfl
  rw [parse_eq_takeIn, whole, ok_bind]

/-- A byte order mark is not read, and what stands in front of something else has it too. -/
theorem exists_front {markup before rest : List Char}
    (split : withoutMark markup = before ++ rest) :
    ∃ front, markup = front ++ rest ∧ withoutMark front = before := by
  unfold withoutMark at split
  split at split
  · exact ⟨'\uFEFF' :: before, by rw [split]; rfl, rfl⟩
  · next unmarked =>
      refine ⟨before, split, ?_⟩
      unfold withoutMark
      split
      · next more =>
          cases split
          exact absurd rfl (unmarked (more ++ rest))
      · rfl

/-- A root is only there when nothing is open. -/
def Progress.IsOrderly (progress : Progress) : Prop :=
  progress.root = none ∨ progress.stack = []

theorem Progress.IsOrderly.of_addElement {progress next : Progress} {position : Nat}
    {element : Element} (orderly : progress.IsOrderly)
    (added : progress.addElement position element = .ok next) : next.IsOrderly := by
  rcases addElement_eq_ok_iff.mp added with child | ⟨isEmpty, _, rfl⟩
  · obtain ⟨parent, outer, stack, rfl⟩ := add?_eq_some_iff.mp child
    exact .inl (orderly.resolve_right (by simp [stack]))
  · exact .inr isEmpty

theorem Progress.IsOrderly.of_add? {progress next : Progress} {node : Node}
    (orderly : progress.IsOrderly) (added : progress.add? node = some next) :
    next.IsOrderly := by
  obtain ⟨parent, outer, stack, rfl⟩ := add?_eq_some_iff.mp added
  exact .inl (orderly.resolve_right (by simp [stack]))

theorem Progress.IsOrderly.of_moves {progress next : Progress} {event : Event}
    (orderly : progress.IsOrderly) (moves : progress.Moves event next) : next.IsOrderly := by
  cases moves with
  | opening _ room =>
      rcases room with fresh | isOpen
      · exact .inl fresh
      · exact .inl (orderly.resolve_right isOpen)
  | empty _ added => exact orderly.of_addElement added
  | @closing _ _ _ outer _ stack added =>
      have fresh : progress.root = none := orderly.resolve_right (by simp [stack])
      have outer_orderly : IsOrderly { progress with stack := outer } := .inl fresh
      exact outer_orderly.of_addElement added
  | text added | cdata added | comment added => exact orderly.of_add? added
  | textOutside _ _ | commentOutside _ | prolog => exact orderly

theorem Reading.isOrderly_of_run {first last : Reading} (run : Run first last)
    (orderly : first.progress.IsOrderly) : last.progress.IsOrderly := by
  refine run.invariant (·.progress.IsOrderly) ?_ orderly
  intro first second step orderly
  cases step with
  | markup _ _ stepped | text _ _ _ stepped =>
      exact Progress.IsOrderly.of_moves orderly (Progress.step_eq_ok_iff.mp stepped)

end ThemedSvg.Markup

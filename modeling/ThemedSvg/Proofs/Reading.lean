/-
# Reading as a run

Reading markup is two machines in step: the scanner, which keeps the names of the
open elements, and the builder, which keeps the open elements. This module puts
them into one state and one step, and shows that a document is parsed exactly when
a run of steps leads to it. What a step preserves then holds of every parse.
-/

import ThemedSvg.Markup.Parse
import ThemedSvg.Proofs.Scanning

namespace ThemedSvg.Markup

/-- A state of reading: the names that the scanner has open, the document under
construction, and the text that is left. -/
structure Reading where
  names : List (List Char)
  progress : Progress
  text : List Char

/-- The text goes on with a bracket, if it goes on. -/
def AtBracket (text : List Char) : Prop := ∀ c ∈ text.head?, c = '<'

namespace Reading

/-- One step of reading takes one event off the text. Where the event stands does
not matter to a step that succeeds. -/
inductive Step : Reading → Reading → Prop
  | markup {names names' : List (List Char)} {progress progress' : Progress}
      {start stop : Nat} {text rest : List Char} {event : Event} :
      takeMarkup start text = .ok (event, stop, rest) → openAfter names event = .ok names' →
        progress.step ⟨start, event⟩ = .ok progress' →
        Step ⟨names, progress, '<' :: text⟩ ⟨names', progress', rest⟩
  | text {names : List (List Char)} {progress progress' : Progress} {start : Nat}
      {content rest : List Char} :
      content ≠ [] → '<' ∉ content → AtBracket rest →
        progress.step ⟨start, .text content⟩ = .ok progress' →
        Step ⟨names, progress, content ++ rest⟩ ⟨names, progress', rest⟩

/-- Any number of steps. -/
inductive Run : Reading → Reading → Prop
  | refl (state : Reading) : Run state state
  | head {first second last : Reading} : Step first second → Run second last → Run first last

theorem Run.trans {first second last : Reading} (h : Run first second)
    (h' : Run second last) : Run first last := by
  induction h with
  | refl => exact h'
  | head step _ ih => exact .head step (ih h')

theorem Run.single {first second : Reading} (step : Step first second) : Run first second :=
  .head step (.refl second)

/-- What every step preserves, every run preserves. -/
theorem Run.invariant (Holds : Reading → Prop)
    (preserved : ∀ {first second}, Step first second → Holds first → Holds second)
    {first last : Reading} (run : Run first last) (start : Holds first) : Holds last := by
  induction run with
  | refl => exact start
  | head step _ ih => exact ih (preserved step start)

end Reading

/-! ## Moves of the builder -/

namespace OpenElement

/-- An open element with further children, which are there as their nodes. -/
def addAll (parent : OpenElement) (nodes : List Node) : OpenElement :=
  { parent with reversed := nodes.reverse ++ parent.reversed }

theorem addAll_cons (parent : OpenElement) (node : Node) (rest : List Node) :
    parent.addAll (node :: rest) = (parent.add node).addAll rest := by
  simp [addAll, add]

theorem addAll_append (parent : OpenElement) (first second : List Node) :
    parent.addAll (first ++ second) = (parent.addAll first).addAll second := by
  simp [addAll]

end OpenElement

namespace Progress

variable {progress next : Progress} {position : Nat}

/-- The attribute that a key and a text make. -/
def slotOf (pair : List Char × List Char) : Attribute :=
  Attribute.text (String.ofList pair.1) (String.ofList pair.2)

theorem openElement_eq_ok_iff {content : List Char} {opened : OpenElement} :
    openElement position content = .ok opened ↔
      ∃ pairs, attributes content = .ok pairs ∧
        opened = ⟨String.ofList (tagName content), pairs.map slotOf, []⟩ := by
  rw [openElement]
  cases attributes content with
  | error fault => simp
  | ok pairs =>
      constructor
      · intro opens
        cases opens
        exact ⟨pairs, rfl, rfl⟩
      · rintro ⟨_, same, rfl⟩
        cases same
        rfl

theorem add?_eq_none_iff {node : Node} :
    progress.add? node = none ↔ progress.stack = [] := by
  obtain ⟨stack, root⟩ := progress
  cases stack with
  | nil => simp [add?]
  | cons parent outer => simp [add?]

theorem add?_eq_some_iff {node : Node} :
    progress.add? node = some next ↔
      ∃ parent outer, progress.stack = parent :: outer ∧
        next = { progress with stack := parent.add node :: outer } := by
  obtain ⟨stack, root⟩ := progress
  cases stack with
  | nil => simp [add?]
  | cons parent outer =>
      constructor
      · intro added
        cases added
        exact ⟨parent, outer, rfl, rfl⟩
      · rintro ⟨_, _, same, rfl⟩
        cases same
        rfl

/-- An element becomes a child, or the root if nothing is open and there is no root. -/
theorem addElement_eq_ok_iff {element : Element} :
    progress.addElement position element = .ok next ↔
      progress.add? (.element element) = some next ∨
        progress.stack = [] ∧ progress.root = none ∧
          next = { progress with root := some element } := by
  obtain ⟨stack, root⟩ := progress
  cases stack with
  | nil => cases root <;> simp [addElement, add?, eq_comm]
  | cons parent outer => simp [addElement, add?]

/-- There is room for an element where it can be added. -/
theorem room_of_addElement {element : Element}
    (added : progress.addElement position element = .ok next) :
    progress.root = none ∨ progress.stack ≠ [] := by
  rcases addElement_eq_ok_iff.mp added with child | ⟨_, fresh, _⟩
  · obtain ⟨parent, outer, stack, _⟩ := add?_eq_some_iff.mp child
    rw [stack]
    exact .inr (List.cons_ne_nil parent outer)
  · exact .inl fresh

/-- Only faults tell where a tag stands. -/
theorem openElement_eq_ok {content : List Char} {opened : OpenElement}
    (opens : openElement position content = .ok opened) (position' : Nat) :
    openElement position' content = .ok opened :=
  openElement_eq_ok_iff.mpr (openElement_eq_ok_iff.mp opens)

theorem addElement_eq_ok {element : Element}
    (added : progress.addElement position element = .ok next) (position' : Nat) :
    progress.addElement position' element = .ok next :=
  addElement_eq_ok_iff.mpr (addElement_eq_ok_iff.mp added)

/-- All that one event can do to a document under construction. -/
inductive Moves (progress : Progress) : Event → Progress → Prop
  | opening {position : Nat} {content : List Char} {opened : OpenElement} :
      openElement position content = .ok opened →
        progress.root = none ∨ progress.stack ≠ [] →
        Moves progress (.opening content) { progress with stack := opened :: progress.stack }
  | empty {position : Nat} {content : List Char} {opened : OpenElement} {next : Progress} :
      openElement position content = .ok opened →
        progress.addElement position opened.close = .ok next →
        Moves progress (.empty content) next
  | closing {position : Nat} {name : List Char} {opened : OpenElement}
      {outer : List OpenElement} {next : Progress} :
      progress.stack = opened :: outer →
        addElement { progress with stack := outer } position opened.close = .ok next →
        Moves progress (.closing name) next
  | text {content : List Char} {next : Progress} :
      progress.add? (.text (String.ofList content)) = some next →
        Moves progress (.text content) next
  | cdata {content : List Char} {next : Progress} :
      progress.add? (.cdata (String.ofList content)) = some next →
        Moves progress (.cdata content) next
  | comment {content : List Char} {next : Progress} :
      progress.add? (.comment (String.ofList content)) = some next →
        Moves progress (.comment content) next
  | textOutside {content : List Char} : progress.stack = [] → Text.isBlank content = true →
      Moves progress (.text content) progress
  | commentOutside {content : List Char} : progress.stack = [] →
      Moves progress (.comment content) progress
  | prolog : Moves progress .prolog progress

theorem moves_of_step {event : Event} {start : Nat}
    (stepped : progress.step ⟨start, event⟩ = .ok next) : progress.Moves event next := by
  cases event with
  | opening content =>
      simp only [step] at stepped
      split at stepped
      · cases stepped
      · next room =>
          obtain ⟨opened, opens, same⟩ := bind_eq_ok.mp stepped
          cases same
          apply Moves.opening opens
          by_cases fresh : progress.root = none
          · exact .inl fresh
          · right
            intro empty
            apply room
            rw [Bool.and_eq_true, Option.isSome_iff_ne_none, List.isEmpty_iff]
            exact ⟨fresh, empty⟩
  | empty content =>
      obtain ⟨opened, opens, added⟩ := bind_eq_ok.mp stepped
      exact .empty opens added
  | closing name =>
      simp only [step] at stepped
      split at stepped
      · cases stepped
      · next opened outer stack => exact .closing stack stepped
  | text content =>
      simp only [step] at stepped
      split at stepped
      · next found added =>
          cases stepped
          exact .text added
      · next outside =>
          split at stepped
          · next blank =>
              cases stepped
              exact .textOutside (add?_eq_none_iff.mp outside) blank
          · cases stepped
  | cdata content =>
      simp only [step] at stepped
      split at stepped
      · next found added =>
          cases stepped
          exact .cdata added
      · cases stepped
  | comment content =>
      cases stepped
      cases added : progress.add? (.comment (String.ofList content)) with
      | none => exact .commentOutside (add?_eq_none_iff.mp added)
      | some found => exact .comment added
  | prolog =>
      cases stepped
      exact .prolog

theorem step_of_moves {event : Event} (moves : progress.Moves event next) (start : Nat) :
    progress.step ⟨start, event⟩ = .ok next := by
  cases moves with
  | opening opens room =>
      simp only [step]
      rw [if_neg, openElement_eq_ok opens start]
      · rfl
      · rw [Bool.and_eq_true, Option.isSome_iff_ne_none, List.isEmpty_iff]
        rintro ⟨isRoot, isEmpty⟩
        exact room.elim isRoot fun isOpen => isOpen isEmpty
  | empty opens added =>
      simp only [step]
      rw [openElement_eq_ok opens start]
      exact addElement_eq_ok added start
  | closing stack added =>
      simp only [step]
      rw [stack]
      exact addElement_eq_ok added start
  | text added => simp only [step, added]
  | cdata added => simp only [step, added]
  | comment added => simp only [step, added, Option.getD_some]
  | textOutside empty blank =>
      simp only [step, add?_eq_none_iff.mpr empty]
      exact if_pos blank
  | commentOutside empty =>
      simp only [step, add?_eq_none_iff.mpr empty, Option.getD_none]
  | prolog => rfl

/-- An event that is taken in is taken in wherever it stands, by one of the moves. -/
theorem step_eq_ok_iff {event : Event} {start : Nat} :
    progress.step ⟨start, event⟩ = .ok next ↔ progress.Moves event next :=
  ⟨moves_of_step, fun moves => step_of_moves moves start⟩

theorem step_eq_ok {event : Event} {start : Nat}
    (stepped : progress.step ⟨start, event⟩ = .ok next) (start' : Nat) :
    progress.step ⟨start', event⟩ = .ok next :=
  step_of_moves (moves_of_step stepped) start'

/-- The names of the open elements, as the builder has them. -/
def names (progress : Progress) : List (List Char) :=
  progress.stack.map (·.name.toList)

theorem names_add? {node : Node} (added : progress.add? node = some next) :
    next.names = progress.names := by
  obtain ⟨parent, outer, stack, rfl⟩ := add?_eq_some_iff.mp added
  rw [names, names, stack]
  rfl

theorem names_addElement {element : Element}
    (added : progress.addElement position element = .ok next) :
    next.names = progress.names := by
  rcases addElement_eq_ok_iff.mp added with child | ⟨_, _, rfl⟩
  · exact names_add? child
  · rfl

/-- The builder opens and closes the elements that the scanner does. -/
theorem names_of_moves {event : Event} {names' : List (List Char)}
    (moves : progress.Moves event next) (opened : openAfter progress.names event = .ok names') :
    next.names = names' := by
  cases moves with
  | opening opens _ =>
      obtain ⟨pairs, _, rfl⟩ := openElement_eq_ok_iff.mp opens
      cases opened
      rw [names, List.map_cons, String.toList_ofList]
      rfl
  | empty _ added =>
      cases opened
      exact names_addElement added
  | closing stack added =>
      rw [names, stack, List.map_cons, openAfter] at opened
      split at opened
      · cases opened
        exact names_addElement added
      · cases opened
  | text added | cdata added | comment added =>
      cases opened
      exact names_add? added
  | textOutside _ _ | commentOutside _ | prolog =>
      cases opened
      rfl

end Progress

/-- After every step, scanner and builder have the same elements open. -/
theorem Reading.names_of_step {first second : Reading} (step : Step first second)
    (same : first.progress.names = first.names) :
    second.progress.names = second.names := by
  cases step with
  | markup _ opened stepped =>
      refine Progress.names_of_moves (Progress.step_eq_ok_iff.mp stepped) ?_
      exact (congrArg (openAfter · _) same).trans opened
  | text _ _ _ stepped =>
      refine Progress.names_of_moves (Progress.step_eq_ok_iff.mp stepped) ?_
      exact congrArg Except.ok same

/-! ## From runs to parses and back -/

theorem takeMarkup_eq_ok {start stop : Nat} {text rest : List Char} {event : Event}
    (taken : takeMarkup start text = .ok (event, stop, rest)) (start' : Nat) :
    ∃ stop', takeMarkup start' text = .ok (event, stop', rest) := by
  obtain ⟨bracket, content, kind, cut, gives, _⟩ := takeMarkup_eq_ok_iff.mp taken
  exact ⟨_, takeMarkup_eq_ok_iff.mpr ⟨bracket, content, kind, cut, gives, rfl⟩⟩

/-- The event that starts at a bracket comes first. -/
theorem eventsFrom_of_takeMarkup {names names' : List (List Char)} {start stop : Nat}
    {text rest : List Char} {event : Event}
    (taken : takeMarkup start text = .ok (event, stop, rest))
    (opened : openAfter names event = .ok names') :
    eventsFrom names start ('<' :: text) =
      (⟨start, event⟩ :: (eventsFrom names' stop rest).1, (eventsFrom names' stop rest).2) := by
  rw [eventsFrom]
  split
  · next fault failed =>
      rw [taken] at failed
      cases failed
  · next found stop' after succeeded =>
      rw [taken] at succeeded
      cases succeeded
      rw [opened]

/-- A text with a bracket behind it is what stands in front of the first bracket. -/
theorem cut_text {content rest : List Char} (plain : '<' ∉ content)
    (atBracket : AtBracket rest) :
    (content ++ rest).takeWhile (· != '<') = content ∧
      (content ++ rest).dropWhile (· != '<') = rest := by
  have inside : ∀ c ∈ content, (c != '<') = true := fun c member => by
    rw [bne_iff_ne]
    rintro rfl
    exact plain member
  rw [List.takeWhile_append_of_pos inside, List.dropWhile_append_of_pos inside]
  cases rest with
  | nil => simp
  | cons c more =>
      obtain rfl : c = '<' := atBracket c rfl
      simp

/-- Text goes on up to the next bracket. -/
theorem text_split {c : Char} (notBracket : c = '<' → False) (rest : List Char) :
    c :: rest = (c :: rest.takeWhile (· != '<')) ++ rest.dropWhile (· != '<') ∧
      '<' ∉ c :: rest.takeWhile (· != '<') ∧ AtBracket (rest.dropWhile (· != '<')) := by
  refine ⟨by rw [List.cons_append, List.takeWhile_append_dropWhile], ?_, ?_⟩
  · rw [List.mem_cons, not_or]
    refine ⟨fun same => notBracket same.symm, ?_⟩
    intro member
    simpa using List.all_eq_true.mp List.all_takeWhile _ member
  · intro d starts
    have head := List.head?_dropWhile_not (· != '<') rest
    rw [Option.mem_def.mp starts] at head
    simpa using head

/-- Text up to the next bracket is one event. -/
theorem eventsFrom_of_text {names : List (List Char)} {content rest : List Char}
    (nonempty : content ≠ []) (plain : '<' ∉ content) (ends : AtBracket rest) (start : Nat) :
    eventsFrom names start (content ++ rest) =
      (⟨start, .text content⟩ ::
          (eventsFrom names (start + Text.byteLength content) rest).1,
        (eventsFrom names (start + Text.byteLength content) rest).2) := by
  cases content with
  | nil => exact absurd rfl nonempty
  | cons c more =>
      rw [List.mem_cons, not_or] at plain
      obtain ⟨taken, left⟩ := cut_text plain.2 ends
      rw [List.cons_append, eventsFrom]
      · dsimp only
        rw [taken, left]
      · exact fun same => plain.1 same.symm

/-- A run to the end of the text is what the scanner and the builder do. -/
theorem events_of_run {first last : Reading} (run : Reading.Run first last)
    (ends : last.text = []) (start : Nat) :
    (eventsFrom first.names start first.text).2 = .complete ∧
      (eventsFrom first.names start first.text).1.foldlM Progress.step first.progress =
        .ok last.progress := by
  induction run generalizing start with
  | refl state =>
      rw [ends, eventsFrom]
      exact ⟨rfl, rfl⟩
  | head step _ ih =>
      cases step with
      | markup taken opened stepped =>
          obtain ⟨stop, taken⟩ := takeMarkup_eq_ok taken start
          rw [eventsFrom_of_takeMarkup taken opened]
          exact ⟨(ih ends stop).1, foldlM_cons_eq_ok.mpr
            ⟨_, Progress.step_eq_ok stepped start, (ih ends stop).2⟩⟩
      | @text _ _ _ _ content _ nonempty plain atBracket stepped =>
          have later := ih ends (start + Text.byteLength content)
          rw [eventsFrom_of_text nonempty plain atBracket]
          exact ⟨later.1, foldlM_cons_eq_ok.mpr
            ⟨_, Progress.step_eq_ok stepped start, later.2⟩⟩

/-- Scanning and building to the end of the text is a run. -/
theorem run_of_events {names : List (List Char)} {start : Nat} {text : List Char}
    {progress final : Progress} (complete : (eventsFrom names start text).2 = .complete)
    (built : (eventsFrom names start text).1.foldlM Progress.step progress = .ok final) :
    ∃ names', Reading.Run ⟨names, progress, text⟩ ⟨names', final, []⟩ := by
  fun_induction eventsFrom names start text generalizing progress with
  | case1 names start =>
      cases built
      exact ⟨names, .refl _⟩
  | case2 names start text position fault failed => cases complete
  | case3 names start text event stop rest taken fault failed => cases complete
  | case4 names start text event stop rest taken names' opened events ending later ih =>
      rw [later] at ih
      obtain ⟨next, stepped, built⟩ := foldlM_cons_eq_ok.mp built
      obtain ⟨names'', run⟩ := ih complete built
      exact ⟨names'', .head (.markup taken opened stepped) run⟩
  | case5 names start c rest notBracket content events ending later =>
      rename_i ih
      rw [later] at ih
      obtain ⟨next, stepped, built⟩ := foldlM_cons_eq_ok.mp built
      obtain ⟨names', run⟩ := ih complete built
      obtain ⟨whole, plain, atBracket⟩ := text_split notBracket rest
      rw [whole]
      exact ⟨names', .head (.text (List.cons_ne_nil _ _) plain atBracket stepped) run⟩

theorem Progress.finish_eq_ok_iff {progress : Progress} {size : Nat} {root : Element} :
    progress.finish size = .ok root ↔ progress = ⟨[], some root⟩ := by
  obtain ⟨stack, found⟩ := progress
  cases stack with
  | nil => cases found <;> simp [Progress.finish]
  | cons element outer => simp [Progress.finish]

/-- What the scanner and the builder do when a document is parsed. -/
theorem parse_eq_ok_iff_events {markup : String} {root : Element} :
    parse markup = .ok root ↔
      (events markup.toList).2 = .complete ∧
        (events markup.toList).1.foldlM Progress.step Progress.start =
          .ok ⟨[], some root⟩ := by
  unfold parse
  split
  next placed ending scanned =>
    rw [scanned]
    dsimp only
    split
    · next fault failed => simp [failed]
    · next progress built =>
        rw [built, Except.ok.injEq]
        split
        · simp
        · rw [Progress.finish_eq_ok_iff]
          simp

/-- A document is parsed exactly when a run leads from the whole text to it. -/
theorem parse_eq_ok_iff {markup : String} {root : Element} :
    parse markup = .ok root ↔
      ∃ names, Reading.Run ⟨[], Progress.start, withoutMark markup.toList⟩
        ⟨names, ⟨[], some root⟩, []⟩ := by
  rw [parse_eq_ok_iff_events]
  constructor
  · rintro ⟨complete, built⟩
    exact run_of_events complete built
  · rintro ⟨names, run⟩
    exact events_of_run run rfl 0

end ThemedSvg.Markup

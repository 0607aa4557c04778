/-
# Documents are their events

The builder takes in one event after the other and keeps a stack of open elements. What it
has seen is at all times what stands before the root, the open elements with their content
so far, or the root and what is behind it. So markup is parsed exactly if its events are one
element with nothing of note around it, and the tree has the items of these events, each
in its place. That end tags close what is open is seen to by the scanner, which has the same
names open as the builder.
-/

import ThemedSvg.Proofs.Items

namespace ThemedSvg.Markup

namespace Progress

variable {progress next last : Progress} {event : Event} {events later : List Event}

/-- The moves that events make, one after the other. -/
inductive Takes : Progress → List Event → Progress → Prop
  | nil {progress : Progress} : Takes progress [] progress
  | cons {progress next last : Progress} {event : Event} {events : List Event} :
      progress.Moves event next → Takes next events last → Takes progress (event :: events) last

theorem Takes.append (first : Takes progress events next) (second : Takes next later last) :
    Takes progress (events ++ later) last := by
  induction first with
  | nil => exact second
  | cons moves _ ih => exact .cons moves (ih second)

theorem foldlM_step_eq_ok_iff {placed : List PlacedEvent} :
    placed.foldlM step progress = .ok last ↔ Takes progress (placed.map (·.event)) last := by
  induction placed generalizing progress with
  | nil =>
      constructor
      · intro built
        cases built
        exact .nil
      · intro takes
        cases takes
        rfl
  | cons first rest ih =>
      rw [foldlM_cons_eq_ok, List.map_cons]
      constructor
      · rintro ⟨next, stepped, built⟩
        exact .cons (step_eq_ok_iff.mp stepped) (ih.mp built)
      · rintro (_ | ⟨moves, takes⟩)
        exact ⟨_, step_eq_ok_iff.mpr moves, ih.mpr takes⟩

theorem openElement_eq_ok_iff_slots {position : Nat} {content : List Char}
    {opened : OpenElement} :
    openElement position content = .ok opened ↔
      (∃ pairs, attributes content = .ok pairs ∧ (pairs.map (·.1)).Nodup) ∧
        opened = ⟨String.ofList (tagName content), slots content, []⟩ := by
  rw [openElement_eq_ok_iff]
  constructor
  · rintro ⟨pairs, reads, rfl⟩
    refine ⟨⟨pairs, reads, (readsAs_of_attributesFrom reads).2.1⟩, ?_⟩
    rw [slots, reads]
  · rintro ⟨⟨pairs, reads, _⟩, rfl⟩
    refine ⟨pairs, reads, ?_⟩
    rw [slots, reads]

/-- Only tags that can be read are taken in. -/
theorem decodes_of_moves (moves : progress.Moves event next) : event.Decodes := by
  cases moves with
  | opening opens _ => exact (openElement_eq_ok_iff_slots.mp opens).1
  | empty opens _ => exact (openElement_eq_ok_iff_slots.mp opens).1
  | closing _ _ | text _ | cdata _ | comment _ | textOutside _ _ | commentOutside _ | prolog =>
      trivial

theorem Takes.decodes (takes : Takes progress events last) : ∀ event ∈ events, event.Decodes := by
  induction takes with
  | nil => simp
  | cons moves _ ih => exact List.forall_mem_cons.mpr ⟨decodes_of_moves moves, ih⟩

/-! ## What has been seen -/

/-- The events of open elements, the outermost first: each with the content that it has
so far. -/
inductive Opened : List Event → List OpenElement → Prop
  | none : Opened [] []
  | element {seen inside : List Event} {content : List Char} {reversed : List Node}
      {outer : List OpenElement} :
      Opened seen outer → IsContent inside →
        Node.itemsOf reversed.reverse = inside.flatMap Event.items →
        Opened (seen ++ .opening content :: inside)
          (⟨String.ofList (tagName content), slots content, reversed⟩ :: outer)

/-- More content goes to the innermost open element. -/
theorem Opened.extend {seen : List Event} {parent : OpenElement} {outer : List OpenElement}
    (opened : Opened seen (parent :: outer)) (nodes : List Node) (isContent : IsContent events)
    (items : Node.itemsOf nodes = events.flatMap Event.items) :
    Opened (seen ++ events) (parent.addAll nodes :: outer) := by
  cases opened with
  | @element seen inside content reversed _ opened isInside told =>
      rw [List.append_assoc, List.cons_append]
      refine .element opened (isInside.append isContent) ?_
      rw [List.reverse_append, List.reverse_reverse, Node.itemsOf_append, told, items,
        List.flatMap_append]

/-- What a document under construction has seen. -/
inductive Sees : List Event → Progress → Prop
  | inside {before seen : List Event} {stack : List OpenElement} :
      (∀ event ∈ before, event.IsOutside) → Opened seen stack →
        Sees (before ++ seen) ⟨stack, none⟩
  | behind {before inside after : List Event} {root : Element} :
      (∀ event ∈ before, event.IsOutside) → IsElement inside →
        (∀ event ∈ after, event.IsOutside) → root.items = inside.flatMap Event.items →
        Sees (before ++ inside ++ after) ⟨[], some root⟩

/-- A complete element is content of the one around it, or the root. -/
theorem sees_addElement {before seen : List Event} {outer : List OpenElement}
    {element : Element} {position : Nat} (outside : ∀ event ∈ before, event.IsOutside)
    (opened : Opened seen outer) (isElement : IsElement events)
    (items : element.items = events.flatMap Event.items)
    (added : addElement ⟨outer, none⟩ position element = .ok next) :
    Sees (before ++ seen ++ events) next := by
  rcases addElement_eq_ok_iff.mp added with child | ⟨isEmpty, _, rfl⟩
  · obtain ⟨parent, rest, rfl, rfl⟩ := add?_eq_some_iff.mp child
    rw [List.append_assoc]
    refine .inside outside (opened.extend [.element element] isElement.isContent ?_)
    rw [Node.itemsOf, Node.itemsOf, List.append_nil, Node.items, items]
  · cases isEmpty
    cases opened
    have sees : Sees (before ++ events ++ []) ⟨[], some element⟩ :=
      .behind outside isElement (by simp) items
    rwa [List.append_nil] at sees ⊢

/-- Text, character data and comments are content of the element around them. -/
theorem sees_add? {seen : List Event} {node : Node} (sees : Sees seen progress)
    (isWhole : event.IsWhole) (items : node.items = event.items)
    (added : progress.add? node = some next) : Sees (seen ++ [event]) next := by
  obtain ⟨parent, outer, stack, rfl⟩ := add?_eq_some_iff.mp added
  cases sees with
  | inside outside opened =>
      cases stack
      rw [List.append_assoc]
      refine .inside outside (opened.extend [node] (.whole isWhole .nil) ?_)
      rw [Node.itemsOf, Node.itemsOf, List.append_nil, List.flatMap_singleton, items]
  | behind => cases stack

/-- What may stand around the root is passed over there. -/
theorem sees_outside {seen : List Event} (sees : Sees seen progress)
    (isEmpty : progress.stack = []) (outside : event.IsOutside) :
    Sees (seen ++ [event]) progress := by
  cases sees with
  | @inside before _ _ isBefore opened =>
      cases isEmpty
      cases opened
      have sees : Sees (before ++ [event] ++ []) ⟨[], none⟩ := .inside
        (List.forall_mem_append.mpr ⟨isBefore, List.forall_mem_singleton.mpr outside⟩) .none
      rwa [List.append_nil] at sees ⊢
  | behind before isElement after items =>
      rw [List.append_assoc]
      exact .behind before isElement
        (List.forall_mem_append.mpr ⟨after, List.forall_mem_singleton.mpr outside⟩) items

/-- The case that needs the scanner is the end tag: it names the innermost open element, so
that the two are a pair. -/
theorem sees_of_moves {seen : List Event} {names' : List (List Char)}
    (sees : Sees seen progress) (moves : progress.Moves event next)
    (opened : openAfter progress.names event = .ok names') : Sees (seen ++ [event]) next := by
  cases moves with
  | @opening _ content _ opens room =>
      obtain ⟨_, rfl⟩ := openElement_eq_ok_iff_slots.mp opens
      cases sees with
      | inside outside isOpened =>
          rw [List.append_assoc]
          exact .inside outside (.element isOpened .nil rfl)
      | behind => simp at room
  | @empty _ content _ _ opens added =>
      obtain ⟨_, rfl⟩ := openElement_eq_ok_iff_slots.mp opens
      cases sees with
      | inside outside isOpened =>
          exact sees_addElement outside isOpened (.empty content) rfl added
      | behind =>
          rcases addElement_eq_ok_iff.mp added with child | ⟨_, fresh, _⟩
          · cases child
          · cases fresh
  | closing stack added =>
      cases sees with
      | behind => cases stack
      | inside outside isOpened =>
          cases stack
          cases isOpened with
          | @element seen inside content reversed outer isOuter isInside told =>
              rw [names, List.map_cons, String.toList_ofList, openAfter] at opened
              split at opened
              · next name =>
                  have isElement : IsElement
                      (.opening content :: (inside ++ [.closing (tagName content)])) :=
                    .paired isInside
                  have closed := sees_addElement outside isOuter isElement ?_ added
                  · rw [name]
                    simpa only [List.append_assoc, List.cons_append] using closed
                  · simp [OpenElement.close, Element.items, told, Event.items]
              · cases opened
  | text added => exact sees_add? sees trivial rfl added
  | cdata added => exact sees_add? sees trivial rfl added
  | comment added => exact sees_add? sees trivial rfl added
  | textOutside isEmpty blank => exact sees_outside sees isEmpty blank
  | commentOutside isEmpty => exact sees_outside sees isEmpty trivial
  | prolog =>
      cases sees with
      | behind before isElement after items =>
          exact sees_outside (.behind before isElement after items) rfl trivial
      | @inside before seen stack outside isOpened =>
          cases stack with
          | nil => exact sees_outside (.inside outside isOpened) rfl trivial
          | cons parent outer =>
              rw [List.append_assoc]
              exact .inside outside (isOpened.extend [] (.whole trivial .nil) rfl)

/-- A run of builder and scanner over the same events keeps them in step. -/
theorem sees_of_takes {seen : List Event} {names' : List (List Char)} (sees : Sees seen progress)
    (takes : Takes progress events last)
    (opened : events.foldlM openAfter progress.names = .ok names') :
    Sees (seen ++ events) last ∧ last.names = names' := by
  induction takes generalizing seen with
  | nil =>
      cases opened
      rw [List.append_nil]
      exact ⟨sees, rfl⟩
  | @cons progress next last event events moves _ ih =>
      obtain ⟨middle, first, later⟩ := foldlM_cons_eq_ok.mp opened
      have sees' := sees_of_moves sees moves first
      rw [← names_of_moves moves first] at later
      have whole := ih sees' later
      rwa [List.append_assoc, List.singleton_append] at whole

/-! ## What can be taken in -/

/-- An event that is no half of a pair becomes at most one child. -/
theorem moves_of_isWhole (isWhole : event.IsWhole) (decodes : event.Decodes) :
    ∃ nodes, Node.itemsOf nodes = event.items ∧
      ∀ parent outer root,
        Moves ⟨parent :: outer, root⟩ event ⟨parent.addAll nodes :: outer, root⟩ := by
  cases event with
  | opening content => cases isWhole
  | closing name => cases isWhole
  | empty content =>
      refine ⟨[.element ⟨String.ofList (tagName content), slots content, []⟩], rfl, ?_⟩
      intro parent outer root
      have opens : openElement 0 content = .ok _ :=
        openElement_eq_ok_iff_slots.mpr ⟨decodes, rfl⟩
      exact .empty opens rfl
  | text content => exact ⟨[.text (String.ofList content)], rfl, fun _ _ _ => .text rfl⟩
  | cdata content => exact ⟨[.cdata (String.ofList content)], rfl, fun _ _ _ => .cdata rfl⟩
  | comment content => exact ⟨[.comment (String.ofList content)], rfl, fun _ _ _ => .comment rfl⟩
  | prolog => exact ⟨[], rfl, fun _ _ _ => .prolog⟩

/-- Where an element can be added, its tags can be taken in, if its content can. -/
theorem takes_paired {content : List Char} {inside : List Event} {nodes : List Node}
    (decodes : (Event.opening content).Decodes)
    (takesInside : ∀ parent outer root,
      Takes ⟨parent :: outer, root⟩ inside ⟨parent.addAll nodes :: outer, root⟩)
    (added : progress.addElement 0 ⟨String.ofList (tagName content), slots content, nodes⟩ =
      .ok next) :
    Takes progress (.opening content :: (inside ++ [.closing (tagName content)])) next := by
  have opens : openElement 0 content = .ok _ :=
    openElement_eq_ok_iff_slots.mpr ⟨decodes, rfl⟩
  have closes : progress.addElement 0
      (OpenElement.addAll ⟨String.ofList (tagName content), slots content, []⟩ nodes).close =
        .ok next := by
    simpa [OpenElement.close, OpenElement.addAll] using added
  exact .cons (.opening opens (room_of_addElement added))
    ((takesInside _ _ _).append (.cons (.closing rfl closes) .nil))

/-- Content that can be read becomes children of the innermost open element. -/
theorem takes_of_isContent (isContent : IsContent events)
    (decode : ∀ event ∈ events, event.Decodes) :
    ∃ nodes, Node.itemsOf nodes = events.flatMap Event.items ∧
      ∀ parent outer root,
        Takes ⟨parent :: outer, root⟩ events ⟨parent.addAll nodes :: outer, root⟩ := by
  induction isContent with
  | nil => exact ⟨[], rfl, fun parent outer root => .nil⟩
  | @whole event rest isWhole _ ih =>
      obtain ⟨decodes, decode⟩ := List.forall_mem_cons.mp decode
      obtain ⟨first, items, moves⟩ := moves_of_isWhole isWhole decodes
      obtain ⟨later, items', takes⟩ := ih decode
      refine ⟨first ++ later, ?_, ?_⟩
      · rw [Node.itemsOf_append, items, items', List.flatMap_cons]
      · intro parent outer root
        rw [OpenElement.addAll_append]
        exact .cons (moves parent outer root) (takes _ outer root)
  | @paired content inside rest _ _ ihInside ihRest =>
      obtain ⟨decodes, decode⟩ := List.forall_mem_cons.mp decode
      obtain ⟨decode, decode'⟩ := List.forall_mem_append.mp decode
      obtain ⟨nodes, items, takesInside⟩ := ihInside decode
      obtain ⟨later, items', takes⟩ := ihRest (List.forall_mem_cons.mp decode').2
      refine ⟨.element ⟨String.ofList (tagName content), slots content, nodes⟩ :: later, ?_, ?_⟩
      · simp [Node.itemsOf, Node.items, Element.items, items, items', Event.items]
      · intro parent outer root
        have first : Takes ⟨parent :: outer, root⟩ _ ⟨parent.add _ :: outer, root⟩ :=
          takes_paired decodes takesInside rfl
        have whole := first.append (takes _ outer root)
        rwa [← OpenElement.addAll_cons, List.cons_append, List.append_assoc,
          List.singleton_append] at whole

/-- An element that can be read is added as the tree that has its items. -/
theorem takes_of_isElement (isElement : IsElement events)
    (decode : ∀ event ∈ events, event.Decodes) :
    ∃ element : Element, element.items = events.flatMap Event.items ∧
      ∀ progress next, progress.addElement 0 element = .ok next → Takes progress events next := by
  cases isElement with
  | empty content =>
      refine ⟨⟨String.ofList (tagName content), slots content, []⟩, rfl, ?_⟩
      intro progress next added
      have opens : openElement 0 content = .ok _ :=
        openElement_eq_ok_iff_slots.mpr ⟨decode _ List.mem_cons_self, rfl⟩
      exact .cons (.empty opens added) .nil
  | @paired content inside isInside =>
      obtain ⟨decodes, decode⟩ := List.forall_mem_cons.mp decode
      obtain ⟨decode, _⟩ := List.forall_mem_append.mp decode
      obtain ⟨nodes, items, takesInside⟩ := takes_of_isContent isInside decode
      refine ⟨⟨String.ofList (tagName content), slots content, nodes⟩, ?_, ?_⟩
      · simp [Element.items, items, Event.items]
      · intro progress next added
        exact takes_paired decodes takesInside added

theorem takes_of_isOutside (isEmpty : progress.stack = [])
    (outside : ∀ event ∈ events, event.IsOutside) : Takes progress events progress := by
  induction events with
  | nil => exact .nil
  | cons event rest ih =>
      obtain ⟨isOutside, outside⟩ := List.forall_mem_cons.mp outside
      refine .cons ?_ (ih outside)
      cases event with
      | text content => exact .textOutside isEmpty isOutside
      | comment content => exact .commentOutside isEmpty
      | prolog => exact .prolog
      | opening content => cases isOutside
      | empty content => cases isOutside
      | closing name => cases isOutside
      | cdata content => cases isOutside

/-- Opening a tag fails for what is in the tag. -/
theorem openElement_ne_endWithoutStart (start position : Nat) (content : List Char) :
    openElement start content ≠ .error (.malformed position .endWithoutStart) := by
  rw [openElement]
  cases attributes content with
  | error fault => simp
  | ok pairs => simp

/-- An element can only be one root too many. -/
theorem addElement_ne_endWithoutStart (progress : Progress) (start position : Nat)
    (element : Element) :
    progress.addElement start element ≠ .error (.malformed position .endWithoutStart) := by
  rw [addElement]
  split
  · simp
  · split
    · simp
    · simp

/-- The one branch where the builder itself would find an end tag to be wrong. -/
theorem eq_closing_of_endWithoutStart {placed : PlacedEvent} {position : Nat}
    (fails : progress.step placed = .error (.malformed position .endWithoutStart)) :
    progress.stack = [] ∧ ∃ name, placed.event = .closing name := by
  obtain ⟨start, event⟩ := placed
  cases event with
  | opening content =>
      simp only [step] at fails
      split at fails
      · cases fails
      · rcases bind_eq_error.mp fails with opens | ⟨opened, _, fails⟩
        · exact absurd opens (openElement_ne_endWithoutStart start position content)
        · cases fails
  | empty content =>
      rcases bind_eq_error.mp fails with opens | ⟨opened, _, fails⟩
      · exact absurd opens (openElement_ne_endWithoutStart start position content)
      · exact absurd fails (addElement_ne_endWithoutStart progress start position opened.close)
  | closing name =>
      refine ⟨?_, name, rfl⟩
      simp only [step] at fails
      split at fails
      · next isEmpty => exact isEmpty
      · exact absurd fails (addElement_ne_endWithoutStart _ start position _)
  | text content =>
      simp only [step] at fails
      split at fails
      · cases fails
      · split at fails
        · cases fails
        · cases fails
  | cdata content =>
      simp only [step] at fails
      split at fails
      · cases fails
      · cases fails
  | comment content => cases fails
  | prolog => cases fails

end Progress

/-! ## Parsing -/

/-- The scanner reads no event that its open names do not allow. -/
theorem exists_foldlM_openAfter (names : List (List Char)) (start : Nat) (text : List Char) :
    ∃ names', ((eventsFrom names start text).1.map (·.event)).foldlM openAfter names =
      .ok names' := by
  fun_induction eventsFrom names start text with
  | case1 names start => exact ⟨names, rfl⟩
  | case2 names start text position fault failed => exact ⟨names, rfl⟩
  | case3 names start text event stop rest taken fault failed => exact ⟨names, rfl⟩
  | case4 names start text event stop rest taken names' opened events ending later ih =>
      rw [later] at ih
      obtain ⟨names'', allowed⟩ := ih
      exact ⟨names'', foldlM_cons_eq_ok.mpr ⟨names', opened, allowed⟩⟩
  | case5 names start c rest notBracket content events ending later =>
      rename_i ih
      rw [later] at ih
      obtain ⟨names', allowed⟩ := ih
      exact ⟨names', foldlM_cons_eq_ok.mpr ⟨names, rfl, allowed⟩⟩

/-- What the builder has seen of markup. It has the names open that the scanner has, and the
scanner allows what comes next. -/
theorem sees_of_events {markup : String} {seen behind : List PlacedEvent} {progress : Progress}
    (split : (events markup.toList).1 = seen ++ behind)
    (built : seen.foldlM Progress.step Progress.start = .ok progress) :
    Progress.Sees (seen.map (·.event)) progress ∧
      (seen.map (·.event)).foldlM openAfter [] = .ok progress.names ∧
      ∃ names, (behind.map (·.event)).foldlM openAfter progress.names = .ok names := by
  obtain ⟨last, allowed⟩ := exists_foldlM_openAfter [] 0 (withoutMark markup.toList)
  change ((events markup.toList).1.map _).foldlM openAfter [] = _ at allowed
  rw [split, List.map_append] at allowed
  obtain ⟨names, first, later⟩ := foldlM_append_eq_ok.mp allowed
  have start : Progress.Sees ([] ++ []) Progress.start := .inside (by simp) .none
  obtain ⟨sees, rfl⟩ := Progress.sees_of_takes start
    (Progress.foldlM_step_eq_ok_iff.mp built) first
  exact ⟨sees, first, last, later⟩

/-- Events that are one complete element with nothing around it but white space, comments
and prolog, and the items that the element tells. -/
def IsDocument (events : List Event) (items : List Item) : Prop :=
  ∃ before inside after, events = before ++ inside ++ after ∧
    (∀ event ∈ before, event.IsOutside) ∧ IsElement inside ∧
    (∀ event ∈ after, event.IsOutside) ∧ items = inside.flatMap Event.items

/-- A document that can be read is taken in, and leaves the tree that has its items. -/
theorem IsDocument.exists_takes {events : List Event} {items : List Item}
    (isDocument : IsDocument events items) (decode : ∀ event ∈ events, event.Decodes) :
    ∃ root : Element, root.items = items ∧
      Progress.Takes Progress.start events ⟨[], some root⟩ := by
  obtain ⟨before, inside, after, rfl, outside, isElement, outside', rfl⟩ := isDocument
  obtain ⟨root, told, takes⟩ := Progress.takes_of_isElement isElement
    fun event member => decode event (List.mem_append_left _ (List.mem_append_right _ member))
  refine ⟨root, told, ?_⟩
  have first := (Progress.takes_of_isOutside rfl outside).append (takes Progress.start _ rfl)
  exact first.append (Progress.takes_of_isOutside rfl outside')

/-- Where the events end well, can be read and are a document, the document that is parsed
has just the items that they tell. -/
theorem parse_eq_ok_iff_isDocument {markup : String} {root : Element} :
    parse markup = .ok root ↔
      (events markup.toList).2 = .complete ∧
        (∀ event ∈ (events markup.toList).1.map (·.event), event.Decodes) ∧
        IsDocument ((events markup.toList).1.map (·.event)) root.items := by
  rw [parse_eq_ok_iff_events]
  apply and_congr_right
  intro complete
  rw [Progress.foldlM_step_eq_ok_iff]
  constructor
  · intro takes
    refine ⟨takes.decodes, ?_⟩
    have built := Progress.foldlM_step_eq_ok_iff.mpr takes
    obtain ⟨sees, _⟩ := sees_of_events (List.append_nil _).symm built
    generalize (events markup.toList).1.map (·.event) = whole at sees
    cases sees with
    | behind outside isElement outside' items =>
        exact ⟨_, _, _, rfl, outside, isElement, outside', items⟩
  · rintro ⟨decode, isDocument⟩
    obtain ⟨other, same, takes⟩ := isDocument.exists_takes decode
    obtain rfl := Element.items_inj.mp same
    exact takes

/-- The builder never meets an end tag with nothing open, for the scanner would have nothing
open either, and would have ended there. -/
theorem parse_ne_endWithoutStart (markup : String) (position : Nat) :
    parse markup ≠ .error (.malformed position .endWithoutStart) := by
  intro parsed
  have fails : (events markup.toList).1.foldlM Progress.step Progress.start =
      .error (.malformed position .endWithoutStart) := by
    unfold parse at parsed
    split at parsed
    next placed ending scanned =>
      rw [scanned]
      split at parsed
      · next fault failed =>
          cases parsed
          exact failed
      · next progress built =>
          split at parsed
          · cases parsed
          · rw [Progress.finish] at parsed
            split at parsed
            · cases parsed
            · cases parsed
            · cases parsed
  obtain ⟨seen, placed, behind, progress, split, built, fails⟩ := exists_of_foldlM_eq_error fails
  obtain ⟨isEmpty, name, isClosing⟩ := Progress.eq_closing_of_endWithoutStart fails
  obtain ⟨_, _, names, later⟩ := sees_of_events split built
  rw [List.map_cons] at later
  obtain ⟨_, closes, _⟩ := foldlM_cons_eq_ok.mp later
  rw [isClosing, Progress.names, isEmpty] at closes
  cases closes

/-- Parsing builds the tree of the events, and it does so whenever they make one: reading
ends well, every tag can be read, and the events are one element with nothing of note around
it. The items of the tree are those that the events tell, in their order, and no other tree
has them. At every event the builder has those elements open that the scanner has. -/
theorem parse_builds_events (markup : String) :
    (∀ root, parse markup = .ok root ↔
      (events markup.toList).2 = .complete ∧
        (∀ event ∈ (events markup.toList).1.map (·.event), event.Decodes) ∧
        IsDocument ((events markup.toList).1.map (·.event)) root.items) ∧
      ((∃ root, parse markup = .ok root) ↔
        (events markup.toList).2 = .complete ∧
          (∀ event ∈ (events markup.toList).1.map (·.event), event.Decodes) ∧
          ∃ items, IsDocument ((events markup.toList).1.map (·.event)) items) ∧
      (∀ root other : Element, root.items = other.items ↔ root = other) ∧
      (∀ position, parse markup ≠ .error (.malformed position .endWithoutStart)) ∧
      ∀ seen behind progress, (events markup.toList).1 = seen ++ behind →
        seen.foldlM Progress.step Progress.start = .ok progress →
        (seen.map (·.event)).foldlM openAfter [] = .ok progress.names := by
  refine ⟨fun root => parse_eq_ok_iff_isDocument, ⟨?_, ?_⟩, fun root other => Element.items_inj,
    parse_ne_endWithoutStart markup, ?_⟩
  · rintro ⟨root, parsed⟩
    obtain ⟨complete, decode, isDocument⟩ := parse_eq_ok_iff_isDocument.mp parsed
    exact ⟨complete, decode, root.items, isDocument⟩
  · rintro ⟨complete, decode, items, isDocument⟩
    obtain ⟨root, rfl, _⟩ := isDocument.exists_takes decode
    exact ⟨root, parse_eq_ok_iff_isDocument.mpr ⟨complete, decode, isDocument⟩⟩
  · intro seen behind progress split built
    exact (sees_of_events split built).2.1

end ThemedSvg.Markup

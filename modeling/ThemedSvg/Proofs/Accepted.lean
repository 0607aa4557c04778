/-
# What the reader accepts

Markup of any kind is read into trees of one kind: no holes, no attribute twice, no
content that holds its own end. Only names can be odd, and only texts can stand side
by side, where a comment outside or an instruction inside was dropped between them.
The conditions hold of every event, and each step keeps them.
-/

import ThemedSvg.Proofs.RoundTrip

namespace ThemedSvg.Markup

/-- The content of an event ends where its markup does. -/
def Event.IsSound : Event → Prop
  | text content => content ≠ [] ∧ '<' ∉ content
  | cdata content => ¬ HoldsTerminator ']' content
  | comment content => ¬ HoldsTerminator '-' content
  | _ => True

theorem isSound_of_spells {content : List Char} {event : Event}
    (spells : Spells content event) : event.IsSound := by
  cases spells with
  | comment clear => exact clear
  | cdata clear => exact clear
  | opening => trivial
  | empty => trivial
  | closing => trivial
  | prolog => trivial

end Markup

/-- What the reader makes of any markup. -/
structure Element.IsAccepted (element : Element) : Prop where
  literals : element.HasLiterals
  distinct : element.HasDistinctNames
  sound : element.HasSoundContent

instance : DecidablePred Element.IsAccepted := fun element =>
  decidable_of_iff
    (element.HasLiterals ∧ element.HasDistinctNames ∧ element.HasSoundContent)
    ⟨fun ⟨literals, distinct, sound⟩ => ⟨literals, distinct, sound⟩,
      fun accepted => ⟨accepted.literals, accepted.distinct, accepted.sound⟩⟩

/-- A node with nothing but accepted elements in it. -/
structure Node.IsAccepted (node : Node) : Prop where
  sound : node.IsSound
  below : ∀ child, node = .element child → child.Each Element.IsAccepted

namespace Node

theorem isAccepted_element {child : Element} (each : child.Each Element.IsAccepted) :
    IsAccepted (.element child) where
  sound := trivial
  below _ same := element.inj same ▸ each

theorem isAccepted_text {content : List Char} (nonempty : content ≠ [])
    (plain : '<' ∉ content) : IsAccepted (.text (String.ofList content)) where
  sound := by
    rw [IsSound, String.toList_ofList]
    exact ⟨fun empty => nonempty (String.ofList_eq_empty_iff.mp empty), plain⟩
  below _ same := nomatch same

theorem isAccepted_cdata {content : List Char} (clear : ¬ Markup.HoldsTerminator ']' content) :
    IsAccepted (.cdata (String.ofList content)) where
  sound := by
    rw [IsSound, String.toList_ofList]
    exact clear
  below _ same := nomatch same

theorem isAccepted_comment {content : List Char}
    (clear : ¬ Markup.HoldsTerminator '-' content) :
    IsAccepted (.comment (String.ofList content)) where
  sound := by
    rw [IsSound, String.toList_ofList]
    exact clear
  below _ same := nomatch same

end Node

namespace Markup

/-- An open element that is accepted so far. -/
structure OpenElement.IsAccepted (opened : OpenElement) : Prop where
  literals : ∀ slot ∈ opened.attributes, slot.value.literal?.isSome
  distinct : (opened.attributes.map (·.name)).Nodup
  children : ∀ node ∈ opened.reversed, node.IsAccepted

/-- A document that is accepted so far. -/
structure Progress.IsAccepted (progress : Progress) : Prop where
  stack : ∀ opened ∈ progress.stack, opened.IsAccepted
  root : ∀ root ∈ progress.root, root.Each Element.IsAccepted

theorem OpenElement.IsAccepted.add {parent : OpenElement} {node : Node}
    (accepted : parent.IsAccepted) (isNode : node.IsAccepted) : (parent.add node).IsAccepted where
  literals := accepted.literals
  distinct := accepted.distinct
  children := List.forall_mem_cons.mpr ⟨isNode, accepted.children⟩

/-- An open element that is accepted so far is accepted when it is closed. -/
theorem OpenElement.IsAccepted.close {opened : OpenElement} (accepted : opened.IsAccepted) :
    opened.close.Each Element.IsAccepted := by
  have children : ∀ node ∈ opened.reversed.reverse, node.IsAccepted := fun node member =>
    accepted.children node (List.mem_reverse.mp member)
  refine Element.each_mk.mpr ⟨⟨accepted.literals, accepted.distinct, ?_⟩, ?_⟩
  · exact fun node member => (children node member).sound
  · exact fun child member => (children _ member).below child rfl

/-- The keys of a tag differ, so the names of its attributes do. -/
theorem isAccepted_of_openElement {content : List Char} {position : Nat}
    {opened : OpenElement} (opens : Progress.openElement position content = .ok opened) :
    opened.IsAccepted := by
  obtain ⟨pairs, reads, rfl⟩ := Progress.openElement_eq_ok_iff.mp opens
  obtain ⟨_, distinct, _⟩ := readsAs_of_attributesFrom reads
  refine ⟨?_, ?_, List.forall_mem_nil _⟩
  · intro slot member
    obtain ⟨pair, _, rfl⟩ := List.mem_map.mp member
    rfl
  · have names : (pairs.map Progress.slotOf).map (·.name) =
        (pairs.map (·.1)).map String.ofList := by
      rw [List.map_map, List.map_map]
      rfl
    rw [names]
    apply List.Pairwise.map _ _ distinct
    intro first second differ same
    exact differ (String.ofList_injective same)

/-- An accepted node keeps a document accepted, wherever it is added. -/
theorem isAccepted_add? {progress next : Progress} {node : Node}
    (accepted : progress.IsAccepted) (isNode : node.IsAccepted)
    (added : progress.add? node = some next) : next.IsAccepted := by
  obtain ⟨parent, outer, stack, rfl⟩ := Progress.add?_eq_some_iff.mp added
  have all := accepted.stack
  rw [stack, List.forall_mem_cons] at all
  exact ⟨List.forall_mem_cons.mpr ⟨all.1.add isNode, all.2⟩, accepted.root⟩

theorem isAccepted_addElement {progress next : Progress} {element : Element} {position : Nat}
    (accepted : progress.IsAccepted) (each : element.Each Element.IsAccepted)
    (added : progress.addElement position element = .ok next) : next.IsAccepted := by
  rcases Progress.addElement_eq_ok_iff.mp added with child | ⟨_, _, rfl⟩
  · exact isAccepted_add? accepted (Node.isAccepted_element each) child
  · refine ⟨accepted.stack, ?_⟩
    intro root isRoot
    cases isRoot
    exact each

/-- Taking in an event whose content is sound keeps a document accepted. -/
theorem isAccepted_of_moves {progress next : Progress} {event : Event}
    (accepted : progress.IsAccepted) (sound : event.IsSound)
    (moves : progress.Moves event next) : next.IsAccepted := by
  cases moves with
  | opening opens =>
      have isOpened := isAccepted_of_openElement opens
      exact ⟨List.forall_mem_cons.mpr ⟨isOpened, accepted.stack⟩, accepted.root⟩
  | empty opens added =>
      exact isAccepted_addElement accepted (isAccepted_of_openElement opens).close added
  | @closing _ name opened outer next stack added =>
      have all := accepted.stack
      rw [stack, List.forall_mem_cons] at all
      have outside : Progress.IsAccepted { progress with stack := outer } :=
        ⟨all.2, accepted.root⟩
      exact isAccepted_addElement outside all.1.close added
  | text added => exact isAccepted_add? accepted (Node.isAccepted_text sound.1 sound.2) added
  | cdata added => exact isAccepted_add? accepted (Node.isAccepted_cdata sound) added
  | comment added => exact isAccepted_add? accepted (Node.isAccepted_comment sound) added
  | textOutside => exact accepted
  | commentOutside => exact accepted
  | prolog => exact accepted

theorem isAccepted_reading_step {first second : Reading} (step : Reading.Step first second)
    (accepted : first.progress.IsAccepted) : second.progress.IsAccepted := by
  cases step with
  | markup taken _ stepped =>
      obtain ⟨content, _, spells⟩ := spells_of_takeMarkup taken
      exact isAccepted_of_moves accepted (isSound_of_spells spells)
        (Progress.step_eq_ok_iff.mp stepped)
  | @text _ _ _ _ content _ nonempty plain _ stepped =>
      have sound : (Event.text content).IsSound := ⟨nonempty, plain⟩
      exact isAccepted_of_moves accepted sound (Progress.step_eq_ok_iff.mp stepped)

/-- Every tree that is parsed is made of accepted elements. -/
theorem each_isAccepted_of_parse {markup : String} {root : Element}
    (parsed : parse markup = .ok root) : root.Each Element.IsAccepted := by
  obtain ⟨names, run⟩ := parse_eq_ok_iff.mp parsed
  have start : Progress.start.IsAccepted := ⟨List.forall_mem_nil _, nofun⟩
  have accepted := run.invariant (fun state => state.progress.IsAccepted)
    isAccepted_reading_step start
  exact accepted.root root rfl

end Markup

end ThemedSvg

/-
# Reading what was written

A readable tree is written piece by piece, and each piece is one step of reading: a
tag, a text up to the next bracket, a comment or character data. This module puts
these steps together along the tree. Holes make no difference, because the text they
resolve to is escaped like any other.
-/

import ThemedSvg.Proofs.Joining
import ThemedSvg.Proofs.Reading

namespace ThemedSvg.Markup

/-! ## Pieces of markup -/

theorem bracket_of_cons {first : Char} (notMark : first ≠ '!') (notQuestion : first ≠ '?')
    (rest : List Char) : Bracket.of (first :: rest) = .ok .tag := by
  unfold Bracket.of
  split <;> simp_all

/-- Text that is passed over and then ended by a bracket is taken as a tag. -/
theorem takeMarkup_tag {first : Char} {more : List Char} (notMark : first ≠ '!')
    (notQuestion : first ≠ '?') (passes : Passes (first :: more)) (start : Nat)
    (rest : List Char) :
    ∃ stop, takeMarkup start (first :: more ++ '>' :: rest) =
      .ok (tagEvent (first :: more), stop, rest) :=
  ⟨_, takeMarkup_eq_ok_iff.mpr ⟨.tag, first :: more, bracket_of_cons notMark notQuestion _,
    cutTag_of_passes passes rest, rfl, rfl⟩⟩

theorem takeMarkup_comment {inner : List Char} (clear : ¬ HoldsTerminator '-' inner)
    (start : Nat) (rest : List Char) :
    ∃ stop, takeMarkup start (['!', '-', '-'] ++ (inner ++ '-' :: '-' :: '>' :: rest)) =
      .ok (.comment inner, stop, rest) := by
  have cut : cutMarkup .comment (['!', '-', '-'] ++ (inner ++ '-' :: '-' :: '>' :: rest)) =
      some (['!', '-', '-'] ++ (inner ++ ['-', '-']), rest) :=
    cutAt_opener comment_endsAfterMarks clear rest
  have gives : eventOf .comment (['!', '-', '-'] ++ (inner ++ ['-', '-'])) =
      .ok (.comment inner) := by
    unfold eventOf
    dsimp only
    rw [if_pos (by rfl), show Markup.inner 3 2 _ = inner from
      inner_append ['!', '-', '-'] inner ['-', '-']]
  exact ⟨_, takeMarkup_eq_ok_iff.mpr ⟨.comment, _, rfl, cut, gives, rfl⟩⟩

theorem takeMarkup_cdata {inner : List Char} (clear : ¬ HoldsTerminator ']' inner)
    (start : Nat) (rest : List Char) :
    ∃ stop, takeMarkup start
        (['!', '[', 'C', 'D', 'A', 'T', 'A', '['] ++ (inner ++ ']' :: ']' :: '>' :: rest)) =
      .ok (.cdata inner, stop, rest) := by
  have cut : cutMarkup .cdata
      (['!', '[', 'C', 'D', 'A', 'T', 'A', '['] ++ (inner ++ ']' :: ']' :: '>' :: rest)) =
        some (['!', '[', 'C', 'D', 'A', 'T', 'A', '['] ++ (inner ++ [']', ']']), rest) :=
    cutAt_opener cdata_endsAfterMarks clear rest
  have gives : eventOf .cdata
      (['!', '[', 'C', 'D', 'A', 'T', 'A', '['] ++ (inner ++ [']', ']'])) =
        .ok (.cdata inner) := by
    unfold eventOf
    dsimp only
    rw [if_pos (by rfl), show Markup.inner 8 2 _ = inner from
      inner_append ['!', '[', 'C', 'D', 'A', 'T', 'A', '['] inner [']', ']']]
  exact ⟨_, takeMarkup_eq_ok_iff.mpr ⟨.cdata, _, rfl, cut, gives, rfl⟩⟩

/-! ## Tags -/

section

variable {name : String} {attributes : List Attribute} (params : Params)

theorem passes_tagUnder (plainName : PlainName name)
    (plain : ∀ slot ∈ attributes, PlainName slot.name) :
    Passes (tagUnder params name attributes) := by
  apply (passes_of_plain plainName.2).append
  induction attributes with
  | nil => exact passes_nil
  | cons slot rest ih =>
      rw [List.flatMap_cons]
      exact (passes_written (plain slot List.mem_cons_self) params).append
        (ih fun other member => plain other (List.mem_cons_of_mem _ member))

/-- A start tag starts as its name does. -/
theorem exists_cons_of_tagUnder (plainName : PlainName name) (attributes : List Attribute) :
    ∃ first more, tagUnder params name attributes = first :: more ∧
      isPlainChar first = true := by
  obtain ⟨first, rest, chars, plain, _⟩ := exists_cons_of_plainName plainName
  exact ⟨first, rest ++ attributes.flatMap (Attribute.written params),
    by rw [tagUnder, chars, List.cons_append], plain⟩

/-- A start tag ends with its name or with a quote, so it is not taken for an empty tag. -/
theorem getLast?_tagUnder (plainName : PlainName name) (attributes : List Attribute) :
    (tagUnder params name attributes).getLast? ≠ some '/' := by
  intro last
  rcases List.eq_nil_or_concat attributes with rfl | ⟨init, slot, rfl⟩
  · rw [tagUnder, List.flatMap_nil, List.append_nil] at last
    have plain := plainName.2 '/' (List.mem_of_getLast? last)
    exact absurd plain (by decide)
  · rw [List.concat_eq_append] at last
    have ends : tagUnder params name (init ++ [slot]) =
        name.toList ++ init.flatMap (Attribute.written params) ++
          (' ' :: (slot.name.toList ++ '=' :: '"' ::
            Markup.escape (slot.value.textUnder params).toList)) ++ ['"'] := by
      simp [tagUnder, Attribute.written]
    rw [ends, List.getLast?_concat] at last
    cases last

theorem tagEvent_tagUnder (plainName : PlainName name) (attributes : List Attribute) :
    tagEvent (tagUnder params name attributes) =
      .opening (tagUnder params name attributes) := by
  obtain ⟨first, more, starts, plain⟩ := exists_cons_of_tagUnder params plainName attributes
  obtain ⟨_, _, _, notSlash, _⟩ := isPlainChar_iff.mp plain
  have last := getLast?_tagUnder params plainName attributes
  unfold tagEvent
  split
  · next name same =>
      rw [starts] at same
      cases same
      exact absurd rfl notSlash
  · rw [if_neg last]

theorem tagEvent_empty (plainName : PlainName name) (attributes : List Attribute) :
    tagEvent (tagUnder params name attributes ++ ['/']) =
      .empty (tagUnder params name attributes) := by
  obtain ⟨first, more, starts, plain⟩ := exists_cons_of_tagUnder params plainName attributes
  obtain ⟨_, _, _, notSlash, _⟩ := isPlainChar_iff.mp plain
  unfold tagEvent
  split
  · next name same =>
      rw [starts] at same
      cases same
      exact absurd rfl notSlash
  · rw [if_pos List.getLast?_concat, List.dropLast_concat]

theorem closingName_plain (plainName : PlainName name) :
    closingName name.toList = name.toList := by
  have untrimmed : name.toList.reverse.dropWhile isBlank = name.toList.reverse := by
    cases reversed : name.toList.reverse with
    | nil => rfl
    | cons last more =>
        have member : last ∈ name.toList := by
          rw [← List.mem_reverse, reversed]
          exact List.mem_cons_self
        exact List.dropWhile_cons_of_neg
          (by simp [isBlank_of_isPlainChar (plainName.2 last member)])
  rw [closingName, untrimmed, List.reverse_reverse]
  simp

theorem tagName_tagUnder (plainName : PlainName name) (attributes : List Attribute) :
    tagName (tagUnder params name attributes) = name.toList := by
  apply tagName_append plainName.2
  cases attributes with
  | nil => simp
  | cons slot rest =>
      rw [List.flatMap_cons, Attribute.written]
      intro c isFirst
      cases isFirst
      decide

/-- A tag opens its element with the attributes it was written from. -/
theorem openElement_tagUnder (plainName : PlainName name)
    (plain : ∀ slot ∈ attributes, PlainName slot.name)
    (distinct : (attributes.map (·.name)).Nodup) (position : Nat) :
    Progress.openElement position (tagUnder params name attributes) =
      .ok ⟨name, attributes.map (Attribute.resolved params), []⟩ := by
  have isName := tagName_tagUnder params plainName attributes
  have behind : (tagUnder params name attributes).drop name.toList.length =
      attributes.flatMap (Attribute.written params) := List.drop_left
  have reads : Markup.attributes (tagUnder params name attributes) =
      .ok (attributes.map fun slot =>
        (slot.name.toList, (slot.value.textUnder params).toList)) := by
    rw [Markup.attributes, isName, behind]
    exact attributesFrom_written params plain distinct (List.forall_mem_nil _) _
  rw [Progress.openElement_eq_ok_iff]
  refine ⟨_, reads, ?_⟩
  rw [isName, String.ofList_toList, List.map_map]
  congr 1
  apply List.map_congr_left
  intro slot _
  simp [Attribute.resolved, Progress.slotOf]

end

/-! ## Runs -/

section

variable {name : String} {attributes : List Attribute} (params : Params)
  {names : List (List Char)} {progress : Progress}

/-- A step over a start tag opens its element. -/
theorem step_opening (plainName : PlainName name)
    (plain : ∀ slot ∈ attributes, PlainName slot.name)
    (distinct : (attributes.map (·.name)).Nodup)
    (room : progress.root = none ∨ progress.stack ≠ []) (rest : List Char) :
    Reading.Step ⟨names, progress, '<' :: (tagUnder params name attributes ++ '>' :: rest)⟩
      ⟨name.toList :: names,
        { progress with stack :=
            ⟨name, attributes.map (Attribute.resolved params), []⟩ :: progress.stack },
        rest⟩ := by
  obtain ⟨first, more, starts, plainFirst⟩ :=
    exists_cons_of_tagUnder params plainName attributes
  obtain ⟨_, _, _, _, _, _, _, notMark, notQuestion⟩ := isPlainChar_iff.mp plainFirst
  have passes := passes_tagUnder params plainName plain
  have isOpening := tagEvent_tagUnder params plainName attributes
  have names' := tagName_tagUnder params plainName attributes
  have opens := openElement_tagUnder params plainName plain distinct 0
  rw [starts] at passes isOpening names' opens ⊢
  obtain ⟨stop, taken⟩ := takeMarkup_tag notMark notQuestion passes 0 rest
  rw [isOpening] at taken
  exact .markup taken (by rw [openAfter, names'])
    (Progress.step_eq_ok_iff.mpr (.opening opens room))

/-- A step over an empty tag adds its element. -/
theorem step_empty {next : Progress} (plainName : PlainName name)
    (plain : ∀ slot ∈ attributes, PlainName slot.name)
    (distinct : (attributes.map (·.name)).Nodup)
    (added : progress.addElement 0 ⟨name, attributes.map (Attribute.resolved params), []⟩ =
      .ok next) (rest : List Char) :
    Reading.Step ⟨names, progress, '<' :: (tagUnder params name attributes ++ '/' :: '>' :: rest)⟩
      ⟨names, next, rest⟩ := by
  obtain ⟨first, more, starts, plainFirst⟩ :=
    exists_cons_of_tagUnder params plainName attributes
  obtain ⟨_, _, _, _, _, _, _, notMark, notQuestion⟩ := isPlainChar_iff.mp plainFirst
  have passes := (passes_tagUnder params plainName plain).append
    (passes_cons (c := '/') (by decide) (by decide) (by decide))
  have isEmpty := tagEvent_empty params plainName attributes
  have opens := openElement_tagUnder params plainName plain distinct 0
  rw [starts] at passes isEmpty opens ⊢
  rw [List.cons_append] at passes isEmpty
  obtain ⟨stop, taken⟩ := takeMarkup_tag notMark notQuestion passes 0 rest
  rw [isEmpty, ← List.cons_append, List.append_assoc] at taken
  exact .markup taken rfl (Progress.step_eq_ok_iff.mpr (.empty opens added))

/-- A step over an end tag closes the element of its name. -/
theorem step_closing {next : Progress} {element : OpenElement} {outer : List OpenElement}
    (plainName : PlainName name) (stack : progress.stack = element :: outer)
    (added : Progress.addElement { progress with stack := outer } 0 element.close = .ok next)
    (rest : List Char) :
    Reading.Step ⟨name.toList :: names, progress, '<' :: '/' :: (name.toList ++ '>' :: rest)⟩
      ⟨names, next, rest⟩ := by
  have passes : Passes ('/' :: name.toList) :=
    (passes_cons (c := '/') (by decide) (by decide) (by decide)).append
      (passes_of_plain plainName.2)
  obtain ⟨stop, taken⟩ := takeMarkup_tag (by decide) (by decide) passes 0 rest
  have isClosing : tagEvent ('/' :: name.toList) = .closing name.toList := by
    rw [tagEvent, closingName_plain plainName]
  rw [isClosing] at taken
  exact .markup taken (by rw [openAfter, if_pos rfl])
    (Progress.step_eq_ok_iff.mpr (.closing stack added))

/-- An element that is written here is read as a complete element, with its holes filled. -/
def ReadsBack (element : Element) : Prop :=
  ∀ {names : List (List Char)} {progress next : Progress} (rest : List Char),
    progress.addElement 0 (element.resolved params) = .ok next →
      Reading.Run ⟨names, progress, element.written params ++ rest⟩ ⟨names, next, rest⟩

/-- Only texts do not start with a bracket. -/
theorem exists_written_of_isApart {node : Node} (notText : node.text? = none) :
    ∃ more, node.written params = '<' :: more := by
  cases node with
  | element child => exact child.exists_written params
  | text content => cases notText
  | cdata content => exact ⟨_, rfl⟩
  | comment content => exact ⟨_, rfl⟩

/-- Behind a text the markup goes on with a bracket, if texts are apart. -/
theorem atBracket_of_isApart {content : String} {nodes : List Node}
    (apart : ∀ next ∈ nodes.head?, Node.IsApart (.text content) next) (rest : List Char) :
    AtBracket (nodes.flatMap (Node.written params) ++ '<' :: rest) := by
  cases nodes with
  | nil =>
      intro c isFirst
      exact (Option.some.inj isFirst).symm
  | cons next tail =>
      rcases apart next rfl with notText | notText
      · cases notText
      · obtain ⟨more, starts⟩ := exists_written_of_isApart params notText
        rw [List.flatMap_cons, starts]
        intro c isFirst
        exact (Option.some.inj isFirst).symm

/-- A node that is written in an element is read as its child. -/
theorem run_node {node : Node} {parent : OpenElement} {outer : List OpenElement}
    {root : Option Element} {rest : List Char}
    (readsBack : ∀ child, node = .element child → ReadsBack params child)
    (sound : node.IsSound) (ends : ∀ content, node = .text content → AtBracket rest) :
    Reading.Run ⟨names, ⟨parent :: outer, root⟩, node.written params ++ rest⟩
      ⟨names, ⟨parent.add (node.resolved params) :: outer, root⟩, rest⟩ := by
  cases node with
  | element child => exact readsBack child rfl rest rfl
  | text content =>
      have nonempty : content.toList ≠ [] := fun empty =>
        sound.1 (String.toList_eq_nil_iff.mp empty)
      have added : Progress.add? ⟨parent :: outer, root⟩
          (.text (String.ofList content.toList)) =
            some ⟨parent.add (.text content) :: outer, root⟩ := by
        rw [String.ofList_toList]
        rfl
      have stepped : Progress.step ⟨parent :: outer, root⟩ ⟨0, .text content.toList⟩ =
          .ok ⟨parent.add (.text content) :: outer, root⟩ :=
        Progress.step_eq_ok_iff.mpr (.text added)
      exact .single (.text nonempty sound.2 (ends content rfl) stepped)
  | cdata content =>
      obtain ⟨stop, taken⟩ := takeMarkup_cdata sound 0 rest
      have text : (Node.cdata content).written params ++ rest =
          '<' :: (['!', '[', 'C', 'D', 'A', 'T', 'A', '['] ++
            (content.toList ++ ']' :: ']' :: '>' :: rest)) := by
        simp [Node.written, writtenCdata]
      have added : Progress.add? ⟨parent :: outer, root⟩
          (.cdata (String.ofList content.toList)) =
            some ⟨parent.add (.cdata content) :: outer, root⟩ := by
        rw [String.ofList_toList]
        rfl
      rw [text]
      exact .single (.markup taken rfl (Progress.step_eq_ok_iff.mpr (.cdata added)))
  | comment content =>
      obtain ⟨stop, taken⟩ := takeMarkup_comment sound 0 rest
      have text : (Node.comment content).written params ++ rest =
          '<' :: (['!', '-', '-'] ++ (content.toList ++ '-' :: '-' :: '>' :: rest)) := by
        simp [Node.written, writtenComment]
      have added : Progress.add? ⟨parent :: outer, root⟩
          (.comment (String.ofList content.toList)) =
            some ⟨parent.add (.comment content) :: outer, root⟩ := by
        rw [String.ofList_toList]
        rfl
      rw [text]
      exact .single (.markup taken rfl (Progress.step_eq_ok_iff.mpr (.comment added)))

/-- Children that are written one after the other are read one after the other. -/
theorem run_children {nodes : List Node}
    (readsBack : ∀ child, Node.element child ∈ nodes → ReadsBack params child)
    (sound : ∀ node ∈ nodes, node.IsSound) (apart : nodes.IsChain Node.IsApart)
    (parent : OpenElement) (outer : List OpenElement) (root : Option Element)
    (rest : List Char) :
    Reading.Run
      ⟨names, ⟨parent :: outer, root⟩, nodes.flatMap (Node.written params) ++ '<' :: rest⟩
      ⟨names, ⟨parent.addAll (nodes.map (Node.resolved params)) :: outer, root⟩,
        '<' :: rest⟩ := by
  induction nodes generalizing parent with
  | nil => exact .refl _
  | cons node nodes ih =>
      rw [List.isChain_cons] at apart
      rw [List.flatMap_cons, List.append_assoc, List.map_cons, OpenElement.addAll_cons]
      refine .trans (run_node params (fun child same => readsBack child (same ▸ List.mem_cons_self))
        (sound node List.mem_cons_self) fun content same => ?_) ?_
      · exact atBracket_of_isApart params (same ▸ apart.1) rest
      · exact ih (fun child member => readsBack child (List.mem_cons_of_mem _ member))
          (fun child member => sound child (List.mem_cons_of_mem _ member)) apart.2 _

/-- The induction is on the element: its children read back, and its tags enclose them. -/
theorem readsBack_of_readable {root : Element} (readable : root.Readable)
    (apart : root.Each Element.HasTextsApart) : ReadsBack params root := by
  induction root with
  | element name attributes children ih =>
      obtain ⟨⟨⟨plainName, plain⟩, distinct, sound⟩, below⟩ := Element.each_mk.mp readable
      obtain ⟨texts, apartBelow⟩ := Element.each_mk.mp apart
      intro names progress next rest added
      rw [Element.resolved_mk] at added
      by_cases childless : children = []
      · subst childless
        have text : (Element.mk name attributes []).written params ++ rest =
            '<' :: (tagUnder params name attributes ++ '/' :: '>' :: rest) := by
          simp [Element.written_of_empty]
        rw [text]
        exact .single (step_empty params plainName plain distinct added rest)
      · have text : (Element.mk name attributes children).written params ++ rest =
            '<' :: (tagUnder params name attributes ++
              '>' :: (children.flatMap (Node.written params) ++
                '<' :: '/' :: (name.toList ++ '>' :: rest))) := by
          simp [Element.written_of_children params name attributes childless]
        rw [text]
        refine .head (step_opening params plainName plain distinct
          (Progress.room_of_addElement added) _) (.trans (run_children params ?_ sound texts _ _ _ _)
            (.single (step_closing plainName rfl ?_ rest)))
        · exact fun child member => ih child member (below child member)
            (apartBelow child member)
        · simpa [OpenElement.addAll, OpenElement.close] using added

end

/-- What is written of a readable tree is parsed as the tree with its holes filled and
its texts joined. -/
theorem parse_written {root : Element} (readable : root.Readable) (params : Params) :
    parse (String.ofList (root.written params)) = .ok (root.resolved params).merged := by
  rw [← Element.written_merged, ← Element.resolved_merged, parse_eq_ok_iff,
    String.toList_ofList]
  have run : Reading.Run ⟨[], Progress.start, root.merged.written params ++ []⟩
      ⟨[], ⟨[], some (root.merged.resolved params)⟩, []⟩ :=
    readsBack_of_readable params readable.merged (Element.each_hasTextsApart_merged root) [] rfl
  have unmarked : withoutMark (root.merged.written params) = root.merged.written params := by
    obtain ⟨more, starts⟩ := root.merged.exists_written params
    rw [starts]
    rfl
  rw [List.append_nil] at run
  rw [unmarked]
  exact ⟨[], run⟩

end ThemedSvg.Markup

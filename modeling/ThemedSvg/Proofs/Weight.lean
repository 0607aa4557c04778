/-
# The weight of markup

Writing a parsed document can take more characters than its source had: values are
escaped, values in single quotes get double ones, and attributes without a space
between them get one. Neither its length nor the number of its symbols bounds what
a sprite's markup is parsed to, since names of any kind are written as they are.

Weighing characters repairs that. An escape weighs no more than what stood for its
character in the source, and spaces weigh nothing, so no parsed document weighs
more than its source. A sprite leaves part of its sheet behind, so it weighs less.
-/

import ThemedSvg.Proofs.Reading
import ThemedSvg.Proofs.Scanning
import ThemedSvg.Sprite

namespace ThemedSvg.Markup

/-- What a character weighs. A quote or bracket weighs as much as its entity. -/
def weightOf (c : Char) : Nat :=
  if isBlank c then 0
  else if c = '"' ∨ c = '\'' then 6
  else if c = '<' ∨ c = '>' then 4
  else if c = '#' then 2
  else 1

def weight : List Char → Nat
  | [] => 0
  | c :: rest => weightOf c + weight rest

@[simp]
theorem weight_nil : weight [] = 0 := rfl

@[simp]
theorem weight_cons (c : Char) (rest : List Char) :
    weight (c :: rest) = weightOf c + weight rest := rfl

@[simp]
theorem weight_append (first second : List Char) :
    weight (first ++ second) = weight first + weight second := by
  induction first with
  | nil => rw [List.nil_append, weight_nil, Nat.zero_add]
  | cons c rest ih => rw [List.cons_append, weight_cons, weight_cons, ih, Nat.add_assoc]

/-- Space weighs nothing. -/
theorem weight_of_isGap {gap : List Char} (blank : IsGap gap) : weight gap = 0 := by
  induction gap with
  | nil => rfl
  | cons c rest ih =>
      rw [weight_cons, ih fun d member => blank d (List.mem_cons_of_mem _ member), weightOf,
        if_pos (blank c List.mem_cons_self)]

theorem weightOf_of_isQuote {quote : Char} (isQuote : quote = '"' ∨ quote = '\'') :
    weightOf quote = 6 := by
  rcases isQuote with rfl | rfl <;> decide

/-! ## Entities -/

/-- Escaping adds no weight, except to `&`. -/
theorem weight_escapeChar_le {c : Char} (notAmpersand : c ≠ '&') :
    weight (escapeChar c) ≤ weightOf c := by
  unfold escapeChar
  split
  case h_4 => exact absurd rfl notAmpersand
  case h_6 => simp
  all_goals decide

theorem one_le_weightOf_of_digit {radix digit : Nat} {c : Char}
    (isDigit : digitValue? radix c = some digit) : 1 ≤ weightOf c := by
  have notBlank : isBlank c = false := by
    rw [← Bool.not_eq_true]
    intro blank
    simp only [isBlank, Bool.or_eq_true, beq_iff_eq] at blank
    rcases blank with ((rfl | rfl) | rfl) | rfl <;>
      simp [digitValue?, Char.isDigit] at isDigit
  rw [weightOf, notBlank]
  simp only [Bool.false_eq_true, if_false]
  split
  · omega
  · split
    · omega
    · split <;> omega

theorem digit_lt_radix {radix digit : Nat} {c : Char}
    (isDigit : digitValue? radix c = some digit) : digit < radix := by
  simp only [digitValue?] at isDigit
  generalize (if c.isDigit = true then _ else _ : Nat) = value at isDigit
  split at isDigit
  · next small =>
      cases isDigit
      exact small
  · cases isDigit

/-- Each digit of a number weighs something. -/
theorem length_le_weight_of_readDigits {radix value number : Nat} {digits : List Char}
    (reads : readDigits radix value digits = .ok number) : digits.length ≤ weight digits := by
  induction digits generalizing value with
  | nil => simp
  | cons c rest ih =>
      rw [readDigits] at reads
      split at reads
      · cases reads
      · next digit isDigit =>
          dsimp only at reads
          split at reads
          · cases reads
          · have := ih reads
            have := one_le_weightOf_of_digit isDigit
            rw [weight_cons, List.length_cons]
            omega

/-- A number has a digit, and more than one if it is no digit itself. -/
theorem le_weight_of_readNumber {radix number : Nat} {digits : List Char}
    (reads : readNumber radix digits = .ok number) :
    1 ≤ weight digits ∧ (radix ≤ number → 2 ≤ weight digits) := by
  unfold readNumber at reads
  split at reads
  · cases reads
  · cases reads
  · cases reads
  · next nonempty _ _ =>
      have counted := length_le_weight_of_readDigits reads
      match digits with
      | [] => exact absurd rfl nonempty
      | [c] =>
          refine ⟨counted, ?_⟩
          intro large
          rw [readDigits] at reads
          split at reads
          · cases reads
          · next digit isDigit =>
              dsimp only at reads
              split at reads
              · cases reads
              · cases reads
                have := digit_lt_radix isDigit
                omega
      | c :: d :: rest =>
          simp only [List.length_cons] at counted
          omega

/-- No escape weighs more than that of a quote. -/
theorem weight_escapeChar_le_six (c : Char) : weight (escapeChar c) ≤ 6 := by
  unfold escapeChar
  split
  case h_6 =>
    rw [weight_cons, weight_nil, weightOf]
    repeat' split
    all_goals decide
  all_goals decide

/-- A reference weighs no less than the escape of its character. -/
theorem weight_escapeChar_le_of_dereference {start stop : Nat} {reference : List Char}
    {c : Char} (refers : dereference start stop reference = .ok c) :
    weight (escapeChar c) ≤ weight ('&' :: (reference ++ [';'])) := by
  have ends : weight ('&' :: (reference ++ [';'])) = weight reference + 2 := by
    rw [weight_cons, weight_append]
    show 1 + (weight reference + 1) = _
    omega
  rw [ends]
  unfold dereference at refers
  split at refers
  · next digits =>
      obtain ⟨number, reads, _⟩ := bind_eq_ok.mp refers
      have := (le_weight_of_readNumber reads).1
      have := weight_escapeChar_le_six c
      have : weight ('#' :: 'x' :: digits) = weight digits + 3 := by
        rw [weight_cons, weight_cons]
        show 2 + (1 + _) = _
        omega
      omega
  · next digits _ =>
      obtain ⟨number, reads, isCode⟩ := bind_eq_ok.mp refers
      obtain ⟨one, two⟩ := le_weight_of_readNumber reads
      have hash : weight ('#' :: digits) = weight digits + 2 := by
        rw [weight_cons]
        show 2 + _ = _
        omega
      by_cases large : 10 ≤ number
      · have := weight_escapeChar_le_six c
        have := two large
        omega
      · -- no character below ten is escaped
        have small : ∀ n < 10, weight (escapeChar (Char.ofNat n)) ≤ 5 := by decide
        have := small number (by omega)
        unfold ofNumber at isCode
        split at isCode
        · cases isCode
        · split at isCode
          · cases isCode
            omega
          · cases isCode
  · split at refers
    · next found =>
        cases refers
        unfold named? at found
        repeat' split at found
        all_goals cases found
        all_goals
          next same =>
            rw [same]
            decide
    · cases refers

/-- Escaping what a value stands for adds no weight to it. -/
theorem weight_escape_le_of_standsFor {value text : List Char} (stands : StandsFor value text) :
    weight (escape text) ≤ weight value := by
  induction stands with
  | nil => simp [escape]
  | @plain c value text notAmpersand _ ih =>
      rw [escape_cons, weight_append, weight_cons]
      have := weight_escapeChar_le notAmpersand
      omega
  | @reference start stop reference value text c refers _ ih =>
      rw [escape_cons, weight_append]
      have := weight_escapeChar_le_of_dereference refers
      simp only [weight_cons, weight_append, weight_nil] at this ⊢
      omega

/-! ## Tags -/

theorem weight_written (params : Params) (slot : Attribute) :
    weight (slot.written params) =
      weight slot.name.toList + weight (escape (slot.value.textUnder params).toList) + 13 := by
  rw [Attribute.written]
  simp only [weight_cons, weight_append, weight_nil]
  have : weightOf ' ' = 0 ∧ weightOf '=' = 1 ∧ weightOf '"' = 6 := by decide
  omega

/-- Attributes that are written back weigh no more than they did. -/
theorem weight_slots_le_of_readsAs {text : List Char} {pairs : List (List Char × List Char)}
    (reads : ReadsAs text pairs) :
    weight ((pairs.map Progress.slotOf).flatMap (Attribute.written Params.empty)) ≤
      weight text := by
  induction reads with
  | nil => simp
  | @cons gap key before after value rest text quote pairs blank blank' blank'' isQuote stands
      _ ih =>
      have := weight_escape_le_of_standsFor stands
      rw [List.map_cons, List.flatMap_cons, weight_append, weight_written]
      simp only [weight_append, weight_cons, weight_of_isGap blank, weight_of_isGap blank',
        weight_of_isGap blank'', weightOf_of_isQuote isQuote, Progress.slotOf, Attribute.text,
        AttributeValue.textUnder, String.toList_ofList]
      have : weightOf '=' = 1 := by decide
      omega

/-- A tag that is written back weighs no more than it did. -/
theorem weight_tagUnder_le {content : List Char} {opened : OpenElement} {position : Nat}
    (opens : Progress.openElement position content = .ok opened) :
    weight (tagUnder Params.empty opened.name opened.attributes) ≤ weight content ∧
      opened.reversed = [] := by
  obtain ⟨pairs, reads, rfl⟩ := Progress.openElement_eq_ok_iff.mp opens
  refine ⟨?_, rfl⟩
  have behind := weight_slots_le_of_readsAs (readsAs_of_attributesFrom reads).1
  have whole : tagName content ++ content.drop (tagName content).length = content :=
    List.prefix_iff_eq_append.mp (List.takeWhile_prefix _)
  have total := congrArg weight whole
  rw [weight_append] at total
  rw [tagUnder, weight_append, String.toList_ofList]
  exact total ▸ Nat.add_le_add_left behind _

/-! ## Documents -/

/-- An element closed behind its children weighs what its tags and its children do,
or less if it has none. -/
theorem weight_element (name : String) (attributes : List Attribute) (children : List Node) :
    weight ((Element.mk name attributes children).written Params.empty) =
      if children = [] then weight (tagUnder Params.empty name attributes) + 9
      else weight (tagUnder Params.empty name attributes) +
        weight (children.flatMap (Node.written Params.empty)) + weight name.toList + 17 := by
  have : weightOf '<' = 4 ∧ weightOf '/' = 1 ∧ weightOf '>' = 4 := by decide
  split
  · next empty =>
      rw [empty, Element.written_of_empty]
      simp only [weight_cons, weight_append, weight_nil]
      omega
  · next nonempty =>
      rw [Element.written_of_children _ _ _ nonempty]
      simp only [weight_cons, weight_append, weight_nil]
      omega

/-- The weight of an open element: its start tag and the children it has so far. -/
def weightOpen (opened : OpenElement) : Nat :=
  weight (tagUnder Params.empty opened.name opened.attributes) +
    weight (opened.reversed.flatMap (Node.written Params.empty)) + 8

theorem weight_reverse (nodes : List Node) :
    weight (nodes.reverse.flatMap (Node.written Params.empty)) =
      weight (nodes.flatMap (Node.written Params.empty)) := by
  induction nodes with
  | nil => rfl
  | cons node rest ih =>
      rw [List.reverse_cons, List.flatMap_append, weight_append, ih, List.flatMap_singleton,
        List.flatMap_cons, weight_append, Nat.add_comm]

/-- A closed element weighs what it did while it was open, and its end tag. -/
theorem weight_close_le (opened : OpenElement) :
    weight (opened.close.written Params.empty) ≤
      weightOpen opened + weight opened.name.toList + 9 := by
  have children := weight_reverse opened.reversed
  rw [OpenElement.close, weight_element, weightOpen]
  split
  · omega
  · omega

theorem weightOpen_add (parent : OpenElement) (node : Node) :
    weightOpen (parent.add node) = weightOpen parent + weight (node.written Params.empty) := by
  simp only [weightOpen, OpenElement.add, List.flatMap_cons, weight_append]
  omega

def weightOfStack : List OpenElement → Nat
  | [] => 0
  | opened :: outer => weightOpen opened + weightOfStack outer

/-- The weight of a document under construction. -/
def weightOfProgress (progress : Progress) : Nat :=
  weightOfStack progress.stack +
    progress.root.elim 0 fun root => weight (root.written Params.empty)

/-- Adding a node adds its weight. -/
theorem weight_add? {progress next : Progress} {node : Node}
    (added : progress.add? node = some next) :
    weightOfProgress next = weightOfProgress progress + weight (node.written Params.empty) := by
  obtain ⟨parent, outer, stack, rfl⟩ := Progress.add?_eq_some_iff.mp added
  simp only [weightOfProgress, stack, weightOfStack, weightOpen_add]
  omega

theorem weight_addElement {progress next : Progress} {element : Element} {position : Nat}
    (added : progress.addElement position element = .ok next) :
    weightOfProgress next =
      weightOfProgress progress + weight (element.written Params.empty) := by
  rcases Progress.addElement_eq_ok_iff.mp added with child | ⟨_, fresh, rfl⟩
  · exact weight_add? child
  · simp [weightOfProgress, fresh]

theorem weight_closingName_le (name : List Char) : weight (closingName name) ≤ weight name := by
  have trimmed : weight (name.reverse.dropWhile isBlank).reverse ≤ weight name := by
    have whole := @List.takeWhile_append_dropWhile _ isBlank name.reverse
    have total := congrArg weight (congrArg List.reverse whole)
    rw [List.reverse_append, weight_append, List.reverse_reverse] at total
    omega
  unfold closingName
  dsimp only
  split
  · exact Nat.le_refl _
  · exact trimmed

/-- An event adds no more weight to the document than its markup has. An end tag weighs
enough because it names the element that it closes. -/
theorem weight_step {names' : List (List Char)} {progress next : Progress}
    {content : List Char} {event : Event} (spells : Spells content event)
    (opened : openAfter progress.names event = .ok names')
    (moves : progress.Moves event next) :
    weightOfProgress next ≤ weightOfProgress progress + weight content + 8 := by
  cases spells with
  | opening content =>
      cases moves with
      | opening opens _ =>
          obtain ⟨light, childless⟩ := weight_tagUnder_le opens
          simp only [weightOfProgress, weightOfStack, weightOpen, childless, List.flatMap_nil,
            weight_nil]
          omega
  | empty content =>
      cases moves with
      | empty opens added =>
          obtain ⟨light, childless⟩ := weight_tagUnder_le opens
          rw [weight_addElement added, OpenElement.close, weight_element, childless,
            List.reverse_nil, if_pos rfl, weight_append]
          have : weight ['/'] = 1 := by decide
          omega
  | closing name =>
      cases moves with
      | @closing _ _ element outer next stack added =>
          rw [Progress.names, stack, List.map_cons, openAfter] at opened
          by_cases isName : closingName name = element.name.toList
          · have closed := weight_close_le element
            have trimmed := weight_closingName_le name
            rw [isName] at trimmed
            rw [weight_addElement added]
            simp only [weightOfProgress, stack, weightOfStack, weight_cons]
            have : weightOf '/' = 1 := by decide
            omega
          · rw [if_neg isName] at opened
            cases opened
  | @comment inner clear =>
      cases moves with
      | comment added =>
          rw [weight_add? added, Node.written, writtenComment, String.toList_ofList]
          simp only [weight_append]
          have : weight ['<', '!', '-', '-'] = 7 ∧ weight ['-', '-', '>'] = 6 ∧
            weight ['!', '-', '-'] = 3 ∧ weight ['-', '-'] = 2 := by decide
          omega
      | commentOutside => omega
  | @cdata inner clear =>
      cases moves with
      | cdata added =>
          rw [weight_add? added, Node.written, writtenCdata, String.toList_ofList]
          simp only [weight_append]
          have : weight ['<', '!', '[', 'C', 'D', 'A', 'T', 'A', '['] = 12 ∧
            weight [']', ']', '>'] = 6 ∧ weight ['!', '[', 'C', 'D', 'A', 'T', 'A', '['] = 8 ∧
            weight [']', ']'] = 2 := by decide
          omega
  | prolog content =>
      cases moves with
      | prolog => omega

/-- Reading moves weight from the text to the document and adds none. -/
theorem weight_reading_step {first second : Reading} (step : Reading.Step first second)
    (same : first.progress.names = first.names) :
    weightOfProgress second.progress + weight second.text ≤
      weightOfProgress first.progress + weight first.text := by
  cases step with
  | markup taken opened stepped =>
      obtain ⟨content, rfl, spells⟩ := spells_of_takeMarkup taken
      have light := weight_step spells ((congrArg (openAfter · _) same).trans opened)
        (Progress.step_eq_ok_iff.mp stepped)
      simp only [weight_cons, weight_append] at light ⊢
      have : weightOf '<' = 4 ∧ weightOf '>' = 4 := by decide
      omega
  | text nonempty plain ends stepped =>
      simp only [weight_append]
      cases Progress.step_eq_ok_iff.mp stepped with
      | text added =>
          have heavier := weight_add? added
          rw [Node.written, String.toList_ofList] at heavier
          omega
      | textOutside => omega

theorem weight_withoutMark_le (text : List Char) : weight (withoutMark text) ≤ weight text := by
  unfold withoutMark
  split
  · rw [weight_cons]
    omega
  · exact Nat.le_refl _

/-- A parsed document weighs no more than its source. -/
theorem weight_parse_le {markup : String} {root : Element} (parsed : parse markup = .ok root) :
    weight (root.written Params.empty) ≤ weight markup.toList := by
  obtain ⟨names, run⟩ := parse_eq_ok_iff.mp parsed
  have kept := run.invariant
    (fun state => state.progress.names = state.names ∧
      weightOfProgress state.progress + weight state.text ≤ weight markup.toList)
    (fun step holds =>
      ⟨Reading.names_of_step step holds.1,
        Nat.le_trans (weight_reading_step step holds.1) holds.2⟩)
    ⟨rfl, by simpa [weightOfProgress, weightOfStack, Progress.start] using weight_withoutMark_le _⟩
  simpa [weightOfProgress, weightOfStack] using kept.2

end ThemedSvg.Markup

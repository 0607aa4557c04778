/-
# What stands in a tag

Written attributes are read back as they are, as long as names are plain and
differ. For any tag that is read this module says what its text must have been:
keys, gaps of white space and quoted values, and nothing else.
-/

import ThemedSvg.Markup.Tag
import ThemedSvg.Proofs.Entities
import ThemedSvg.Proofs.Writing

namespace ThemedSvg

namespace Markup

/-- A character of a plain name: no white space and no mark of a tag. A form feed
is no white space to the reader, so it may stand. -/
def isPlainChar (c : Char) : Bool :=
  !isBlank c && ['<', '>', '/', '=', '\'', '"', '!', '?'].all (c != ·)

/-- A text of white space between the parts of a tag. -/
def IsGap (text : List Char) : Prop := ∀ c ∈ text, isBlank c = true

theorem isGap_takeWhile (text : List Char) : IsGap (text.takeWhile isBlank) := by
  intro c member
  exact List.all_eq_true.mp List.all_takeWhile c member

end Markup

/-- A name that the reader takes whole wherever it is written. -/
def PlainName (name : String) : Prop :=
  name ≠ "" ∧ ∀ c ∈ name.toList, Markup.isPlainChar c = true

instance (name : String) : Decidable (PlainName name) :=
  have : Decidable (∀ c ∈ name.toList, Markup.isPlainChar c = true) := List.decidableBAll _ _
  inferInstanceAs (Decidable (_ ∧ _))

namespace Markup

theorem isPlainChar_iff {c : Char} :
    isPlainChar c = true ↔ isBlank c = false ∧ c ≠ '<' ∧ c ≠ '>' ∧ c ≠ '/' ∧ c ≠ '=' ∧
      c ≠ '\'' ∧ c ≠ '"' ∧ c ≠ '!' ∧ c ≠ '?' := by
  simp [isPlainChar]

theorem isBlank_of_isPlainChar {c : Char} (plain : isPlainChar c = true) :
    isBlank c = false :=
  (isPlainChar_iff.mp plain).1

/-- A plain name is a plain character and what follows it. -/
theorem exists_cons_of_plainName {name : String} (plain : PlainName name) :
    ∃ first rest, name.toList = first :: rest ∧ isPlainChar first = true ∧
      ∀ c ∈ rest, isPlainChar c = true := by
  obtain ⟨nonempty, all⟩ := plain
  cases chars : name.toList with
  | nil => exact absurd (String.toList_eq_nil_iff.mp chars) nonempty
  | cons first rest =>
      rw [chars] at all
      exact ⟨first, rest, rfl, all first List.mem_cons_self,
        fun c member => all c (List.mem_cons_of_mem _ member)⟩

/-- No quote of either kind and no bracket is left in an escaped text. -/
theorem not_mem_escape {c : Char} (mark : c ∈ ['<', '>', '\'', '"']) (text : List Char) :
    c ∉ escape text := by
  intro member
  obtain ⟨d, _, inside⟩ := List.mem_flatMap.mp member
  revert inside
  unfold escapeChar
  split
  case h_6 =>
    intro inside
    simp_all
  all_goals
    simp only [List.mem_cons, List.not_mem_nil, or_false] at mark
    rcases mark with rfl | rfl | rfl | rfl <;> decide

/-! ## Written attributes -/

theorem tagName_append {name after : List Char} (plain : ∀ c ∈ name, isPlainChar c = true)
    (ends : ∀ c ∈ after.head?, isBlank c = true) : tagName (name ++ after) = name := by
  have inside : ∀ c ∈ name, (!isBlank c) = true := fun c member => by
    simp [isBlank_of_isPlainChar (plain c member)]
  rw [tagName, List.takeWhile_append_of_pos inside]
  cases after with
  | nil => simp
  | cons c rest =>
      have blank := ends c rfl
      simp [blank]

theorem takeKey_append {first : Char} {more : List Char}
    (plain : ∀ c ∈ more, isPlainChar c = true) (rest : List Char) :
    takeKey first (more ++ '=' :: rest) = (first :: more, '=' :: rest) := by
  have inside : ∀ c ∈ more, (c != '=' && !isBlank c) = true := fun c member => by
    obtain ⟨notBlank, _, _, _, notEquals, _⟩ := isPlainChar_iff.mp (plain c member)
    simp [notBlank, notEquals]
  rw [takeKey, List.takeWhile_append_of_pos inside, List.dropWhile_append_of_pos inside]
  simp

theorem skipBlank_cons {c : Char} (notBlank : isBlank c = false) (offset : Nat)
    (rest : List Char) : skipBlank offset (c :: rest) = (offset, c :: rest) := by
  simp [skipBlank, notBlank]

theorem takeValue_written (offset : Nat) (value rest : List Char) :
    ∃ stop, takeValue offset ('"' :: (escape value ++ '"' :: rest)) =
      .ok (escape value, stop, rest) := by
  have inside : ∀ c ∈ escape value, (c != '"') = true := fun c member => by
    rw [bne_iff_ne]
    rintro rfl
    exact not_mem_escape (by decide) value member
  rw [takeValue, skipBlank_cons (by decide)]
  simp [List.takeWhile_append_of_pos inside, List.dropWhile_append_of_pos inside]

/-- An attribute in its written form is taken whole, if its key is new. -/
theorem takeAttribute_written {seen : List WrittenAttribute} {first : Char}
    {more : List Char} (start : Nat) (plain : ∀ c ∈ more, isPlainChar c = true)
    (fresh : ∀ earlier ∈ seen, earlier.key ≠ first :: more) (value rest : List Char) :
    ∃ stop, takeAttribute seen start first
        (more ++ '=' :: '"' :: (escape value ++ '"' :: rest)) =
      .ok (⟨first :: more, start, escape value⟩, stop, rest) := by
  have absent : seen.find? (·.key == first :: more) = none := by
    rw [List.find?_eq_none]
    exact fun earlier member => by simpa using fresh earlier member
  obtain ⟨stop, taken⟩ :=
    takeValue_written (start + Text.byteLength (first :: more) + 1) value rest
  refine ⟨stop, ?_⟩
  rw [takeAttribute, takeKey_append plain]
  dsimp only
  rw [skipBlank_cons (by decide)]
  simp only [absent, taken, ok_bind]
  rfl

/-- Reading the attributes of a tag takes one and goes on behind it. -/
theorem attributesFrom_of_take {seen : List WrittenAttribute} {offset stop : Nat}
    {text rest after value : List Char} {first : Char} {written : WrittenAttribute}
    (starts : text.dropWhile isBlank = first :: rest)
    (taken : takeAttribute seen (skipBlank offset text).1 first rest =
      .ok (written, stop, after))
    (reads : unescape written.value = .ok value) :
    attributesFrom seen offset text =
      (attributesFrom (seen ++ [written]) stop after).map ((written.key, value) :: ·) := by
  rw [attributesFrom]
  split
  · next empty =>
      have same : text.dropWhile isBlank = [] := empty
      rw [starts] at same
      cases same
  · next head tail found =>
      have same : text.dropWhile isBlank = head :: tail := found
      rw [starts] at same
      cases same
      split
      · next fault failed =>
          rw [taken] at failed
          cases failed
      · next found' stop' after' succeeded =>
          rw [taken] at succeeded
          cases succeeded
          rw [reads]

/-- Written attributes are read back, if their names are plain and all keys differ. -/
theorem attributesFrom_written (params : Params) {seen : List WrittenAttribute}
    {slots : List Attribute} (plain : ∀ slot ∈ slots, PlainName slot.name)
    (distinct : (slots.map (·.name)).Nodup)
    (fresh : ∀ earlier ∈ seen, ∀ slot ∈ slots, earlier.key ≠ slot.name.toList)
    (offset : Nat) :
    attributesFrom seen offset (slots.flatMap (Attribute.written params)) =
      .ok (slots.map fun slot =>
        (slot.name.toList, (slot.value.textUnder params).toList)) := by
  induction slots generalizing seen offset with
  | nil =>
      rw [attributesFrom]
      rfl
  | cons slot rest ih =>
      obtain ⟨first, more, chars, plainFirst, plainMore⟩ :=
        exists_cons_of_plainName (plain slot List.mem_cons_self)
      rw [List.map_cons, List.nodup_cons] at distinct
      let value := (slot.value.textUnder params).toList
      let after := rest.flatMap (Attribute.written params)
      have text : (slot :: rest).flatMap (Attribute.written params) =
          ' ' :: first :: (more ++ '=' :: '"' :: (escape value ++ '"' :: after)) := by
        simp [Attribute.written, chars, value, after]
      have starts : ((slot :: rest).flatMap (Attribute.written params)).dropWhile isBlank =
          first :: (more ++ '=' :: '"' :: (escape value ++ '"' :: after)) := by
        rw [text, List.dropWhile_cons_of_pos (by decide),
          List.dropWhile_cons_of_neg (by simp [isBlank_of_isPlainChar plainFirst])]
      have new : ∀ earlier ∈ seen, earlier.key ≠ first :: more := fun earlier member => by
        rw [← chars]
        exact fresh earlier member slot List.mem_cons_self
      obtain ⟨stop, taken⟩ := takeAttribute_written
        (skipBlank offset ((slot :: rest).flatMap (Attribute.written params))).1
        plainMore new value after
      rw [attributesFrom_of_take starts taken (unescape_escape value),
        ih (fun s member => plain s (List.mem_cons_of_mem _ member)) distinct.2 ?_ stop,
        ← chars]
      · rfl
      · intro earlier member s memberRest
        rcases List.mem_append.mp member with old | last
        · exact fresh earlier old s (List.mem_cons_of_mem _ memberRest)
        · cases List.mem_singleton.mp last
          intro same
          have sameName : slot.name = s.name := String.toList_inj.mp (chars.trans same)
          exact distinct.1 (sameName ▸ List.mem_map_of_mem memberRest)

/-! ## What a tag that is read was -/

/-- A value that is read stood in quotes behind a gap. -/
theorem takeValue_eq_ok {offset stop : Nat} {text value rest : List Char}
    (taken : takeValue offset text = .ok (value, stop, rest)) :
    ∃ gap quote, IsGap gap ∧ (quote = '"' ∨ quote = '\'') ∧
      text = gap ++ quote :: (value ++ quote :: rest) := by
  have split_gap : text = text.takeWhile isBlank ++ text.dropWhile isBlank :=
    List.takeWhile_append_dropWhile.symm
  unfold takeValue skipBlank at taken
  dsimp only at taken
  split at taken
  · cases taken
  · next quote behind starts =>
      split at taken
      · next isQuote =>
          split at taken
          · cases taken
          · next last rest' ends =>
              cases taken
              have closing : last = quote := by
                have := List.head?_dropWhile_not (· != quote) behind
                rw [ends] at this
                simpa using this
              have split_value : behind = behind.takeWhile (· != quote) ++ quote :: rest := by
                rw [← closing, ← ends, closing, List.takeWhile_append_dropWhile]
              exact ⟨_, quote, isGap_takeWhile text, isQuote, by
                rw [← split_value, ← starts]
                exact split_gap⟩
      · cases taken

/-- An attribute that is read was a new key, an equals sign and a quoted value. -/
theorem takeAttribute_eq_ok {seen : List WrittenAttribute} {start stop : Nat} {first : Char}
    {text rest : List Char} {written : WrittenAttribute}
    (taken : takeAttribute seen start first text = .ok (written, stop, rest)) :
    (∀ earlier ∈ seen, earlier.key ≠ written.key) ∧
      ∃ before after quote, IsGap before ∧ IsGap after ∧ (quote = '"' ∨ quote = '\'') ∧
        first :: text = written.key ++ (before ++
          '=' :: (after ++ quote :: (written.value ++ quote :: rest))) := by
  unfold takeAttribute takeKey skipBlank at taken
  dsimp only at taken
  have split_key : text = text.takeWhile (fun c => c != '=' && !isBlank c) ++
      text.dropWhile (fun c => c != '=' && !isBlank c) :=
    List.takeWhile_append_dropWhile.symm
  generalize text.takeWhile (fun c => c != '=' && !isBlank c) = more at taken split_key
  generalize text.dropWhile (fun c => c != '=' && !isBlank c) = behind at taken split_key
  have split_gap : behind = behind.takeWhile isBlank ++ behind.dropWhile isBlank :=
    List.takeWhile_append_dropWhile.symm
  split at taken
  · next value starts =>
      split at taken
      · cases taken
      · next absent =>
          obtain ⟨⟨found, stop', rest'⟩, valueTaken, same⟩ := bind_eq_ok.mp taken
          cases same
          obtain ⟨after, quote, gap, isQuote, rfl⟩ := takeValue_eq_ok valueTaken
          refine ⟨?_, behind.takeWhile isBlank, after, quote, isGap_takeWhile behind, gap,
            isQuote, ?_⟩
          · intro earlier member same
            have := List.find?_eq_none.mp absent earlier member
            exact this (by simpa using same)
          · rw [← starts, List.takeWhile_append_dropWhile, List.cons_append, ← split_key]
  · cases taken

/-- How the text behind a tag's name is read: as attributes with gaps around their
parts, each value standing for its text. -/
inductive ReadsAs : List Char → List (List Char × List Char) → Prop
  | nil {gap : List Char} : IsGap gap → ReadsAs gap []
  | cons {gap key before after value rest text : List Char} {quote : Char}
      {pairs : List (List Char × List Char)} :
      IsGap gap → IsGap before → IsGap after → (quote = '"' ∨ quote = '\'') →
        StandsFor value text → ReadsAs rest pairs →
        ReadsAs (gap ++ (key ++ (before ++
          '=' :: (after ++ quote :: (value ++ quote :: rest))))) ((key, text) :: pairs)

/-- Attributes that are read have keys that differ from each other and from those
seen before. -/
theorem readsAs_of_attributesFrom {seen : List WrittenAttribute} {offset : Nat}
    {text : List Char} {pairs : List (List Char × List Char)}
    (reads : attributesFrom seen offset text = .ok pairs) :
    ReadsAs text pairs ∧ (pairs.map (·.1)).Nodup ∧
      ∀ earlier ∈ seen, earlier.key ∉ pairs.map (·.1) := by
  fun_induction attributesFrom seen offset text generalizing pairs with
  | case1 seen offset text skipped =>
      cases reads
      refine ⟨.nil ?_, List.nodup_nil, fun _ _ => List.not_mem_nil⟩
      have blank : text.takeWhile isBlank = text := by
        have whole := @List.takeWhile_append_dropWhile _ isBlank text
        rwa [show text.dropWhile isBlank = [] from skipped, List.append_nil] at whole
      rw [← blank]
      exact isGap_takeWhile text
  | case2 seen offset text first rest skipped fault failed => cases reads
  | case3 seen offset text first rest skipped written stop after taken fault failed =>
      cases reads
  | case4 seen offset text first rest skipped written stop after taken value unescaped ih =>
      obtain ⟨tail, tailReads, rfl⟩ := map_eq_ok.mp reads
      obtain ⟨tailReadsAs, distinct, fresh⟩ := ih tailReads
      obtain ⟨new, before, behind, quote, gap, gap', isQuote, split_text⟩ :=
        takeAttribute_eq_ok taken
      refine ⟨?_, ?_, ?_⟩
      · have whole : text = text.takeWhile isBlank ++ first :: rest := by
          rw [← skipped]
          exact List.takeWhile_append_dropWhile.symm
        rw [whole, split_text]
        exact .cons (isGap_takeWhile text) gap gap' isQuote
          (standsFor_of_unescapeFrom unescaped) tailReadsAs
      · rw [List.map_cons, List.nodup_cons]
        exact ⟨fresh written (List.mem_append_right _ List.mem_cons_self), distinct⟩
      · intro earlier member
        rw [List.map_cons, List.mem_cons, not_or]
        exact ⟨new earlier member, fresh earlier (List.mem_append_left _ member)⟩

end Markup

end ThemedSvg

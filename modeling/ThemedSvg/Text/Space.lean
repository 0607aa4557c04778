/-
# White space

Values, parameters and names are cut at the white space of Unicode. This module
says which characters that is and supplies the three cuts made with it: off the
ends of a text, into words, and at a set of separators.
-/

namespace ThemedSvg.Text

/-- The 25 characters with Unicode's `White_Space` property. -/
def isSpace (c : Char) : Bool :=
  let n := c.toNat
  (0x09 ≤ n && n ≤ 0x0D) || n == 0x20 || n == 0x85 || n == 0xA0 || n == 0x1680
    || (0x2000 ≤ n && n ≤ 0x200A) || n == 0x2028 || n == 0x2029 || n == 0x202F
    || n == 0x205F || n == 0x3000

/-- Drops white space from the front. -/
def trimStart (text : List Char) : List Char :=
  text.dropWhile isSpace

/-- Drops white space from the back. -/
def trimEnd (text : List Char) : List Char :=
  (text.reverse.dropWhile isSpace).reverse

/-- Drops white space from both ends. -/
def trim (text : List Char) : List Char :=
  trimEnd (trimStart text)

/-- The non-empty pieces between separators, so that a run of separators counts
as one and those at the ends count for nothing. -/
def fields (isSeparator : Char → Bool) (text : List Char) : List (List Char) :=
  (text.splitOnP isSeparator).filter (!·.isEmpty)

/-- The words of a text: what stands between white space. -/
def words (text : List Char) : List (List Char) :=
  fields isSpace text

/-- Whether nothing but white space is there. -/
def isBlank (text : List Char) : Bool :=
  text.all isSpace

/-- ASCII letters in lower case; every other character as it is. -/
def lowerAscii (text : List Char) : List Char :=
  text.map Char.toLower

/-- The part before the first `mark` and the part after it. -/
def splitFirst (mark : Char) : List Char → Option (List Char × List Char)
  | [] => none
  | c :: rest =>
      if c = mark then some ([], rest)
      else (splitFirst mark rest).map fun (before, after) => (c :: before, after)

/-- The text without `ending`, if it ends so. -/
def dropEnding? (ending text : List Char) : Option (List Char) :=
  if ending.isSuffixOf text then some (text.take (text.length - ending.length)) else none

/-- The text with every occurrence of a pattern replaced, from the left; `skip`
characters of an occurrence are still to be passed over. The empty pattern occurs
before each character and at the end. -/
def replaceFrom (pattern replacement : List Char) (skip : Nat) : List Char → List Char
  | [] => if pattern.isEmpty then replacement else []
  | c :: rest =>
      if 0 < skip then replaceFrom pattern replacement (skip - 1) rest
      else if pattern.isEmpty then replacement ++ c :: replaceFrom pattern replacement 0 rest
      else if pattern.isPrefixOf (c :: rest) then
        replacement ++ replaceFrom pattern replacement (pattern.length - 1) rest
      else c :: replaceFrom pattern replacement 0 rest

/-- The text with every occurrence of a pattern replaced. -/
def replaceAll (pattern replacement text : List Char) : List Char :=
  replaceFrom pattern replacement 0 text

/-- A decimal rendering of a number. -/
def decimal (n : Nat) : List Char :=
  Nat.toDigits 10 n

theorem isBlank_iff (text : List Char) : isBlank text = true ↔ ∀ c ∈ text, isSpace c = true := by
  simp [isBlank]

theorem splitFirst_eq_some {mark : Char} {text before after : List Char}
    (h : splitFirst mark text = some (before, after)) :
    text = before ++ mark :: after ∧ mark ∉ before := by
  induction text generalizing before with
  | nil => simp [splitFirst] at h
  | cons c rest ih =>
      unfold splitFirst at h
      split at h
      · next hc => simp_all
      · next hc =>
          simp only [Option.map_eq_some_iff, Prod.exists, Prod.mk.injEq] at h
          obtain ⟨b, a, hb, rfl, rfl⟩ := h
          obtain ⟨rfl, hm⟩ := ih hb
          exact ⟨rfl, by simp [hm, Ne.symm hc]⟩

/-- A text without the mark is in front of none. -/
theorem splitFirst_eq_none_iff {mark : Char} {text : List Char} :
    splitFirst mark text = none ↔ mark ∉ text := by
  induction text with
  | nil => simp [splitFirst]
  | cons c rest ih =>
      unfold splitFirst
      split
      · next same => simp [same]
      · next differs => simp [ih, Ne.symm differs]

theorem splitFirst_append {mark : Char} {before : List Char} (absent : mark ∉ before)
    (after : List Char) : splitFirst mark (before ++ mark :: after) = some (before, after) := by
  induction before with
  | nil => simp [splitFirst]
  | cons c rest ih =>
      rw [List.mem_cons, not_or] at absent
      simp [splitFirst, Ne.symm absent.1, ih absent.2]

theorem isSpace_of_isDigit {c : Char} (isDigit : c.isDigit = true) : isSpace c = false := by
  rw [Char.isDigit, Bool.and_eq_true, decide_eq_true_iff, decide_eq_true_iff] at isDigit
  have low : 48 ≤ c.toNat := UInt32.le_iff_toNat_le.mp isDigit.1
  have high : c.toNat ≤ 57 := UInt32.le_iff_toNat_le.mp isDigit.2
  simp only [isSpace, Bool.or_eq_false_iff, Bool.and_eq_false_iff, decide_eq_false_iff_not,
    beq_eq_false_iff_ne]
  omega

/-- A capital letter moves by 32, and every other character stays. -/
theorem toLower_cases (c : Char) :
    c.toLower = c ∨ 65 ≤ c.toNat ∧ c.toNat ≤ 90 ∧ c.toLower.toNat = c.toNat + 32 := by
  unfold Char.toLower
  split
  · next upper =>
      have low : 65 ≤ c.toNat := UInt32.le_iff_toNat_le.mp upper.1
      have high : c.toNat ≤ 90 := UInt32.le_iff_toNat_le.mp upper.2
      refine .inr ⟨low, high, ?_⟩
      show (c.val + 32).toNat = c.val.toNat + 32
      rw [UInt32.toNat_add, Nat.mod_eq_of_lt]
      · rfl
      · exact Nat.lt_of_le_of_lt (Nat.add_le_add_right high _) (by decide)
  · exact .inl rfl

/-- White space has no case. -/
theorem isSpace_toLower (c : Char) : isSpace c.toLower = isSpace c := by
  rcases toLower_cases c with same | ⟨low, high, moved⟩
  · rw [same]
  · rw [isSpace, isSpace, moved, Bool.eq_iff_iff]
    simp only [Bool.or_eq_true, Bool.and_eq_true, decide_eq_true_eq, beq_iff_eq]
    omega

theorem toLower_of_isDigit {c : Char} (isDigit : c.isDigit = true) : c.toLower = c := by
  rcases toLower_cases c with same | ⟨capital, -, -⟩
  · exact same
  · rw [Char.isDigit, Bool.and_eq_true, decide_eq_true_iff, decide_eq_true_iff] at isDigit
    have high : c.toNat ≤ 57 := UInt32.le_iff_toNat_le.mp isDigit.2
    omega

theorem lowerAscii_trim (text : List Char) : lowerAscii (trim text) = trim (lowerAscii text) := by
  have sameSpace : isSpace ∘ Char.toLower = isSpace := funext isSpace_toLower
  simp only [lowerAscii, trim, trimStart, trimEnd, List.dropWhile_map, ← List.map_reverse,
    sameSpace]

theorem isDigit_of_mem_decimal {c : Char} {n : Nat} (member : c ∈ decimal n) :
    c.isDigit = true :=
  Nat.isDigit_of_mem_toDigits (by decide) (by decide) member

theorem decimal_ne_nil (n : Nat) : decimal n ≠ [] := Nat.toDigits_ne_nil

/-- A text that begins and ends with a visible character is as it is. -/
theorem trim_of_visible {first last : Char} (visible : isSpace first = false)
    (visible' : isSpace last = false) (middle : List Char) :
    trim (first :: (middle ++ [last])) = first :: (middle ++ [last]) := by
  have start : trimStart (first :: (middle ++ [last])) = first :: (middle ++ [last]) :=
    List.dropWhile_cons_of_neg (by simp [visible])
  rw [trim, start, trimEnd, ← List.cons_append, List.reverse_append, List.reverse_singleton,
    List.singleton_append, List.dropWhile_cons_of_neg (by simp [visible']), List.reverse_cons,
    List.reverse_reverse]

/-- White space around a text goes with the rest. -/
theorem trim_append {before after : List Char} (spaces : ∀ c ∈ before, isSpace c = true)
    (spaces' : ∀ c ∈ after, isSpace c = true) (text : List Char) :
    trim (before ++ text ++ after) = trim text := by
  have start : trimStart (before ++ text ++ after) = trimStart (text ++ after) := by
    rw [trimStart, List.append_assoc, List.dropWhile_append_of_pos spaces, trimStart]
  rw [trim, start, trim, trimStart, List.dropWhile_append, trimStart]
  split
  · next blank =>
      have nothing := @List.dropWhile_append_of_pos _ _ after [] spaces'
      rw [List.append_nil] at nothing
      rw [nothing, List.isEmpty_iff.mp blank, List.dropWhile_nil]
  · rw [trimEnd, List.reverse_append, List.dropWhile_append_of_pos (by simpa using spaces'),
      trimEnd]

/-- What is dropped in front is of the kind that is dropped. -/
theorem filter_not_dropWhile (p : Char → Bool) (text : List Char) :
    (text.dropWhile p).filter (!p ·) = text.filter (!p ·) := by
  induction text with
  | nil => rfl
  | cons c rest ih =>
      cases holds : p c with
      | true => rw [List.dropWhile_cons_of_pos holds, ih, List.filter_cons_of_neg (by simp [holds])]
      | false => rw [List.dropWhile_cons_of_neg (by simp [holds])]

theorem dropEnding?_append (text ending : List Char) :
    dropEnding? ending (text ++ ending) = some text := by
  simp [dropEnding?]

theorem dropEnding?_eq_some {ending text rest : List Char}
    (dropped : dropEnding? ending text = some rest) : text = rest ++ ending := by
  unfold dropEnding? at dropped
  split at dropped
  · next isSuffix =>
      obtain ⟨front, rfl⟩ := List.isSuffixOf_iff_suffix.mp isSuffix
      rw [List.length_append, Nat.add_sub_cancel, List.take_left] at dropped
      cases dropped
      rfl
  · cases dropped

theorem dropEnding?_singleton_eq_none {last : Char} {text : List Char} (absent : last ∉ text) :
    dropEnding? [last] text = none := by
  rw [dropEnding?, if_neg]
  rw [List.isSuffixOf_iff_suffix]
  intro isEnding
  exact absent (isEnding.mem (by simp))

/-- A piece between marks is a part of the text without the mark. -/
theorem of_mem_splitOn {mark : Char} {text piece : List Char}
    (member : piece ∈ text.splitOn mark) : mark ∉ piece ∧ piece ⊆ text := by
  induction text generalizing piece with
  | nil =>
      rw [List.splitOn_nil, List.mem_singleton] at member
      subst member
      exact ⟨List.not_mem_nil, List.Subset.refl _⟩
  | cons c rest ih =>
      rw [List.splitOn_cons_eq_if_modifyHead] at member
      split at member
      · rcases List.mem_cons.mp member with rfl | later
        · exact ⟨List.not_mem_nil, List.nil_subset _⟩
        · exact ⟨(ih later).1, List.subset_cons_of_subset _ (ih later).2⟩
      · next differs =>
          cases pieces : rest.splitOn mark with
          | nil => exact absurd pieces (List.splitOn_ne_nil _ _)
          | cons first others =>
              rw [pieces] at member ih
              rcases List.mem_cons.mp member with rfl | later
              · obtain ⟨absent, inside⟩ := ih List.mem_cons_self
                refine ⟨?_, List.cons_subset_cons c inside⟩
                rw [List.mem_cons, not_or]
                exact ⟨fun same => differs (beq_iff_eq.mpr same.symm), absent⟩
              · obtain ⟨absent, inside⟩ := ih (List.mem_cons_of_mem _ later)
                exact ⟨absent, List.subset_cons_of_subset _ inside⟩

/-- Trimming keeps what can be seen. -/
theorem visible_trimEnd (text : List Char) :
    (trimEnd text).filter (!isSpace ·) = text.filter (!isSpace ·) := by
  rw [trimEnd, List.filter_reverse, filter_not_dropWhile, ← List.filter_reverse,
    List.reverse_reverse]

theorem visible_trim (text : List Char) :
    (trim text).filter (!isSpace ·) = text.filter (!isSpace ·) := by
  rw [trim, visible_trimEnd, trimStart, filter_not_dropWhile]

theorem mem_of_filter_eq {p : Char → Bool} {text other : List Char} {c : Char}
    (same : other.filter p = text.filter p) (holds : p c = true) (member : c ∈ text) :
    c ∈ other := by
  have inside : c ∈ text.filter p := List.mem_filter.mpr ⟨member, holds⟩
  rw [← same] at inside
  exact (List.mem_filter.mp inside).1

theorem visible_eq_nil_iff {text : List Char} :
    text.filter (!isSpace ·) = [] ↔ isBlank text = true := by
  simp [isBlank]

section

variable {isSeparator : Char → Bool} {c : Char} {word : List Char}

/-- A separator cuts a text in two. -/
theorem fields_append_cons (separates : isSeparator c = true) (before after : List Char) :
    fields isSeparator (before ++ c :: after) =
      fields isSeparator before ++ fields isSeparator after := by
  rw [fields, List.splitOnP_append_cons before after separates, List.filter_append, ← fields,
    ← fields]

/-- A separator in front counts for nothing. -/
theorem fields_cons (separates : isSeparator c = true) (rest : List Char) :
    fields isSeparator (c :: rest) = fields isSeparator rest := by
  have := fields_append_cons separates [] rest
  rwa [List.nil_append, show fields isSeparator [] = [] by simp [fields], List.nil_append] at this

theorem fields_word (nonempty : word ≠ []) (unbroken : ∀ c ∈ word, isSeparator c = false) :
    fields isSeparator word = [word] := by
  rw [fields, List.splitOnP_eq_singleton (by simpa using unbroken),
    List.filter_cons_of_pos (by simpa using nonempty), List.filter_nil]

end

end ThemedSvg.Text

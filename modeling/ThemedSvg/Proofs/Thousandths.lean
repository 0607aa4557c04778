/-
# Alphas in thousandths

An alpha is printed in whole thousandths, with a point and without the zeros at the end. Read
back, the text rounds to another number than the printed one was, but it lies so near to the
thousandths of it that it prints alike. Only alphas that are next to opaque get a text that
an opaque one would have.
-/

import Mathlib.Data.List.TakeWhile
import ThemedSvg.Paint.Notation
import ThemedSvg.Proofs.SinglePrecision

namespace ThemedSvg

open Paint

namespace Binary32

/-! ## Reading digits -/

theorem digitsValue_append (first second : List Char) :
    digitsValue (first ++ second) = Nat.ofDigitChars 10 second (digitsValue first) :=
  List.foldl_append

theorem digitsValue_decimal (n : Nat) : digitsValue (Text.decimal n) = n :=
  Nat.ofDigitChars_ten_toDigits

/-- What begins with a digit is no word and has no sign. -/
theorem read?_of_isDigit {c : Char} (isDigit : c.isDigit = true) (rest : List Char) :
    read? (c :: rest) = readDigits? false (c :: rest) := by
  have sign : readSign (c :: rest) = (false, c :: rest) := by
    rw [readSign] <;> · rintro _ ⟨⟩; cases isDigit
  have noWord (letter : Char) (letters : List Char) (isLetter : letter.isDigit = false) :
      Text.lowerAscii (c :: rest) ≠ letter :: letters := by
    intro same
    rw [Text.lowerAscii, List.map_cons, Text.toLower_of_isDigit isDigit, List.cons.injEq] at same
    rw [← same.1, isDigit] at isLetter
    cases isLetter
  simp [read?, sign, noWord]

/-- Digits, and more of them behind a point. -/
theorem readDigits?_places (negative : Bool) {whole fraction : List Char} (nonempty : whole ≠ [])
    (digits : ∀ c ∈ whole, c.isDigit = true) (digits' : ∀ c ∈ fraction, c.isDigit = true) :
    readDigits? negative (whole ++ '.' :: fraction) =
      some (ofDecimal negative (digitsValue (whole ++ fraction)) (-fraction.length)) := by
  have point : ('.' : Char).isDigit = false := by decide
  have taken : (whole ++ '.' :: fraction).takeWhile Char.isDigit = whole := by
    rw [List.takeWhile_append_of_pos digits, List.takeWhile_cons_of_neg (by simp [point]),
      List.append_nil]
  have dropped : (whole ++ '.' :: fraction).dropWhile Char.isDigit = '.' :: fraction := by
    rw [List.dropWhile_append_of_pos digits, List.dropWhile_cons_of_neg (by simp [point])]
  have taken' : fraction.takeWhile Char.isDigit = fraction := List.takeWhile_eq_self_iff.mpr digits'
  have dropped' : fraction.dropWhile Char.isDigit = [] := List.dropWhile_eq_nil_iff.mpr digits'
  simp [readDigits?, taken, dropped, taken', dropped', nonempty, readExponent?]

theorem readDigits?_whole (negative : Bool) {whole : List Char} (nonempty : whole ≠ [])
    (digits : ∀ c ∈ whole, c.isDigit = true) :
    readDigits? negative whole = some (ofDecimal negative (digitsValue whole) 0) := by
  have taken : whole.takeWhile Char.isDigit = whole := List.takeWhile_eq_self_iff.mpr digits
  have dropped : whole.dropWhile Char.isDigit = [] := List.dropWhile_eq_nil_iff.mpr digits
  simp [readDigits?, taken, dropped, nonempty, readExponent?]

/-- A few decimal places are within reach. -/
theorem ofDecimal_eq_nearest (negative : Bool) {digits places : Nat} (few : digits < 1000)
    (within : places ≤ 3) :
    ofDecimal negative digits (-places) = nearest negative digits (10 ^ places) := by
  have length : (Text.decimal digits).length ≤ 3 :=
    (Nat.length_toDigits_le_iff (by decide) (by decide)).mpr few
  unfold ofDecimal
  by_cases isZero : digits = 0
  · simp [isZero, nearest]
  · simp only
    rw [if_neg isZero, if_neg (by unfold decimalReach; omega),
      if_neg (by unfold decimalReach; omega)]
    simp [Int.toNat_of_nonpos]

/-- The text of a whole number below 1000 is read as that number. -/
theorem read?_decimal {n : Nat} (few : n < 1000) :
    read? (Text.decimal n) = some (nearest false n 1) := by
  obtain ⟨c, rest, isText⟩ := List.exists_cons_of_ne_nil (Text.decimal_ne_nil n)
  have digit : c.isDigit = true :=
    Text.isDigit_of_mem_decimal (n := n) (by rw [isText]; exact List.mem_cons_self)
  have places := ofDecimal_eq_nearest false few (Nat.zero_le 3)
  rw [isText, read?_of_isDigit digit, ← isText,
    readDigits?_whole false (Text.decimal_ne_nil n) fun _ => Text.isDigit_of_mem_decimal,
    digitsValue_decimal]
  exact congrArg some places

/-! ## Printing thousandths -/

/-- The text of so many thousandths. -/
def placesText (thousandths : Nat) : List Char :=
  Text.decimal (thousandths / 1000) ++ fractionText thousandths

/-- Three digits. -/
def threeDigits (n : Nat) : List Char :=
  [Nat.digitChar (n / 100), Nat.digitChar (n / 10 % 10), Nat.digitChar (n % 10)]

theorem decimal_thousand_add {n : Nat} (few : n < 1000) :
    Text.decimal (1000 + n) = '1' :: threeDigits n := by
  unfold Text.decimal
  rw [Nat.toDigits_of_base_le (by decide) (by omega),
    Nat.toDigits_of_base_le (by decide) (by omega),
    Nat.toDigits_of_base_le (by decide) (by omega), Nat.toDigits_of_lt_base (by omega)]
  have leading : (1000 + n) / 10 / 10 / 10 = 1 := by omega
  have hundreds : (1000 + n) / 10 / 10 % 10 = n / 100 := by omega
  have tens : (1000 + n) / 10 % 10 = n / 10 % 10 := by omega
  have ones : (1000 + n) % 10 = n % 10 := by omega
  rw [leading, hundreds, tens, ones]
  rfl

theorem isDigit_of_mem_threeDigits {n : Nat} (few : n < 1000) {c : Char}
    (member : c ∈ threeDigits n) : c.isDigit = true := by
  apply Text.isDigit_of_mem_decimal (n := 1000 + n)
  rw [decimal_thousand_add few]
  exact List.mem_cons_of_mem _ member

theorem digitsValue_threeDigits {n : Nat} (few : n < 1000) : digitsValue (threeDigits n) = n := by
  have value : digitsValue ('1' :: threeDigits n) = 1000 + n := by
    rw [← decimal_thousand_add few, digitsValue_decimal]
  have leading : digitsValue ('1' :: threeDigits n) = 10 ^ 3 * 1 + digitsValue (threeDigits n) := by
    rw [← List.singleton_append, digitsValue_append]
    exact Nat.ofDigitChars_eq_ofDigitChars_zero
  omega

/-- The places that are written are all but the zeros at the end. -/
theorem exists_places (t : Nat) :
    ∃ kept zeros, fractionText t = (if kept.isEmpty then [] else '.' :: kept) ∧
      threeDigits (t % 1000) = kept ++ List.replicate zeros '0' := by
  have dropped : (Text.decimal (1000 + t % 1000)).drop 1 = threeDigits (t % 1000) := by
    rw [decimal_thousand_add (Nat.mod_lt t (by decide))]
    rfl
  generalize threeDigits (t % 1000) = digits at dropped
  refine ⟨(digits.reverse.dropWhile (· == '0')).reverse,
    (digits.reverse.takeWhile (· == '0')).length, ?_, ?_⟩
  · simp only [fractionText, dropped]
  · have zeros : digits.reverse.takeWhile (· == '0') =
        List.replicate (digits.reverse.takeWhile (· == '0')).length '0' := by
      rw [List.eq_replicate_iff]
      exact ⟨rfl, fun c member => by simpa using List.mem_takeWhile_imp member⟩
    have parts := congrArg List.reverse
      (List.takeWhile_append_dropWhile (p := (· == '0')) (l := digits.reverse))
    rw [List.reverse_append, List.reverse_reverse, zeros, List.reverse_replicate] at parts
    exact parts.symm

theorem isDigit_or_point_of_mem_placesText {t : Nat} {c : Char} (member : c ∈ placesText t) :
    c.isDigit = true ∨ c = '.' := by
  obtain ⟨kept, zeros, isFraction, isDigits⟩ := exists_places t
  rw [placesText, isFraction, List.mem_append] at member
  rcases member with inWhole | inFraction
  · exact .inl (Text.isDigit_of_mem_decimal inWhole)
  · split at inFraction
    · cases inFraction
    · rcases List.mem_cons.mp inFraction with isPoint | inKept
      · exact .inr isPoint
      · refine .inl (isDigit_of_mem_threeDigits (Nat.mod_lt t (by decide)) ?_)
        rw [isDigits]
        exact List.mem_append_left _ inKept

/-- The text of thousandths below one is read as the number nearest to them. -/
theorem read?_placesText {t : Nat} (few : t < 1000) :
    ∃ digits places, digits * 1000 = t * 10 ^ places ∧
      read? (placesText t) = some (nearest false digits (10 ^ places)) := by
  obtain ⟨kept, zeros, isFraction, isDigits⟩ := exists_places t
  rw [Nat.mod_eq_of_lt few] at isDigits
  have length : kept.length + zeros = 3 := by
    have := congrArg List.length isDigits
    rw [List.length_append, List.length_replicate] at this
    exact this.symm
  have value : digitsValue kept * 10 ^ zeros = t := by
    rw [← digitsValue_threeDigits few, isDigits, digitsValue_append,
      Nat.ofDigitChars_replicate_zero, Nat.mul_comm]
  have keptDigits : ∀ c ∈ kept, c.isDigit = true := fun c member =>
    isDigit_of_mem_threeDigits few (by rw [isDigits]; exact List.mem_append_left _ member)
  have scaled : digitsValue kept * 1000 = t * 10 ^ kept.length := by
    calc digitsValue kept * 1000 = digitsValue kept * 10 ^ (zeros + kept.length) := by
          rw [Nat.add_comm, length]
          norm_num
      _ = t * 10 ^ kept.length := by rw [Nat.pow_add, ← Nat.mul_assoc, value]
  refine ⟨digitsValue kept, kept.length, scaled, ?_⟩
  have whole : Text.decimal (t / 1000) = ['0'] := by
    rw [Nat.div_eq_of_lt few]
    rfl
  rw [placesText, whole, isFraction]
  cases kept with
  | nil => rfl
  | cons c rest =>
      have few' : digitsValue (c :: rest) < 1000 := by
        have := Nat.le_mul_of_pos_right (digitsValue (c :: rest))
          (Nat.pow_pos (n := zeros) (by decide : 0 < 10))
        omega
      have value' : digitsValue (['0'] ++ c :: rest) = digitsValue (c :: rest) := rfl
      show read? ('0' :: '.' :: c :: rest) = _
      rw [read?_of_isDigit (by decide), ← List.singleton_append,
        readDigits?_places false (by decide) (List.forall_mem_singleton.mpr (by decide)) keptDigits,
        value',
        ofDecimal_eq_nearest false few' (by omega)]

/-- An alpha prints as its thousandths. -/
theorem thousandthsText_of_round {x : Binary32} {s : Bool} {t : Nat} (few : t ≤ 1000)
    (isRound : (x * 1000).round = nearest s t 1) :
    x.thousandthsText = (if s then ['-'] else []) ++ placesText t := by
  obtain ⟨m, e, isNearest, isWhole⟩ := nearest_whole s (by omega : t < 1024)
  rw [thousandthsText, isRound, isNearest]
  simp only [whole_of_magnitude isWhole, placesText, List.append_assoc]

/-! ## Shares -/

/-- Neither below 0 nor above 1, which what is no number is not either. -/
def IsShare (x : Binary32) : Prop := lt x 0 = false ∧ lt 1 x = false

instance (x : Binary32) : Decidable x.IsShare := inferInstanceAs (Decidable (_ ∧ _))

/-- Below 1, but not in whole thousandths. -/
def AlmostOne (x : Binary32) : Prop := le 1 x = false ∧ (x * 1000).round = 1000

instance (x : Binary32) : Decidable x.AlmostOne := inferInstanceAs (Decidable (_ ∧ _))

theorem almostOne_iff {x : Binary32} {s : Bool} {t : Nat} (few : t ≤ 1000)
    (below : le 1 x = false) (isRound : (x * 1000).round = nearest s t 1) :
    x.AlmostOne ↔ s = false ∧ t = 1000 := by
  rw [AlmostOne, isRound]
  constructor
  · rintro ⟨-, same⟩
    exact nearest_whole_inj (k := 1000) (by omega) (by decide) same
  · rintro ⟨rfl, rfl⟩
    exact ⟨below, rfl⟩

theorem isShare_clamp (x : Binary32) : (clamp 0 1 x).IsShare := by
  unfold clamp
  split
  · decide
  · next notBelow =>
      split
      · decide
      · next notAbove => exact ⟨by simpa using notBelow, by simpa using notAbove⟩

/-- A magnitude up to 1 is a share. -/
theorem isShare_finite {m : Nat} {e : Int} (small : magnitude m e ≤ 1) :
    (finite false m e).IsShare := by
  constructor
  · rw [zero_eq, lt_finite_eq_false, magnitude_zero]
    exact magnitude_nonneg m e
  · rw [one_eq, lt_finite_eq_false, magnitude_one]
    exact small

theorem IsShare.eq_nan_or_finite {x : Binary32} (share : x.IsShare) :
    x = nan ∨ ∃ s m e, x = finite s m e ∧ magnitude m e ≤ 1 ∧ (s = true → m = 0) := by
  obtain ⟨notBelow, notAbove⟩ := share
  cases x with
  | nan => exact .inl rfl
  | infinite s =>
      cases s
      · cases notAbove
      · cases notBelow
  | finite s m e =>
      rw [zero_eq, lt_finite_eq_false, magnitude_zero] at notBelow
      rw [one_eq, lt_finite_eq_false, magnitude_one] at notAbove
      refine .inr ⟨s, m, e, rfl, ?_⟩
      cases s with
      | false => exact ⟨notAbove, nofun⟩
      | true =>
          have isZero : magnitude m e = 0 :=
            le_antisymm (by simpa [signed] using notBelow) (magnitude_nonneg m e)
          exact ⟨isZero.trans_le zero_le_one, fun _ => magnitude_eq_zero_iff.mp isZero⟩

theorem clamp_eq_self {x : Binary32} (share : x.IsShare) : clamp 0 1 x = x := by
  simp [clamp, share.1, share.2]

end Binary32

namespace Paint

open Binary32

/-- Thousandths below one are read as a number below 1 that has as many thousandths. -/
theorem alpha?_placesText {t : Nat} (few : t < 1000) :
    ∃ x, alpha? (placesText t) = some x ∧ le 1 x = false ∧
      (x * 1000).round = nearest false t 1 := by
  obtain ⟨digits, places, scaled, isRead⟩ := read?_placesText few
  have percent : '%' ∉ placesText t := by
    intro member
    rcases isDigit_or_point_of_mem_placesText member with isDigit | isPoint
    · cases isDigit
    · cases isPoint
  have quotient : (digits : ℚ) / (10 ^ places : Nat) = t / 1000 := by
    rw [div_eq_div_iff (by positivity) (by norm_num)]
    exact_mod_cast scaled
  have below : digits < 1024 * 10 ^ places := by
    have := Nat.pow_pos (n := places) (by decide : 0 < 10)
    have := Nat.mul_lt_mul_of_pos_right few this
    omega
  obtain ⟨m, e, isNearest, near⟩ := nearest_near false (Nat.pow_pos (by decide)) below
  rw [quotient] at near
  have less : magnitude m e < 1 := by
    have few' : (t : ℚ) ≤ 999 := by exact_mod_cast Nat.le_of_lt_succ few
    linarith [(abs_le.mp near).2]
  refine ⟨finite false m e, ?_, ?_, thousandths_of_near false few.le near⟩
  · have whole : Text.dropEnding? ['%'] (placesText t) = none :=
      Text.dropEnding?_singleton_eq_none percent
    simp only [alpha?]
    rw [whole, isRead, isNearest]
    exact congrArg some (clamp_eq_self (isShare_finite less.le))
  · have lt_one : lt (finite false m e) 1 = true := by
      rw [one_eq, lt_finite, magnitude_one]
      exact less
    simp [le, lt_one]

/-- Read back, an alpha below 1 prints alike, unless it is next to opaque: then it is read as
opaque. -/
theorem alpha?_thousandthsText {x : Binary32} (share : x.IsShare) (below : le 1 x = false) :
    ∃ again, alpha? (Text.lowerAscii x.thousandthsText) = some again ∧
      (x.AlmostOne → again = 1) ∧
      (¬ x.AlmostOne → le 1 again = false ∧ again.thousandthsText = x.thousandthsText) := by
  rcases share.eq_nan_or_finite with rfl | ⟨s, m, e, rfl, small, signless⟩
  · exact ⟨nan, by decide, by decide, fun _ => ⟨rfl, rfl⟩⟩
  cases s with
  | true =>
      -- the negative zero keeps its sign
      have isRound : (finite true m e * 1000).round = nearest true 0 1 :=
        thousandths_of_near true (Nat.zero_le _) (by simp [signless rfl])
      have isText := thousandthsText_of_round (Nat.zero_le _) isRound
      refine ⟨zero true, by rw [isText]; decide, ?_, fun _ => ⟨by decide, by rw [isText]; decide⟩⟩
      intro almost
      cases ((almostOne_iff (Nat.zero_le _) below isRound).mp almost).1
  | false =>
      obtain ⟨t, few, isRound⟩ := exists_thousandths false small
      have isText := thousandthsText_of_round few isRound
      rw [if_neg (by decide), List.nil_append] at isText
      rcases few.lt_or_eq with few' | rfl
      · obtain ⟨again, isRead, notOne, isRound'⟩ := alpha?_placesText few'
        have lower : Text.lowerAscii (placesText t) = placesText t := by
          refine (List.map_congr_left fun c member => ?_).trans (List.map_id _)
          rcases isDigit_or_point_of_mem_placesText member with isDigit | rfl
          · exact Text.toLower_of_isDigit isDigit
          · rfl
        refine ⟨again, by rw [isText, lower, isRead], ?_, fun _ => ⟨notOne, ?_⟩⟩
        · intro almost
          exact absurd ((almostOne_iff few below isRound).mp almost).2 few'.ne
        · rw [isText, thousandthsText_of_round few isRound']
          rfl
      · refine ⟨1, by rw [isText]; decide, fun _ => rfl, ?_⟩
        intro notAlmost
        exact absurd ((almostOne_iff few below isRound).mpr ⟨rfl, rfl⟩) notAlmost

end Paint

end ThemedSvg

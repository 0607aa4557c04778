/-
# Numbers in normal form

A number of the format has one significand and one exponent: the significand is short enough,
and as long as that allows unless the exponent is the smallest one. Rounding gives numbers in
this form, and so do reading and dividing. Among them two that are equal as numbers are the
same, apart from the two zeros.
-/

import Mathlib.Data.Int.Log
import ThemedSvg.Number.Decimal
import ThemedSvg.Proofs.SinglePrecision

namespace ThemedSvg.Binary32

/-- A significand of at most 24 bits, and of 24 unless the exponent is the smallest. -/
structure InFormat (m : Nat) (e : Int) : Prop where
  short : m < 2 * fullSignificand
  least : leastExponent ≤ e
  full : e ≠ leastExponent → fullSignificand ≤ m

/-- A finite number is held in the one way that the format has for it. -/
def IsNormal : Binary32 → Prop
  | finite _ m e => InFormat m e
  | _ => True

/-! ## One significand for one number -/

/-- A larger exponent means a larger number. -/
theorem InFormat.le_of_magnitude_eq {m n : Nat} {e f : Int} (inFormat : InFormat m e)
    (inFormat' : InFormat n f) (same : magnitude m e = magnitude n f) : f ≤ e := by
  by_contra! larger
  have full : fullSignificand ≤ n := inFormat'.full (by have := inFormat.least; omega)
  have short := inFormat.short
  obtain ⟨k, rfl⟩ : ∃ k : Nat, f = e + 1 + k := ⟨(f - (e + 1)).toNat, by omega⟩
  have power : (2 : ℚ) ^ (e + 1 + k) = 2 ^ e * (2 * 2 ^ k) := by
    rw [zpow_add₀ two_ne_zero, zpow_add₀ two_ne_zero, zpow_one, zpow_natCast, mul_assoc]
  have positive : (0 : ℚ) < 2 ^ e := by positivity
  rw [magnitude, magnitude, power, mul_left_comm, mul_comm] at same
  have shifted : m = n * (2 * 2 ^ k) := by exact_mod_cast mul_left_cancel₀ positive.ne' same
  have grows : n * (2 * 1) ≤ n * (2 * 2 ^ k) :=
    Nat.mul_le_mul_left n (Nat.mul_le_mul_left 2 (Nat.one_le_two_pow))
  omega

theorem InFormat.eq_of_magnitude_eq {m n : Nat} {e f : Int} (inFormat : InFormat m e)
    (inFormat' : InFormat n f) (same : magnitude m e = magnitude n f) : m = n ∧ e = f := by
  have exponent : e = f :=
    le_antisymm (inFormat'.le_of_magnitude_eq inFormat same.symm)
      (inFormat.le_of_magnitude_eq inFormat' same)
  subst exponent
  have positive : (0 : ℚ) < 2 ^ e := by positivity
  exact ⟨by exact_mod_cast mul_right_cancel₀ positive.ne' same, rfl⟩

theorem inFormat_zero : InFormat 0 leastExponent :=
  ⟨by decide, le_rfl, fun differs => absurd rfl differs⟩

/-! ## Rounding gives numbers in normal form -/

/-- Rounding does not pass a whole number that the quotient does not pass. -/
theorem nearestEven_le {num den bound : Nat} (positive : 0 < den) (below : num ≤ bound * den) :
    nearestEven num den ≤ bound := by
  have positive' : (0 : ℚ) < den := by exact_mod_cast positive
  have quotient : (num : ℚ) / den ≤ bound := by
    rw [div_le_iff₀ positive']
    exact_mod_cast below
  have near := (abs_le.mp (nearestEven_near num positive)).2
  apply Nat.lt_succ_iff.mp
  have : (nearestEven num den : ℚ) < bound + 1 := by linarith
  exact_mod_cast this

theorem le_nearestEven {num den bound : Nat} (positive : 0 < den) (above : bound * den ≤ num) :
    bound ≤ nearestEven num den := by
  have positive' : (0 : ℚ) < den := by exact_mod_cast positive
  have quotient : (bound : ℚ) ≤ num / den := by
    rw [le_div_iff₀ positive']
    exact_mod_cast above
  have near := (abs_le.mp (nearestEven_near num positive)).1
  apply Nat.lt_succ_iff.mp
  have : (bound : ℚ) < nearestEven num den + 1 := by linarith
  exact_mod_cast this

/-- The significand at an exponent that is neither too small for a quotient nor, unless it is
the smallest, too large. -/
theorem significand_bounds {num den : Nat} {e : Int} (positive : 0 < num) (positive' : 0 < den)
    (isExponent : e = max (binaryOrder num den - 23) leastExponent) :
    nearestEven (num * powerAbove (-e)) (den * powerAbove e) ≤ 2 * fullSignificand ∧
      (e ≠ leastExponent →
        fullSignificand ≤ nearestEven (num * powerAbove (-e)) (den * powerAbove e)) := by
  obtain ⟨lower, upper⟩ := binaryOrder_spec positive positive'
  have den_pos : (0 : ℚ) < den := by exact_mod_cast positive'
  have unit : 0 < den * powerAbove e := Nat.mul_pos positive' (powerAbove_pos e)
  have unit' : (0 : ℚ) < powerAbove (-e) := by exact_mod_cast powerAbove_pos (-e)
  have scaled : (powerAbove e : ℚ) = 2 ^ e * powerAbove (-e) := by
    rw [← powerAbove_div, div_mul_cancel₀ _ unit'.ne']
  constructor
  · apply nearestEven_le unit
    have small : (num : ℚ) / den ≤ 2 ^ (24 : Int) * 2 ^ e := by
      rw [← zpow_add₀ two_ne_zero]
      exact upper.le.trans (zpow_le_zpow_right₀ one_le_two (by omega))
    rw [div_le_iff₀ den_pos] at small
    have : (num : ℚ) * powerAbove (-e) ≤ 2 ^ 24 * (den * powerAbove e) := by
      rw [scaled]
      calc (num : ℚ) * powerAbove (-e)
          ≤ 2 ^ (24 : Int) * 2 ^ e * den * powerAbove (-e) := by gcongr
        _ = 2 ^ 24 * (den * (2 ^ e * powerAbove (-e))) := by norm_num; ring
    exact_mod_cast this
  · intro notLeast
    apply le_nearestEven unit
    have large : (2 : ℚ) ^ (23 : Int) * 2 ^ e ≤ num / den := by
      rw [← zpow_add₀ two_ne_zero]
      exact (zpow_le_zpow_right₀ one_le_two (by omega)).trans lower
    rw [le_div_iff₀ den_pos] at large
    have : 2 ^ 23 * (den * powerAbove e : ℚ) ≤ num * powerAbove (-e) := by
      rw [scaled]
      calc 2 ^ 23 * (den * (2 ^ e * powerAbove (-e)) : ℚ)
          = 2 ^ (23 : Int) * 2 ^ e * den * powerAbove (-e) := by norm_num; ring
        _ ≤ num * powerAbove (-e) := by gcongr
    exact_mod_cast this

/-- The number next to a quotient is in normal form. -/
theorem isNormal_nearest (s : Bool) (num : Nat) {den : Nat} (positive : 0 < den) :
    (nearest s num den).IsNormal := by
  have held {m : Nat} {e : Int} (inFormat : InFormat m e) :
      (if greatestExponent < e then infinite s else finite s m e).IsNormal := by
    split
    · trivial
    · exact inFormat
  by_cases isZero : num = 0
  · rw [nearest, if_pos isZero]
    exact inFormat_zero
  · have least : leastExponent ≤ max (binaryOrder num den - 23) leastExponent := le_max_right _ _
    obtain ⟨short, full⟩ := significand_bounds (Nat.pos_of_ne_zero isZero) positive rfl
    rw [nearest, if_neg isZero]
    generalize max (binaryOrder num den - 23) leastExponent = e at least short full
    dsimp only
    split
    · -- the significand has become too long, and the next exponent has a short one
      refine held ⟨?_, ?_, fun _ => le_rfl⟩
      · show fullSignificand < 2 * fullSignificand
        decide
      · show leastExponent ≤ e + 1
        omega
    · next fits => exact held ⟨short.lt_of_ne fits, least, full⟩

theorem isNormal_div (x y : Binary32) : (x / y).IsNormal := by
  show (div x y).IsNormal
  cases x with
  | nan => cases y <;> trivial
  | infinite s => cases y <;> trivial
  | finite s m e =>
      cases y with
      | nan => trivial
      | infinite t => exact inFormat_zero
      | finite t n f =>
          rw [div]
          split
          · split <;> trivial
          · next nonzero =>
              exact isNormal_nearest _ _
                (Nat.mul_pos (Nat.pos_of_ne_zero nonzero) (powerAbove_pos _))

theorem isNormal_ofDecimal (negative : Bool) (digits : Nat) (exponent : Int) :
    (ofDecimal negative digits exponent).IsNormal := by
  unfold ofDecimal
  dsimp only
  split
  · exact inFormat_zero
  · split
    · trivial
    · split
      · exact inFormat_zero
      · exact isNormal_nearest _ _ (Nat.pow_pos (by decide))

theorem isNormal_readDigits? {negative : Bool} {text : List Char} {x : Binary32}
    (isRead : readDigits? negative text = some x) : x.IsNormal := by
  have ofParts (whole fraction rest : List Char)
      (isRead : (if whole.isEmpty && fraction.isEmpty then none
        else (readExponent? rest).map fun exponent =>
          ofDecimal negative (digitsValue (whole ++ fraction)) (exponent - fraction.length)) =
        some x) : x.IsNormal := by
    split at isRead
    · cases isRead
    · obtain ⟨exponent, -, rfl⟩ := Option.map_eq_some_iff.mp isRead
      exact isNormal_ofDecimal _ _ _
  exact ofParts _ _ _ isRead

/-- Every number that is read is in normal form. -/
theorem isNormal_read? {text : List Char} {x : Binary32} (isRead : read? text = some x) :
    x.IsNormal := by
  unfold read? at isRead
  dsimp only at isRead
  split at isRead
  · cases isRead
    trivial
  · split at isRead
    · cases isRead
      trivial
    · exact isNormal_readDigits? isRead

theorem isNormal_clamp {low high x : Binary32} (isLow : low.IsNormal) (isHigh : high.IsNormal)
    (isNormal : x.IsNormal) : (clamp low high x).IsNormal := by
  unfold clamp
  split
  · exact isLow
  · split
    · exact isHigh
    · exact isNormal

/-! ## Equal numbers -/

/-- The two zeros, in either order. -/
def OppositeZeros (x y : Binary32) : Prop := ∃ s, x = zero s ∧ y = zero !s

theorem eq_or_oppositeZeros_of_signed {s t : Bool} {m n : Nat} {e f : Int}
    (inFormat : InFormat m e) (inFormat' : InFormat n f)
    (same : signed s (magnitude m e) = signed t (magnitude n f)) :
    finite s m e = finite t n f ∨ OppositeZeros (finite s m e) (finite t n f) := by
  by_cases sign : s = t
  · subst sign
    have same' : magnitude m e = magnitude n f := by
      cases s
      · exact same
      · exact neg_inj.mp same
    obtain ⟨rfl, rfl⟩ := inFormat.eq_of_magnitude_eq inFormat' same'
    exact .inl rfl
  · -- numbers of both signs are only equal if there is nothing to sign
    have nonneg := magnitude_nonneg m e
    have nonneg' := magnitude_nonneg n f
    obtain rfl : t = !s := by cases s <;> cases t <;> simp_all
    have sum : magnitude m e + magnitude n f = 0 := by
      cases s with
      | false =>
          have opposite : magnitude m e = -magnitude n f := same
          linarith
      | true =>
          have opposite : -magnitude m e = magnitude n f := same
          linarith
    obtain ⟨rfl, rfl⟩ : m = 0 ∧ n = 0 := by
      constructor
      · exact magnitude_eq_zero_iff.mp (by linarith)
      · exact magnitude_eq_zero_iff.mp (by linarith)
    obtain ⟨-, rfl⟩ := inFormat.eq_of_magnitude_eq inFormat_zero (by simp)
    obtain ⟨-, rfl⟩ := inFormat'.eq_of_magnitude_eq inFormat_zero (by simp)
    exact .inr ⟨s, rfl, rfl⟩

/-- Numbers in normal form that are equal are the same, or are the two zeros. -/
theorem eq_or_oppositeZeros {x y : Binary32} (normal : x.IsNormal) (normal' : y.IsNormal)
    (same : sameNumber x y = true) : x = y ∨ OppositeZeros x y := by
  rw [sameNumber, le, le] at same
  simp only [Bool.and_eq_true, Bool.not_eq_true'] at same
  obtain ⟨⟨⟨number, number'⟩, notAbove⟩, -, notBelow⟩ := same
  cases x with
  | nan => cases number
  | infinite s =>
      cases y with
      | nan => cases number'
      | infinite t =>
          have upper : (t && !s) = false := notAbove
          have lower : (s && !t) = false := notBelow
          left
          cases s <;> cases t <;> simp_all
      | finite t n f =>
          have upper : (!s) = false := notAbove
          have lower : s = false := notBelow
          simp [lower] at upper
  | finite s m e =>
      cases y with
      | nan => cases number'
      | infinite t =>
          have upper : t = false := notAbove
          have lower : (!t) = false := notBelow
          simp [upper] at lower
      | finite t n f =>
          rw [lt_finite_eq_false] at notAbove notBelow
          exact eq_or_oppositeZeros_of_signed normal normal' (le_antisymm notAbove notBelow)

end ThemedSvg.Binary32

/-
# Errors of single precision

Below 1024 the numbers of the format lie at most 2 ^ -14 apart, so rounding moves a number
there by 2 ^ -15 at most, and not at all if it is whole. This module says so of the exact
values that significands and exponents stand for, and follows the error of a product and of
its nearest integer.
-/

import Mathlib.Algebra.Order.Field.Power
import Mathlib.Algebra.Order.Floor.Semifield
import Mathlib.Data.Rat.Floor
import Mathlib.Tactic.FieldSimp
import Mathlib.Tactic.Linarith
import Mathlib.Tactic.NormNum
import Mathlib.Tactic.Positivity
import Mathlib.Tactic.Ring
import ThemedSvg.Number.Binary32

namespace ThemedSvg.Binary32

/-- The number `m · 2 ^ e`. -/
def magnitude (m : Nat) (e : Int) : ℚ := m * 2 ^ e

/-- A magnitude with its sign. -/
def signed (negative : Bool) (value : ℚ) : ℚ := if negative then -value else value

theorem magnitude_nonneg (m : Nat) (e : Int) : 0 ≤ magnitude m e := by
  unfold magnitude
  positivity

@[simp]
theorem magnitude_zero (e : Int) : magnitude 0 e = 0 := by
  simp [magnitude]

theorem magnitude_eq_zero_iff {m : Nat} {e : Int} : magnitude m e = 0 ↔ m = 0 := by
  have power : (2 : ℚ) ^ e ≠ 0 := by positivity
  simp [magnitude, power]

/-! ## Powers on both sides of a quotient -/

theorem powerAbove_pos (e : Int) : 0 < powerAbove e := Nat.two_pow_pos _

theorem powerAbove_of_nonneg {e : Int} (above : 0 ≤ e) : (powerAbove e : ℚ) = 2 ^ e := by
  obtain ⟨n, rfl⟩ := Int.eq_ofNat_of_zero_le above
  simp [powerAbove]

theorem powerAbove_of_nonpos {e : Int} (below : e ≤ 0) : powerAbove e = 1 := by
  rw [powerAbove, Int.toNat_of_nonpos below]

/-- A power of any exponent as the quotient that the operations work with. -/
theorem powerAbove_div (e : Int) : (powerAbove e : ℚ) / powerAbove (-e) = 2 ^ e := by
  rcases le_total 0 e with above | below
  · rw [powerAbove_of_nonneg above, powerAbove_of_nonpos (Int.neg_nonpos_of_nonneg above),
      Nat.cast_one, div_one]
  · rw [powerAbove_of_nonpos below, powerAbove_of_nonneg (Int.neg_nonneg_of_nonpos below),
      Nat.cast_one, one_div, zpow_neg, inv_inv]

theorem magnitude_eq_div (m : Nat) (e : Int) :
    magnitude m e = ((m * powerAbove e : Nat) : ℚ) / (powerAbove (-e) : Nat) := by
  rw [magnitude, ← powerAbove_div, Nat.cast_mul, mul_div_assoc]

/-- Significands at a common exponent compare as their numbers do. -/
theorem lt_finite (s t : Bool) (m n : Nat) (e f : Int) :
    lt (finite s m e) (finite t n f) = true ↔
      signed s (magnitude m e) < signed t (magnitude n f) := by
  have scaled (negative : Bool) (m : Nat) (e unit : Int) (above : unit ≤ e) :
      (withSign negative (m * powerAbove (e - unit)) : ℚ) * 2 ^ unit =
        signed negative (magnitude m e) := by
    have power : (powerAbove (e - unit) : ℚ) * 2 ^ unit = 2 ^ e := by
      rw [powerAbove_of_nonneg (Int.sub_nonneg_of_le above), ← zpow_add₀ two_ne_zero,
        Int.sub_add_cancel]
    cases negative
    · simp [withSign, signed, magnitude, mul_assoc, power]
    · simp [withSign, signed, magnitude, mul_assoc, power]
  have positive : (0 : ℚ) < 2 ^ min e f := by positivity
  rw [lt, decide_eq_true_eq, ← scaled s m e _ (min_le_left e f),
    ← scaled t n f _ (min_le_right e f), mul_lt_mul_iff_left₀ positive, Int.cast_lt]

theorem lt_finite_eq_false (s t : Bool) (m n : Nat) (e f : Int) :
    lt (finite s m e) (finite t n f) = false ↔
      signed t (magnitude n f) ≤ signed s (magnitude m e) := by
  rw [← Bool.not_eq_true, lt_finite, not_lt]

/-! ## Rounding once -/

/-- The nearest integer is at most a half away. -/
theorem nearestEven_near (num : Nat) {den : Nat} (positive : 0 < den) :
    |(nearestEven num den : ℚ) - num / den| ≤ 1 / 2 := by
  have split : (num : ℚ) = den * (num / den : Nat) + (num % den : Nat) := by
    exact_mod_cast (Nat.div_add_mod num den).symm
  have positive' : (0 : ℚ) < den := by exact_mod_cast positive
  have quotient : (num : ℚ) / den = (num / den : Nat) + (num % den : Nat) / den := by
    rw [split]
    field_simp
  have rest : (0 : ℚ) ≤ (num % den : Nat) / den := by positivity
  have less : ((num % den : Nat) : ℚ) / den ≤ 1 := by
    rw [div_le_one positive']
    exact_mod_cast (Nat.mod_lt num positive).le
  have half (h : 2 * (num % den) ≤ den) : ((num % den : Nat) : ℚ) / den ≤ 1 / 2 := by
    rw [div_le_div_iff₀ positive' two_pos]
    exact_mod_cast (by omega : num % den * 2 ≤ 1 * den)
  have half' (h : den ≤ 2 * (num % den)) : (1 : ℚ) / 2 ≤ (num % den : Nat) / den := by
    rw [div_le_div_iff₀ two_pos positive']
    exact_mod_cast (by omega : 1 * den ≤ num % den * 2)
  rw [quotient, abs_le]
  unfold nearestEven
  simp only
  split
  · next below =>
      have := half below.le
      constructor <;> linarith
  · next notBelow =>
      split
      · next above =>
          have := half' above.le
          push_cast
          constructor <;> linarith
      · next notAbove =>
          have := half (by omega)
          have := half' (by omega)
          split <;> push_cast <;> constructor <;> linarith

theorem nearestEven_one (num : Nat) : nearestEven num 1 = num := by
  simp [nearestEven, Nat.mod_one]

theorem log2_spec {n : Nat} (positive : 0 < n) :
    (2 : ℚ) ^ (n.log2 : Int) ≤ n ∧ (n : ℚ) < 2 ^ ((n.log2 : Int) + 1) := by
  constructor
  · rw [zpow_natCast]
    exact_mod_cast Nat.log2_self_le positive.ne'
  · rw [← Nat.cast_succ, zpow_natCast]
    exact_mod_cast Nat.lt_log2_self

/-- Powers are compared with a quotient across its parts. -/
theorem mul_powerAbove_le_iff {num den : Nat} (positive : 0 < den) (e : Int) :
    den * powerAbove e ≤ num * powerAbove (-e) ↔ (2 : ℚ) ^ e ≤ num / den := by
  have positive' : (0 : ℚ) < den := by exact_mod_cast positive
  have unit : (0 : ℚ) < powerAbove (-e) := by exact_mod_cast powerAbove_pos (-e)
  rw [← powerAbove_div, div_le_div_iff₀ unit positive', mul_comm den]
  exact_mod_cast Iff.rfl

/-- The order of a quotient is that of the greatest power of two up to it. -/
theorem binaryOrder_spec {num den : Nat} (positive : 0 < num) (positive' : 0 < den) :
    (2 : ℚ) ^ binaryOrder num den ≤ num / den ∧
      (num : ℚ) / den < 2 ^ (binaryOrder num den + 1) := by
  obtain ⟨num_ge, num_lt⟩ := log2_spec positive
  obtain ⟨den_ge, den_lt⟩ := log2_spec positive'
  have den_pos : (0 : ℚ) < den := by exact_mod_cast positive'
  -- the distance of the leading digits is right or one too high
  have upper : (num : ℚ) / den < 2 ^ ((num.log2 : Int) - den.log2 + 1) := by
    rw [div_lt_iff₀ den_pos]
    calc (num : ℚ) < 2 ^ ((num.log2 : Int) + 1) := num_lt
      _ = 2 ^ ((num.log2 : Int) - den.log2 + 1) * 2 ^ (den.log2 : Int) := by
        rw [← zpow_add₀ two_ne_zero]
        congr 1
        omega
      _ ≤ 2 ^ ((num.log2 : Int) - den.log2 + 1) * den := by gcongr
  have lower : (2 : ℚ) ^ ((num.log2 : Int) - den.log2 - 1) ≤ num / den := by
    rw [le_div_iff₀ den_pos]
    calc (2 : ℚ) ^ ((num.log2 : Int) - den.log2 - 1) * den
        ≤ 2 ^ ((num.log2 : Int) - den.log2 - 1) * 2 ^ ((den.log2 : Int) + 1) := by gcongr
      _ = 2 ^ (num.log2 : Int) := by
        rw [← zpow_add₀ two_ne_zero]
        congr 1
        omega
      _ ≤ num := num_ge
  unfold binaryOrder
  dsimp only
  split
  · next fits => exact ⟨(mul_powerAbove_le_iff positive' _).mp fits, upper⟩
  · next fails =>
      rw [mul_powerAbove_le_iff positive', not_le] at fails
      rw [Int.sub_add_cancel]
      exact ⟨lower, fails⟩

/-- A quotient below a power of two has a smaller order. -/
theorem binaryOrder_lt {num den k : Nat} (positive : 0 < num) (below : num < 2 ^ k * den) :
    binaryOrder num den < k := by
  have positive' : 0 < den := Nat.pos_of_ne_zero (by rintro rfl; simp at below)
  have den_pos : (0 : ℚ) < den := by exact_mod_cast positive'
  have quotient : (num : ℚ) / den < 2 ^ (k : Int) := by
    rw [div_lt_iff₀ den_pos, zpow_natCast]
    exact_mod_cast below
  exact (zpow_lt_zpow_iff_right₀ one_lt_two).mp
    ((binaryOrder_spec positive positive').1.trans_lt quotient)

/-- Below 1024 a quotient is rounded to a multiple of `2 ^ -14` or a finer one. -/
theorem nearest_eq (s : Bool) {num den : Nat} (positive : 0 < den) (below : num < 1024 * den) :
    ∃ (k : Nat) (m : Nat) (e : Int), 14 ≤ k ∧ nearest s num den = finite s m e ∧
      magnitude m e = nearestEven (num * 2 ^ k) den / 2 ^ k := by
  by_cases isZero : num = 0
  · refine ⟨14, 0, leastExponent, le_rfl, by rw [nearest, if_pos isZero, zero], ?_⟩
    simp [isZero, nearestEven, positive]
  · have order : binaryOrder num den < 10 :=
      binaryOrder_lt (Nat.pos_of_ne_zero isZero) below
    obtain ⟨k, isExponent⟩ : ∃ k : Nat, max (binaryOrder num den - 23) leastExponent = -(k : Int) :=
      Int.exists_eq_neg_ofNat (max_le (by omega) (by decide))
    have fine : 14 ≤ k := by
      unfold leastExponent at isExponent
      omega
    have rounded : nearestEven (num * powerAbove (- -(k : Int))) (den * powerAbove (-(k : Int))) =
        nearestEven (num * 2 ^ k) den := by
      rw [powerAbove_of_nonpos (e := -(k : Int)) (by omega), Nat.mul_one, Int.neg_neg]
      rfl
    unfold nearest
    rw [if_neg isZero]
    simp only [isExponent, rounded]
    -- a significand that has become too long stands for the same number at the next exponent
    split
    · next full =>
        refine ⟨k, fullSignificand, -(k : Int) + 1, fine, ?_, ?_⟩
        · simp only
          rw [if_neg (by unfold greatestExponent; omega)]
        · rw [full, magnitude, zpow_add₀ two_ne_zero, zpow_neg, zpow_natCast, zpow_one]
          push_cast
          field_simp
    · refine ⟨k, nearestEven (num * 2 ^ k) den, -(k : Int), fine, ?_, ?_⟩
      · simp only
        rw [if_neg (by unfold greatestExponent; omega)]
      · rw [magnitude, zpow_neg, zpow_natCast, div_eq_mul_inv]

/-- Rounding below 1024 moves a number by `2 ^ -15` at most. -/
theorem nearest_near (s : Bool) {num den : Nat} (positive : 0 < den) (below : num < 1024 * den) :
    ∃ (m : Nat) (e : Int), nearest s num den = finite s m e ∧
      |magnitude m e - num / den| ≤ 1 / 32768 := by
  obtain ⟨k, m, e, fine, isNearest, isMagnitude⟩ := nearest_eq s positive below
  refine ⟨m, e, isNearest, ?_⟩
  have steps : (0 : ℚ) < 2 ^ k := by positivity
  have finer : (16384 : ℚ) ≤ 2 ^ k := by
    calc (16384 : ℚ) = 2 ^ 14 := by norm_num
      _ ≤ 2 ^ k := pow_le_pow_right₀ one_le_two fine
  have near := nearestEven_near (num * 2 ^ k) positive
  have scaled : (nearestEven (num * 2 ^ k) den : ℚ) / 2 ^ k - num / den =
      (nearestEven (num * 2 ^ k) den - (num * 2 ^ k : Nat) / den) / 2 ^ k := by
    push_cast
    field_simp
  calc |magnitude m e - num / den|
      = |(nearestEven (num * 2 ^ k) den : ℚ) - (num * 2 ^ k : Nat) / den| / 2 ^ k := by
        rw [isMagnitude, scaled, abs_div, abs_of_pos steps]
    _ ≤ 1 / 2 / 2 ^ k := by gcongr
    _ ≤ 1 / 2 / 16384 := by gcongr
    _ = 1 / 32768 := by norm_num

/-- Whole numbers below 1024 are numbers of the format. -/
theorem nearest_whole (s : Bool) {n : Nat} (below : n < 1024) :
    ∃ (m : Nat) (e : Int), nearest s n 1 = finite s m e ∧ magnitude m e = n := by
  obtain ⟨k, m, e, -, isNearest, isMagnitude⟩ := nearest_eq s one_pos (by omega : n < 1024 * 1)
  refine ⟨m, e, isNearest, ?_⟩
  rw [isMagnitude, nearestEven_one]
  push_cast
  field_simp

/-- The whole number that a rounding of it stands for. -/
theorem whole_of_magnitude {m n : Nat} {e : Int} (isWhole : magnitude m e = n) :
    m * powerAbove e / powerAbove (-e) = n := by
  rw [← Nat.floor_div_eq_div (K := ℚ), ← magnitude_eq_div, isWhole, Nat.floor_natCast]

theorem nearest_whole_inj {s t : Bool} {n k : Nat} (below : n < 1024) (below' : k < 1024)
    (same : nearest s n 1 = nearest t k 1) : s = t ∧ n = k := by
  obtain ⟨m, e, isNearest, isWhole⟩ := nearest_whole s below
  obtain ⟨m', e', isNearest', isWhole'⟩ := nearest_whole t below'
  rw [isNearest, isNearest', finite.injEq] at same
  obtain ⟨rfl, rfl, rfl⟩ := same
  exact ⟨rfl, by exact_mod_cast isWhole.symm.trans isWhole'⟩

/-! ## Bounds -/

theorem zero_eq : (0 : Binary32) = finite false 0 (-149) := rfl

theorem one_eq : (1 : Binary32) = finite false 8388608 (-23) := by decide

theorem magnitude_one : magnitude 8388608 (-23) = 1 := by
  norm_num [magnitude]

/-- The greatest byte. -/
theorem greatest_eq : (255 : Binary32) = finite false 16711680 (-16) := by decide

theorem magnitude_greatest : magnitude 16711680 (-16) = 255 := by
  norm_num [magnitude]

theorem thousand_eq : (1000 : Binary32) = finite false 16384000 (-14) := by decide

/-! ## Thousandths -/

/-- A product by a thousand is off by `2 ^ -15` at most. -/
theorem mul_thousand_near (s : Bool) {m : Nat} {e : Int} (small : magnitude m e ≤ 1.001) :
    ∃ (m' : Nat) (e' : Int), finite s m e * 1000 = finite s m' e' ∧
      |magnitude m' e' - 1000 * magnitude m e| ≤ 1 / 32768 := by
  have product : magnitude (m * 16384000) (e + -14) = 1000 * magnitude m e := by
    rw [magnitude, magnitude, zpow_add₀ two_ne_zero]
    push_cast
    norm_num
    ring
  have below : m * 16384000 * powerAbove (e + -14) < 1024 * powerAbove (-(e + -14)) := by
    have positive : (0 : ℚ) < (powerAbove (-(e + -14)) : Nat) := by
      exact_mod_cast powerAbove_pos _
    have quotient := (magnitude_eq_div (m * 16384000) (e + -14)).symm.trans product
    rw [div_eq_iff positive.ne'] at quotient
    have : ((m * 16384000 * powerAbove (e + -14) : Nat) : ℚ) <
        (1024 * powerAbove (-(e + -14)) : Nat) := by
      rw [quotient, Nat.cast_mul]
      have := mul_lt_mul_of_pos_right (show 1000 * magnitude m e < 1024 by linarith) positive
      exact_mod_cast this
    exact_mod_cast this
  obtain ⟨m', e', isNearest, near⟩ := nearest_near s (powerAbove_pos _) below
  refine ⟨m', e', ?_, ?_⟩
  · rw [thousand_eq, ← isNearest]
    show scaled (s != false) _ _ = _
    rw [Bool.bne_false, scaled]
  · rwa [← magnitude_eq_div, product] at near

/-- Rounding to an integer is rounding a half up. -/
theorem round_finite (s : Bool) (m : Nat) (e : Int) :
    (finite s m e).round = nearest s ⌊magnitude m e + 1 / 2⌋₊ 1 := by
  have positive : (0 : ℚ) < (powerAbove (-e) : Nat) := by exact_mod_cast powerAbove_pos _
  have quotient : magnitude m e + 1 / 2 =
      ((2 * (m * powerAbove e) + powerAbove (-e) : Nat) : ℚ) / (2 * powerAbove (-e) : Nat) := by
    rw [magnitude_eq_div]
    push_cast
    field_simp
  rw [quotient, Nat.floor_div_eq_div]
  simp [round, scaled, powerAbove]

/-- The thousandths of a number up to 1 are a whole number up to 1000. -/
theorem exists_thousandths (s : Bool) {m : Nat} {e : Int} (small : magnitude m e ≤ 1) :
    ∃ t ≤ 1000, (finite s m e * 1000).round = nearest s t 1 := by
  obtain ⟨m', e', isProduct, near⟩ := mul_thousand_near s (by linarith : magnitude m e ≤ 1.001)
  refine ⟨⌊magnitude m' e' + 1 / 2⌋₊, ?_, by rw [isProduct, round_finite]⟩
  apply Nat.lt_succ_iff.mp
  rw [Nat.floor_lt (by linarith [magnitude_nonneg m' e'])]
  push_cast
  linarith [(abs_le.mp near).2]

/-- The thousandths of a number near to a whole number of them. -/
theorem thousandths_of_near (s : Bool) {m t : Nat} {e : Int} (small : t ≤ 1000)
    (near : |magnitude m e - t / 1000| ≤ 1 / 32768) :
    (finite s m e * 1000).round = nearest s t 1 := by
  have small' : (t : ℚ) ≤ 1000 := by exact_mod_cast small
  obtain ⟨lower, upper⟩ := abs_le.mp near
  obtain ⟨m', e', isProduct, near'⟩ := mul_thousand_near s (by linarith : magnitude m e ≤ 1.001)
  obtain ⟨lower', upper'⟩ := abs_le.mp near'
  have isFloor : ⌊magnitude m' e' + 1 / 2⌋₊ = t := by
    rw [Nat.floor_eq_iff (by linarith [magnitude_nonneg m' e'])]
    constructor <;> linarith
  rw [isProduct, round_finite, isFloor]

end ThemedSvg.Binary32

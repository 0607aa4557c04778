/-
# What spellings of colors give

Whatever notation a color is spelled in, its channels are bytes and its alpha is a share: digits
stop at 255 by themselves, percentages and plain numbers are moved there, and so are the shares
that a hue leads to.
-/

import ThemedSvg.Proofs.Thousandths

namespace ThemedSvg

open Binary32

/-- The channels are bytes. -/
def Paint.Channels.AreBytes (channels : Paint.Channels) : Prop :=
  channels.red < 256 ∧ channels.green < 256 ∧ channels.blue < 256

instance (channels : Paint.Channels) : Decidable channels.AreBytes :=
  inferInstanceAs (Decidable (_ ∧ _))

/-- The channels are bytes, and the alpha is a share. -/
structure Rgba.InRange (color : Rgba) : Prop where
  red : color.red < 256
  green : color.green < 256
  blue : color.blue < 256
  alpha : color.alpha.IsShare

namespace Paint

theorem Channels.AreBytes.inRange {channels : Channels} (bytes : channels.AreBytes)
    {alpha : Binary32} (share : alpha.IsShare) :
    (⟨channels.red, channels.green, channels.blue, alpha⟩ : Rgba).InRange :=
  ⟨bytes.1, bytes.2.1, bytes.2.2, share⟩

/-! ## Numbers -/

theorem toByte_lt (x : Binary32) : x.toByte < 256 := by
  cases x with
  | nan => decide
  | infinite s => cases s <;> decide
  | finite s m e =>
      cases s with
      | true => exact Nat.zero_lt_succ _
      | false => exact Nat.lt_succ_of_le (min_le_left _ _)

/-- Rounding keeps the sign of a quotient, whatever its size. -/
theorem nearest_signed (s : Bool) (num den : Nat) :
    nearest s num den = infinite s ∨ ∃ m e, nearest s num den = finite s m e := by
  have outcome (m : Nat) (e : Int) :
      (if greatestExponent < e then infinite s else finite s m e) = infinite s ∨
        ∃ m' e', (if greatestExponent < e then infinite s else finite s m e) = finite s m' e' := by
    split
    · exact .inl rfl
    · exact .inr ⟨m, e, rfl⟩
  unfold nearest
  split
  · exact .inr ⟨0, leastExponent, rfl⟩
  · dsimp only
    split <;> exact outcome _ _

/-- What is less than the greatest byte is a byte when rounded. -/
theorem toNatEven_lt {m : Nat} {e : Int} (less : lt (finite false m e) 255 = true) :
    (finite false m e).toNatEven < 256 := by
  rw [greatest_eq, lt_finite, magnitude_greatest] at less
  have below : magnitude m e < 255 := less
  have near := nearestEven_near (m * powerAbove e) (powerAbove_pos (-e))
  rw [← magnitude_eq_div] at near
  have byte : (nearestEven (m * powerAbove e) (powerAbove (-e)) : ℚ) < 256 := by
    linarith [(abs_le.mp near).2]
  exact_mod_cast byte

/-- A share of the greatest byte is a byte. -/
theorem shareByte_lt {x : Binary32} (share : x.IsShare) : shareByte x < 256 := by
  have greatest : (255 : Binary32).toNatEven < 256 := by decide
  rcases share.eq_nan_or_finite with rfl | ⟨s, m, e, rfl, -, signless⟩
  · decide
  cases s with
  | true =>
      have product : finite true m e * 255 = zero true := by
        rw [signless rfl, greatest_eq]
        show scaled _ (0 * _) _ = _
        rw [Nat.zero_mul, scaled, Nat.zero_mul, nearest, if_pos rfl]
        rfl
      rw [shareByte, product]
      decide
  | false =>
      obtain isInfinite | ⟨m', e', isFinite⟩ : finite false m e * 255 = infinite false ∨
          ∃ m' e', finite false m e * 255 = finite false m' e' := by
        rw [greatest_eq]
        exact nearest_signed false _ _
      · rw [shareByte, isInfinite]
        decide
      · have number : (255 : Binary32).isNan = false := by decide
        have number' : (finite false m' e').isNan ≠ true := Bool.false_ne_true
        rw [shareByte, isFinite, smaller, if_neg number', number, Bool.false_or]
        split
        · next less => exact toNatEven_lt less
        · exact greatest

/-! ## Notations -/

theorem areBytes_ofHsl (hue saturation lightness : Binary32) :
    (ofHsl hue saturation lightness).AreBytes :=
  ⟨shareByte_lt (isShare_clamp _), shareByte_lt (isShare_clamp _), shareByte_lt (isShare_clamp _)⟩

theorem areBytes_keyword? {name : List Char} {channels : Channels}
    (isColor : keyword? name = some channels) : channels.AreBytes := by
  have all : ∀ entry ∈ keywords, entry.2.AreBytes := by decide +kernel
  obtain ⟨entry, found, rfl⟩ := Option.map_eq_some_iff.mp isColor
  exact all entry (List.mem_of_find?_eq_some found)

theorem areBytes_rgbChannels? {red green blue : List Char} {channels : Channels}
    (isColor : rgbChannels? red green blue = some channels) : channels.AreBytes := by
  have byte {text : List Char} {value : Nat} (isValue : channel? text = some value) :
      value < 256 := by
    obtain ⟨x, -, rfl⟩ := Option.map_eq_some_iff.mp isValue
    exact toByte_lt _
  simp only [rgbChannels?, Option.bind_eq_bind, Option.bind_eq_some_iff, Option.pure_def,
    Option.some.injEq] at isColor
  obtain ⟨r, isRed, g, isGreen, b, isBlue, rfl⟩ := isColor
  exact ⟨byte isRed, byte isGreen, byte isBlue⟩

theorem areBytes_hslChannels? {hue saturation lightness : List Char} {channels : Channels}
    (isColor : hslChannels? hue saturation lightness = some channels) : channels.AreBytes := by
  simp only [hslChannels?, Option.bind_eq_bind, Option.bind_eq_some_iff, Option.pure_def,
    Option.some.injEq] at isColor
  obtain ⟨h, -, s, -, l, -, rfl⟩ := isColor
  exact areBytes_ofHsl h s l

theorem isShare_alpha? {text : List Char} {alpha : Binary32} (isAlpha : alpha? text = some alpha) :
    alpha.IsShare := by
  unfold alpha? at isAlpha
  split at isAlpha
  · obtain ⟨x, -, rfl⟩ := Option.map_eq_some_iff.mp isAlpha
    exact isShare_clamp _
  · obtain ⟨x, -, rfl⟩ := Option.map_eq_some_iff.mp isAlpha
    exact isShare_clamp x

/-- Arguments give a color in range if the notation of their channels does. -/
theorem inRange_ofArguments? {channels? : List Char → List Char → List Char → Option Channels}
    (bytes : ∀ x y z channels, channels? x y z = some channels → channels.AreBytes)
    {arguments : List (List Char)} {color : Rgba}
    (isColor : ofArguments? channels? arguments = some color) : color.InRange := by
  unfold ofArguments? at isColor
  split at isColor
  · obtain ⟨channels, isChannels, rfl⟩ := Option.map_eq_some_iff.mp isColor
    exact (bytes _ _ _ _ isChannels).inRange (by decide)
  · simp only [Option.bind_eq_bind, Option.bind_eq_some_iff, Option.pure_def,
      Option.some.injEq] at isColor
    obtain ⟨channels, isChannels, alpha, isAlpha, rfl⟩ := isColor
    exact (bytes _ _ _ _ isChannels).inRange (isShare_alpha? isAlpha)
  · cases isColor

theorem hexValue?_lt {c : Char} {value : Nat} (isValue : hexValue? c = some value) :
    value < 16 := by
  have upTo (last : Char) (below : c ≤ last) : c.toNat ≤ last.toNat :=
    UInt32.le_iff_toNat_le.mp below
  unfold hexValue? at isValue
  split at isValue
  · next isDigit =>
      rw [Char.isDigit, Bool.and_eq_true, decide_eq_true_iff, decide_eq_true_iff] at isDigit
      have : c.toNat ≤ 57 := upTo '9' isDigit.2
      have : ('0' : Char).toNat = 48 := rfl
      cases isValue
      omega
  · split at isValue
    · next small =>
        have : c.toNat ≤ 102 := upTo 'f' small.2
        have : ('a' : Char).toNat = 97 := rfl
        cases isValue
        omega
    · split at isValue
      · next capital =>
          have : c.toNat ≤ 70 := upTo 'F' capital.2
          have : ('A' : Char).toNat = 65 := rfl
          cases isValue
          omega
      · cases isValue

theorem mapM_hexValue?_lt {digits : List Char} {values : List Nat}
    (isValues : digits.mapM hexValue? = some values) : ∀ value ∈ values, value < 16 := by
  induction digits generalizing values with
  | nil =>
      cases isValues
      simp
  | cons c rest ih =>
      simp only [List.mapM_cons, Option.bind_eq_bind, Option.bind_eq_some_iff, Option.pure_def,
        Option.some.injEq] at isValues
      obtain ⟨value, isValue, others, areOthers, rfl⟩ := isValues
      exact List.forall_mem_cons.mpr ⟨hexValue?_lt isValue, ih areOthers⟩

theorem inRange_ofBytes {red green blue alpha : Nat} (isRed : red < 256) (isGreen : green < 256)
    (isBlue : blue < 256) (isAlpha : alpha < 256) : (ofBytes red green blue alpha).InRange := by
  have share : ∀ byte < 256, (Binary32.ofNat byte / 255).IsShare := by decide +kernel
  exact ⟨isRed, isGreen, isBlue, share alpha isAlpha⟩

theorem inRange_hex? {digits : List Char} {color : Rgba} (isColor : hex? digits = some color) :
    color.InRange := by
  unfold hex? at isColor
  cases isValues : digits.mapM hexValue? with
  | none =>
      rw [isValues] at isColor
      cases isColor
  | some values =>
      have small := mapM_hexValue?_lt isValues
      rw [isValues] at isColor
      split at isColor
      case h_5 => cases isColor
      all_goals
        next same =>
          cases same
          cases isColor
          simp only [List.forall_mem_cons] at small
          apply inRange_ofBytes <;> omega

end Paint

namespace Rgba

/-- What holds of the colors of every notation holds of whatever a spelling gives. -/
theorem read?_induct {motive : Rgba → Prop} (white : motive transparentWhite)
    (black : motive transparentBlack)
    (hex : ∀ digits color, Paint.hex? digits = some color → motive color)
    (rgb : ∀ arguments color,
      Paint.ofArguments? Paint.rgbChannels? arguments = some color → motive color)
    (hsl : ∀ arguments color,
      Paint.ofArguments? Paint.hslChannels? arguments = some color → motive color)
    (keyword : ∀ name channels, Paint.keyword? name = some channels → motive (opaqueOf channels))
    {spelling : String} {color : Rgba} (isColor : Rgba.read? spelling = some color) :
    motive color := by
  rw [read?] at isColor
  unfold Paint.color? at isColor
  split at isColor
  · cases isColor
    exact white
  split at isColor
  · cases isColor
    exact black
  split at isColor
  · exact hex _ _ isColor
  split at isColor
  · obtain ⟨arguments, -, ofArguments⟩ := Option.bind_eq_some_iff.mp isColor
    exact rgb _ _ ofArguments
  split at isColor
  · obtain ⟨arguments, -, ofArguments⟩ := Option.bind_eq_some_iff.mp isColor
    exact hsl _ _ ofArguments
  · obtain ⟨channels, isKeyword, rfl⟩ := Option.map_eq_some_iff.mp isColor
    exact keyword _ _ isKeyword

/-- A spelling of a color gives three bytes and a share. -/
theorem inRange_read? {spelling : String} {color : Rgba}
    (isColor : Rgba.read? spelling = some color) : color.InRange := by
  refine read?_induct ?white ?black ?hex ?rgb ?hsl ?keyword isColor
  case white => exact ⟨by decide, by decide, by decide, by decide⟩
  case black => exact ⟨by decide, by decide, by decide, by decide⟩
  case hex => exact fun _ _ => Paint.inRange_hex?
  case rgb =>
    exact fun _ _ => Paint.inRange_ofArguments? fun _ _ _ _ => Paint.areBytes_rgbChannels?
  case hsl =>
    exact fun _ _ => Paint.inRange_ofArguments? fun _ _ _ _ => Paint.areBytes_hslChannels?
  case keyword =>
    exact fun _ _ isKeyword => (Paint.areBytes_keyword? isKeyword).inRange (by decide)

end Rgba

end ThemedSvg

/-
# Canonical texts as spellings

The canonical text of a color spells a color too, and as a rule one with the same text, so that
the entry of a catalog is found by its own key. The bytes of its channels come back as they are
and its alpha comes back in thousandths. The exception is the alpha that is less than 1 by less
than half a thousandth: its text says 1, and what that spells is opaque and filed elsewhere.
-/

import ThemedSvg.Proofs.Recording
import ThemedSvg.Proofs.SpelledColors
import ThemedSvg.Proofs.WrittenColors

namespace ThemedSvg

open Binary32

namespace Paint

/-! ## Arguments in canonical texts -/

theorem isSeparator_of_isDigit {c : Char} (isDigit : c.isDigit = true) :
    isSeparator c = false := by
  simp only [isSeparator, Text.isSpace_of_isDigit isDigit, Bool.or_false, Bool.or_eq_false_iff,
    beq_eq_false_iff_ne]
  constructor <;> rintro rfl <;> cases isDigit

theorem lowerAscii_decimal (n : Nat) : Text.lowerAscii (Text.decimal n) = Text.decimal n :=
  (List.map_congr_left fun _ member =>
    Text.toLower_of_isDigit (Text.isDigit_of_mem_decimal member)).trans (List.map_id _)

theorem isArgument_decimal (n : Nat) : IsArgument (Text.decimal n) :=
  ⟨Text.decimal_ne_nil n, fun _ member =>
    isSeparator_of_isDigit (Text.isDigit_of_mem_decimal member)⟩

theorem isArgument_thousandthsText (x : Binary32) : IsArgument x.thousandthsText := by
  have places (sign : List Char) (isSign : ∀ c ∈ sign, c = '-') (t : Nat) :
      IsArgument (sign ++ placesText t) := by
    constructor
    · simp [placesText, Text.decimal_ne_nil]
    · intro c member
      rcases List.mem_append.mp member with inSign | inPlaces
      · rw [isSign c inSign]
        decide
      · rcases isDigit_or_point_of_mem_placesText inPlaces with isDigit | rfl
        · exact isSeparator_of_isDigit isDigit
        · decide
  unfold thousandthsText
  split
  · decide
  · next s _ => cases s <;> decide
  · next s m e _ =>
      rw [List.append_assoc]
      exact places _ (by cases s <;> simp) _

/-- A byte is read back from its decimal text. -/
theorem channel?_decimal {n : Nat} (byte : n < 256) : channel? (Text.decimal n) = some n := by
  have percent : '%' ∉ Text.decimal n := fun member => by
    cases Text.isDigit_of_mem_decimal member
  have whole : Text.dropEnding? ['%'] (Text.decimal n) = none :=
    Text.dropEnding?_singleton_eq_none percent
  obtain ⟨m, e, isNearest, isWhole⟩ := nearest_whole false (by omega : n < 1024)
  have within : clamp 0 255 (finite false m e) = finite false m e := by
    have notBelow : lt (finite false m e) 0 = false := by
      rw [zero_eq, lt_finite_eq_false, magnitude_zero]
      exact magnitude_nonneg m e
    have notAbove : lt 255 (finite false m e) = false := by
      have upTo : (n : ℚ) ≤ 255 := by exact_mod_cast Nat.le_of_lt_succ byte
      rw [greatest_eq, lt_finite_eq_false, magnitude_greatest, isWhole]
      exact upTo
    simp [clamp, notBelow, notAbove]
  have isRound : (finite false m e).round = finite false m e := by
    have isFloor : ⌊(n : ℚ) + 1 / 2⌋₊ = n := by
      rw [Nat.floor_eq_iff (by positivity)]
      constructor <;> linarith
    rw [round_finite, isWhole, isFloor, isNearest]
  rw [channel?, amount?, whole]
  simp only
  rw [read?_decimal (by omega), isNearest, Option.map_some, within, isRound, toByte]
  simp only [Bool.false_eq_true, if_false, whole_of_magnitude isWhole]
  rw [min_eq_right (by omega)]

end Paint

namespace Rgba

open Paint

variable {color : Rgba}

theorem canonical_of_le (isOpaque : le 1 color.alpha = true) :
    color.canonical = String.ofList (call "rgb"
      [Text.decimal color.red, Text.decimal color.green, Text.decimal color.blue]) := by
  rw [canonical, if_pos isOpaque]
  simp [call, List.intercalate_cons_cons]

theorem canonical_of_not_le (transparent : le 1 color.alpha = false) :
    color.canonical = String.ofList (call "rgba"
      [Text.decimal color.red, Text.decimal color.green, Text.decimal color.blue,
        color.alpha.thousandthsText]) := by
  rw [canonical, if_neg (by simp [transparent])]
  simp [call, List.intercalate_cons_cons]

theorem le_opaqueOf {channels : Channels} : le 1 (opaqueOf channels).alpha = true := by
  show le 1 (1 : Binary32) = true
  decide

/-- The text of an opaque color is that of opaque ones only. -/
theorem canonical_ne {other : Rgba} (isOpaque : le 1 color.alpha = true)
    (transparent : le 1 other.alpha = false) : color.canonical ≠ other.canonical := by
  rw [canonical_of_le isOpaque, canonical_of_not_le transparent, ne_eq, String.ofList_inj]
  intro same
  injection same with _ same
  injection same with _ same
  injection same with _ same
  injection same with same
  cases same

/-- The channels of a color in range are read back from their decimal texts. -/
theorem InRange.rgbChannels? (inRange : color.InRange) :
    rgbChannels? (Text.decimal color.red) (Text.decimal color.green) (Text.decimal color.blue) =
      some ⟨color.red, color.green, color.blue⟩ := by
  rw [Paint.rgbChannels?, channel?_decimal inRange.red, channel?_decimal inRange.green,
    channel?_decimal inRange.blue]
  rfl

/-- The canonical text of a color in range spells a color, and one of the same text unless the
alpha is next to opaque. -/
theorem InRange.read?_canonical (inRange : color.InRange) :
    ∃ again, Rgba.read? color.canonical = some again ∧
      (again.canonical = color.canonical ↔ ¬ color.alpha.AlmostOne) := by
  have channels := inRange.rgbChannels?
  cases isOpaque : le 1 color.alpha with
  | true =>
      refine ⟨opaqueOf ⟨color.red, color.green, color.blue⟩, ?_, ?_⟩
      · rw [canonical_of_le isOpaque, @read?_call .rgb _ (by decide)]
        · simp only [Family.ofWords?, Family.channels?, List.map_cons, List.map_nil,
            lowerAscii_decimal, ofArguments?, channels, Option.map_some]
        · simp [isArgument_decimal]
      · have notAlmost : ¬ color.alpha.AlmostOne := fun almost => by
          cases isOpaque.symm.trans almost.1
        rw [canonical_of_le isOpaque, canonical_of_le le_opaqueOf]
        exact iff_of_true rfl notAlmost
  | false =>
      obtain ⟨alpha, isAlpha, almost, notAlmost⟩ := alpha?_thousandthsText inRange.alpha isOpaque
      refine ⟨⟨color.red, color.green, color.blue, alpha⟩, ?_, ?_⟩
      · rw [canonical_of_not_le isOpaque, @read?_call .rgb _ (by decide)]
        · simp only [Family.ofWords?, Family.channels?, List.map_cons, List.map_nil,
            lowerAscii_decimal, ofArguments?, channels, isAlpha, Option.bind_eq_bind,
            Option.bind_some, Option.pure_def]
        · simp [isArgument_decimal, isArgument_thousandthsText]
      · constructor
        · intro same isAlmost
          have le_again : le 1 alpha = true := by
            rw [almost isAlmost]
            decide
          exact @canonical_ne ⟨color.red, color.green, color.blue, alpha⟩ color le_again isOpaque
            same
        · intro isNot
          obtain ⟨below, sameText⟩ := notAlmost isNot
          rw [canonical_of_not_le isOpaque, canonical_of_not_le below, sameText]

end Rgba

namespace Catalog

/-- The colors of the entries are what some spelling spells. -/
def Spelled (catalog : Catalog) : Prop :=
  ∀ entry ∈ catalog.entries, ∃ spelling, Rgba.read? spelling = some entry.color

variable {catalog : Catalog}

/-- Filing a spelled color keeps all entries spelled. -/
theorem Spelled.intern (spelled : catalog.Spelled) {spelling : String} {color : Rgba}
    (isColor : Rgba.read? spelling = some color) : (catalog.intern color).1.Spelled := by
  unfold Catalog.intern
  dsimp only
  split
  · exact spelled
  · intro entry member
    rcases List.mem_append.mp member with old | new
    · exact spelled entry old
    · rw [List.mem_singleton.mp new]
      exact ⟨spelling, isColor⟩

theorem Spelled.add (spelled : catalog.Spelled) {place : Nat} {entry : ColorEntry}
    (found : catalog.entries[place]? = some entry) (occurrence : Occurrence) :
    (catalog.add place entry occurrence).Spelled := by
  intro other member
  rcases List.mem_or_eq_of_mem_set member with old | rfl
  · exact spelled other old
  · exact spelled entry (List.mem_of_getElem? found)

theorem Spelled.recordPaint (spelled : catalog.Spelled) (path : String) (element : Element)
    (paint : Paint) : (recordPaint path (catalog, element) paint).1.Spelled := by
  unfold Catalog.recordPaint
  dsimp only
  split
  · exact spelled
  · split
    · exact spelled
    · next isColor =>
        split
        · exact spelled
        · next found => exact (spelled.intern isColor).add found _

theorem Spelled.record (spelled : catalog.Spelled) (element : Element) (path : String) :
    (catalog.record element path).1.Spelled :=
  (spelled.recordPaint path element .fill).recordPaint path _ .stroke

theorem spelled_recordAll (calls : List (Element × String)) : (recordAll calls).Spelled :=
  recordAll_induct (fun _ none => nomatch none)
    (fun _ element path spelled => spelled.record element path) calls

/-- An entry is found by its own key unless its alpha is next to opaque. -/
theorem get?_key_iff (calls : List (Element × String)) {entry : ColorEntry}
    (member : entry ∈ (recordAll calls).entries) :
    (recordAll calls).get? entry.key = some entry ↔ ¬ entry.color.alpha.AlmostOne := by
  have inStep := inStep_recordAll calls
  obtain ⟨spelling, isColor⟩ := spelled_recordAll calls entry member
  obtain ⟨again, isAgain, same⟩ := (Rgba.inRange_read? isColor).read?_canonical
  have isKey := (inStep.tallies member).canonical
  rw [inStep.get?_eq_some_iff, isKey, isAgain]
  simp [member, same]

/-- The canonical text of a spelled color spells a color of the same text, and an entry is found
by its own key, unless the alpha is less than 1 and becomes 1 in thousandths. -/
theorem canonical_spells_itself (spelling : String) (calls : List (Element × String)) :
    (∀ color, Rgba.read? spelling = some color →
      ∃ again, Rgba.read? color.canonical = some again ∧
        (again.canonical = color.canonical ↔ ¬ color.alpha.AlmostOne)) ∧
    ∀ entry ∈ (recordAll calls).entries,
      ((recordAll calls).get? entry.key = some entry ↔ ¬ entry.color.alpha.AlmostOne) :=
  ⟨fun _ isColor => (Rgba.inRange_read? isColor).read?_canonical,
    fun _ member => get?_key_iff calls member⟩

/-- A veil with a seam around it. -/
def veil : Element :=
  ⟨"rect", [.text "fill" "hsla(120deg, 100%, 25%, 0.2504)", .text "stroke" "#ffff"], []⟩

theorem canonical_spells_itself_veil :
    (∃ color again, Rgba.read? "hsla(120deg, 100%, 25%, 0.2504)" = some color ∧
      color.canonical = "rgba(0, 128, 0, 0.25)" ∧ Rgba.read? color.canonical = some again ∧
      again.canonical = color.canonical ∧ again ≠ color) ∧
    ∃ entry ∈ (recordAll [(veil, "svg>rect")]).entries, entry.key = "rgba(0, 128, 0, 0.25)" ∧
      (recordAll [(veil, "svg>rect")]).get? entry.key = some entry := by
  obtain ⟨spells, finds⟩ :=
    canonical_spells_itself "hsla(120deg, 100%, 25%, 0.2504)" [(veil, "svg>rect")]
  have isColor : Rgba.read? "hsla(120deg, 100%, 25%, 0.2504)" =
      some ⟨0, 128, 0, .finite false 8402030 (-25)⟩ := by decide +kernel
  have notAlmost : ¬ (finite false 8402030 (-25)).AlmostOne := by decide +kernel
  constructor
  · obtain ⟨again, isAgain, same⟩ := spells _ isColor
    refine ⟨_, again, isColor, by decide +kernel, isAgain, same.mpr notAlmost, ?_⟩
    rintro rfl
    exact absurd isAgain (by decide +kernel)
  · have entries : (recordAll [(veil, "svg>rect")]).entries.head? = some
        ⟨⟨0, 128, 0, .finite false 8402030 (-25)⟩, "rgba(0, 128, 0, 0.25)", 0, 1,
          ["svg>rect[fill]"]⟩ := by decide +kernel
    have member := List.mem_of_mem_head? entries
    exact ⟨_, member, rfl, (finds _ member).mpr notAlmost⟩

/-- An alpha that is less than 1 by less than half a thousandth. -/
def almostBlack : Element := ⟨"svg", [.text "fill" "rgba(0, 0, 0, 0.9996)"], []⟩

/-- Its canonical text spells another color, and does not find its entry. -/
theorem canonical_lost_almostBlack :
    (∃ color again, Rgba.read? "rgba(0, 0, 0, 0.9996)" = some color ∧
      color.canonical = "rgba(0, 0, 0, 1)" ∧ Rgba.read? color.canonical = some again ∧
      again.canonical = "rgb(0, 0, 0)") ∧
    (recordAll [(almostBlack, "svg")]).entries.map (·.key) = ["rgba(0, 0, 0, 1)"] ∧
    (recordAll [(almostBlack, "svg")]).get? "rgba(0, 0, 0, 1)" = none := by
  have isColor : Rgba.read? "rgba(0, 0, 0, 0.9996)" =
      some ⟨0, 0, 0, .finite false 16770505 (-24)⟩ := by decide +kernel
  have isAgain : Rgba.read? "rgba(0, 0, 0, 1)" = some ⟨0, 0, 0, 1⟩ := by decide +kernel
  have isText : (⟨0, 0, 0, .finite false 16770505 (-24)⟩ : Rgba).canonical =
      "rgba(0, 0, 0, 1)" := by decide +kernel
  refine ⟨⟨_, _, isColor, isText, by rw [isText]; exact isAgain, by decide +kernel⟩, ?_, ?_⟩
  · decide +kernel
  · decide +kernel

end Catalog

end ThemedSvg

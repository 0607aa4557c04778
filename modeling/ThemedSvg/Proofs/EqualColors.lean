/-
# Equal colors

Entries are found by the canonical text of a color and not by its value. Colors that are equal
as values have the same text nevertheless, however they are spelled, because a spelling gives
its alpha in normal form. Only the two zeros are equal numbers with different texts, so that a
color with the one alpha and the same color with the other get entries of their own.
-/

import ThemedSvg.Proofs.CanonicalColors
import ThemedSvg.Proofs.NormalForm
import ThemedSvg.Proofs.Overrides

namespace ThemedSvg

open Binary32

/-! ## Alphas in normal form -/

namespace Paint

theorem isNormal_alpha? {text : List Char} {alpha : Binary32} (isAlpha : alpha? text = some alpha) :
    alpha.IsNormal := by
  have isLow : (0 : Binary32).IsNormal := isNormal_nearest false 0 one_pos
  have isHigh : (1 : Binary32).IsNormal := isNormal_nearest false 1 one_pos
  unfold alpha? at isAlpha
  split at isAlpha
  · obtain ⟨x, -, rfl⟩ := Option.map_eq_some_iff.mp isAlpha
    exact isNormal_clamp isLow isHigh (isNormal_div x 100)
  · obtain ⟨x, isRead, rfl⟩ := Option.map_eq_some_iff.mp isAlpha
    exact isNormal_clamp isLow isHigh (isNormal_read? isRead)

theorem isNormal_ofArguments? {channels? : List Char → List Char → List Char → Option Channels}
    {arguments : List (List Char)} {color : Rgba}
    (isColor : ofArguments? channels? arguments = some color) : color.alpha.IsNormal := by
  unfold ofArguments? at isColor
  split at isColor
  · obtain ⟨channels, -, rfl⟩ := Option.map_eq_some_iff.mp isColor
    exact isNormal_nearest false 1 one_pos
  · simp only [Option.bind_eq_bind, Option.bind_eq_some_iff, Option.pure_def,
      Option.some.injEq] at isColor
    obtain ⟨channels, -, alpha, isAlpha, rfl⟩ := isColor
    exact isNormal_alpha? isAlpha
  · cases isColor

theorem isNormal_hex? {digits : List Char} {color : Rgba} (isColor : hex? digits = some color) :
    color.alpha.IsNormal := by
  unfold hex? at isColor
  split at isColor
  case h_5 => cases isColor
  all_goals
    cases isColor
    exact isNormal_div _ _

end Paint

namespace Rgba

variable {color other : Rgba}

theorem isNormal_read? {spelling : String} (isColor : Rgba.read? spelling = some color) :
    color.alpha.IsNormal := by
  refine read?_induct (motive := fun color => color.alpha.IsNormal) ?white ?black ?hex ?rgb ?hsl
    ?keyword isColor
  case white => exact inFormat_zero
  case black => exact inFormat_zero
  case hex => exact fun _ _ => Paint.isNormal_hex?
  case rgb => exact fun _ _ => Paint.isNormal_ofArguments?
  case hsl => exact fun _ _ => Paint.isNormal_ofArguments?
  case keyword => exact fun _ _ _ => isNormal_nearest false 1 one_pos

/-! ## Equal colors and their texts -/

theorem sameColor_iff : color.sameColor other = true ↔ color.red = other.red ∧
    color.green = other.green ∧ color.blue = other.blue ∧
      sameNumber color.alpha other.alpha = true := by
  simp [sameColor, and_assoc]

/-- Where the alpha is a zero, its sign is in the text. -/
theorem canonical_ne_of_oppositeZeros (red : color.red = other.red)
    (green : color.green = other.green) (blue : color.blue = other.blue)
    (opposite : OppositeZeros color.alpha other.alpha) : color.canonical ≠ other.canonical := by
  obtain ⟨s, isZero, isZero'⟩ := opposite
  have transparent (s : Bool) : le 1 (zero s) = false := by cases s <;> decide
  have texts : (zero s).thousandthsText ≠ (zero !s).thousandthsText := by cases s <;> decide
  rw [canonical_of_not_le (by rw [isZero, transparent]),
    canonical_of_not_le (by rw [isZero', transparent]), red, green, blue, isZero, isZero', ne_eq,
    String.ofList_inj]
  simpa [Paint.call, List.intercalate_cons_cons] using texts

/-- Equal colors in normal form have one text, unless their alphas are the two zeros. -/
theorem canonical_eq_iff_of_sameColor (normal : color.alpha.IsNormal)
    (normal' : other.alpha.IsNormal) (same : color.sameColor other = true) :
    color.canonical = other.canonical ↔ ¬ OppositeZeros color.alpha other.alpha := by
  obtain ⟨red, green, blue, alpha⟩ := sameColor_iff.mp same
  constructor
  · intro sameText opposite
    exact canonical_ne_of_oppositeZeros red green blue opposite sameText
  · intro notOpposite
    have sameAlpha := (eq_or_oppositeZeros normal normal' alpha).resolve_right notOpposite
    have sameValue : color = other := by
      cases color
      cases other
      simp_all
    rw [sameValue]

end Rgba

/-! ## Equal colors and their entries -/

namespace Catalog

/-- Two occurrences are counted under one entry, and the place of that entry is in the keys of
both. -/
def FiledTogether (catalog : Catalog) (first second : Occurrence) : Prop :=
  ∃ (group : Nat) (entry : ColorEntry), catalog.entries[group]? = some entry ∧
    (first.color = entry.key ∧ s!"colorGroup{group}" ∈ first.keys) ∧
    (second.color = entry.key ∧ s!"colorGroup{group}" ∈ second.keys)

/-- Catalogs of recorded elements, and among them those of documents. -/
inductive Reached : Catalog → Prop
  | recorded (calls : List (Element × String)) : Reached (recordAll calls)
  | built {source : Source} {options : AssetOptions} {markup : String} {asset : Asset} :
      Asset.build source options markup = .ok asset → Reached asset.catalog

variable {catalog : Catalog} {first second : Occurrence}

theorem Reached.inStep (reached : catalog.Reached) : catalog.InStep := by
  cases reached with
  | recorded calls => exact inStep_recordAll calls
  | built isBuilt => exact (Asset.leavesOpen_of_build isBuilt).2.1

theorem InStep.filedTogether_iff (inStep : catalog.InStep) (member : first ∈ catalog.occurrences)
    (member' : second ∈ catalog.occurrences) :
    catalog.FiledTogether first second ↔ first.color = second.color := by
  constructor
  · rintro ⟨group, entry, -, ⟨isKey, -⟩, isKey', -⟩
    exact isKey.trans isKey'.symm
  · intro same
    have known : first.color ∈ catalog.colors := List.mem_map_of_mem member
    obtain ⟨entry, found, isKey⟩ := inStep.lists.exists_entry known
    exact ⟨_, entry, found, ⟨isKey.symm, (inStep.group_mem_keys_iff member found).mpr isKey.symm⟩,
      same.symm.trans isKey.symm,
      (inStep.group_mem_keys_iff member' found).mpr (same.symm.trans isKey.symm)⟩

/-- Spellings of equal colors have one canonical text, and wherever they are recorded they are
filed together, unless the alpha of the one is zero and that of the other is the negative
zero. -/
theorem sameColor_filed_together {spelling spelling' : String} {color other : Rgba}
    (isColor : Rgba.read? spelling = some color) (isOther : Rgba.read? spelling' = some other)
    (same : color.sameColor other = true) :
    (color.canonical = other.canonical ↔ ¬ OppositeZeros color.alpha other.alpha) ∧
      ∀ catalog, Reached catalog → ∀ first ∈ catalog.occurrences, ∀ second ∈ catalog.occurrences,
        first.spelling = spelling → second.spelling = spelling' →
          (catalog.FiledTogether first second ↔ ¬ OppositeZeros color.alpha other.alpha) := by
  have texts := Rgba.canonical_eq_iff_of_sameColor (Rgba.isNormal_read? isColor)
    (Rgba.isNormal_read? isOther) same
  refine ⟨texts, ?_⟩
  rintro catalog reached first member second member' rfl rfl
  obtain ⟨own, isOwn, isText⟩ := (reached.inStep.numbered member).spelled
  obtain ⟨own', isOwn', isText'⟩ := (reached.inStep.numbered member').spelled
  cases isColor.symm.trans isOwn
  cases isOther.symm.trans isOwn'
  rw [reached.inStep.filedTogether_iff member member', ← isText, ← isText', texts]

/-- A red of half the strength, spelled by its hue and by its channels. -/
def faded : Element :=
  ⟨"rect", [.text "fill" "hsla(0, 100%, 50%, 5e-1)", .text "stroke" "RGBA(100% 0% 0% / 50%)"], []⟩

theorem sameColor_filed_together_faded :
    (∃ color other, Rgba.read? "hsla(0, 100%, 50%, 5e-1)" = some color ∧
      Rgba.read? "RGBA(100% 0% 0% / 50%)" = some other ∧ color.sameColor other = true ∧
      color.canonical = other.canonical) ∧
    ∃ first ∈ (recordAll [(faded, "svg>rect")]).occurrences,
      ∃ second ∈ (recordAll [(faded, "svg>rect")]).occurrences,
        first.spelling = "hsla(0, 100%, 50%, 5e-1)" ∧
        second.spelling = "RGBA(100% 0% 0% / 50%)" ∧
        (recordAll [(faded, "svg>rect")]).FiledTogether first second := by
  have isColor : Rgba.read? "hsla(0, 100%, 50%, 5e-1)" =
      some ⟨255, 0, 0, .finite false 8388608 (-24)⟩ := by decide +kernel
  have isOther : Rgba.read? "RGBA(100% 0% 0% / 50%)" =
      some ⟨255, 0, 0, .finite false 8388608 (-24)⟩ := by decide +kernel
  obtain ⟨text, together⟩ := sameColor_filed_together isColor isOther (by decide)
  have notZeros : ¬ OppositeZeros (.finite false 8388608 (-24)) (.finite false 8388608 (-24)) := by
    rintro ⟨s, isZero, -⟩
    cases isZero
  have spellings : (recordAll [(faded, "svg>rect")]).occurrences.map (·.spelling) =
      ["hsla(0, 100%, 50%, 5e-1)", "RGBA(100% 0% 0% / 50%)"] := by decide +kernel
  obtain ⟨first, rest, isFirst, spelled, others⟩ := List.map_eq_cons_iff.mp spellings
  obtain ⟨second, last, isSecond, spelled', -⟩ := List.map_eq_cons_iff.mp others
  have member : first ∈ (recordAll [(faded, "svg>rect")]).occurrences := by simp [isFirst]
  have member' : second ∈ (recordAll [(faded, "svg>rect")]).occurrences := by
    simp [isFirst, isSecond]
  exact ⟨⟨_, _, isColor, isOther, by decide, text.mpr notZeros⟩, first, member, second, member',
    spelled, spelled', (together _ (.recorded _) first member second member' spelled
      spelled').mpr notZeros⟩

/-- One black that cannot be seen, and another one. -/
def unseen : Element :=
  ⟨"svg", [.text "fill" "rgba(0, 0, 0, 0)", .text "stroke" "rgba(0, 0, 0, -0)"], []⟩

/-- Two spellings of equal colors get an entry each. -/
theorem sameColor_apart_unseen :
    (∃ color other, Rgba.read? "rgba(0, 0, 0, 0)" = some color ∧
      Rgba.read? "rgba(0, 0, 0, -0)" = some other ∧ color.sameColor other = true ∧
      color.canonical ≠ other.canonical) ∧
    (recordAll [(unseen, "svg")]).entries.map (·.key) =
      ["rgba(0, 0, 0, 0)", "rgba(0, 0, 0, -0)"] ∧
    (recordAll [(unseen, "svg")]).occurrences.map (·.keys) =
      [["color0", "colorGroup0", "svg[fill]", "[fill]", "[color]"],
        ["color1", "colorGroup1", "svg[stroke]", "[stroke]", "[color]"]] := by
  have isColor : Rgba.read? "rgba(0, 0, 0, 0)" = some ⟨0, 0, 0, zero false⟩ := by decide +kernel
  have isOther : Rgba.read? "rgba(0, 0, 0, -0)" = some ⟨0, 0, 0, zero true⟩ := by decide +kernel
  refine ⟨⟨_, _, isColor, isOther, by decide, by decide +kernel⟩, ?_, ?_⟩
  · decide +kernel
  · decide +kernel

end Catalog

end ThemedSvg

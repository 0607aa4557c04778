/-
# Spellings of colors

A paint value is a color if it is a keyword, a hexadecimal color or one of the
functional notations `rgb`, `rgba`, `hsl` and `hsla`. Case, surrounding white
space and the separators between arguments do not matter. Everything else, such
as a reference to a gradient, is a paint but no color.
-/

import ThemedSvg.Paint.Hsl
import ThemedSvg.Paint.Rgba

namespace ThemedSvg.Paint

open Binary32

/-- The value of a hexadecimal digit. -/
def hexValue? (c : Char) : Option Nat :=
  if c.isDigit then some (c.toNat - '0'.toNat)
  else if 'a' ≤ c ∧ c ≤ 'f' then some (c.toNat - 'a'.toNat + 10)
  else if 'A' ≤ c ∧ c ≤ 'F' then some (c.toNat - 'A'.toNat + 10)
  else none

/-- A color of byte channels. -/
def ofBytes (red green blue alpha : Nat) : Rgba :=
  ⟨red, green, blue, ofNat alpha / 255⟩

/-- The digits after `#`: one or two for each channel, with or without alpha. -/
def hex? (digits : List Char) : Option Rgba :=
  match digits.mapM hexValue? with
  | some [r, g, b] => some (ofBytes (17 * r) (17 * g) (17 * b) 255)
  | some [r, g, b, a] => some (ofBytes (17 * r) (17 * g) (17 * b) (17 * a))
  | some [r, r', g, g', b, b'] =>
      some (ofBytes (16 * r + r') (16 * g + g') (16 * b + b') 255)
  | some [r, r', g, g', b, b', a, a'] =>
      some (ofBytes (16 * r + r') (16 * g + g') (16 * b + b') (16 * a + a'))
  | _ => none

/-- Commas, slashes and white space stand between arguments. -/
def isSeparator (c : Char) : Bool :=
  c == ',' || c == '/' || Text.isSpace c

/-- The arguments of a functional notation with one of the given names, which
ends with its closing parenthesis. -/
def arguments? (names : List String) (text : List Char) : Option (List (List Char)) := do
  let (name, rest) ← Text.splitFirst '(' text
  if names.any fun accepted => accepted.toList == Text.trim name then
    let inner ← Text.dropEnding? [')'] rest
    return Text.fields isSeparator inner
  else none

/-- A number, or a percentage of `whole`. -/
def amount? (whole : Binary32) (text : List Char) : Option Binary32 :=
  match Text.dropEnding? ['%'] text with
  | some percentage => (read? percentage).map fun x => x / 100 * whole
  | none => read? text

/-- A red, green or blue argument as a byte. -/
def channel? (text : List Char) : Option Nat :=
  (amount? 255 text).map fun x => (clamp 0 255 x).round.toByte

/-- An alpha argument: a number or a percentage, moved between 0 and 1. -/
def alpha? (text : List Char) : Option Binary32 :=
  match Text.dropEnding? ['%'] text with
  | some percentage => (read? percentage).map fun x => clamp 0 1 (x / 100)
  | none => (read? text).map (clamp 0 1)

/-- A saturation or lightness argument: a percentage as a share of 0 to 1. -/
def share? (text : List Char) : Option Binary32 := do
  let percentage ← Text.dropEnding? ['%'] text
  let x ← read? percentage
  return clamp 0 1 (x / 100)

/-- A hue argument: degrees, with or without their unit. -/
def hue? (text : List Char) : Option Binary32 :=
  read? ((Text.dropEnding? "deg".toList text).getD text)

/-- The channels of an `rgb` notation. -/
def rgbChannels? (red green blue : List Char) : Option Channels := do
  return ⟨← channel? red, ← channel? green, ← channel? blue⟩

/-- The channels of an `hsl` notation. -/
def hslChannels? (hue saturation lightness : List Char) : Option Channels := do
  let hue ← hue? hue
  let saturation ← share? saturation
  let lightness ← share? lightness
  return ofHsl hue saturation lightness

/-- Three channel arguments and an optional alpha. -/
def ofArguments? (channels? : List Char → List Char → List Char → Option Channels) :
    List (List Char) → Option Rgba
  | [x, y, z] => (channels? x y z).map Rgba.opaqueOf
  | [x, y, z, a] => do
      let channels ← channels? x y z
      let alpha ← alpha? a
      return ⟨channels.red, channels.green, channels.blue, alpha⟩
  | _ => none

/-- Reads a trimmed value in lower case. -/
def color? (value : List Char) : Option Rgba :=
  if value = "none".toList then some Rgba.transparentWhite
  else if value = "transparent".toList then some Rgba.transparentBlack
  else if value.head? = some '#' then hex? value.tail
  else if "rgb".toList.isPrefixOf value then
    (arguments? ["rgb", "rgba"] value).bind (ofArguments? rgbChannels?)
  else if "hsl".toList.isPrefixOf value then
    (arguments? ["hsl", "hsla"] value).bind (ofArguments? hslChannels?)
  else (keyword? value).map Rgba.opaqueOf

end ThemedSvg.Paint

namespace ThemedSvg.Rgba

/-- The color that a paint value spells, if it is a color. -/
def read? (value : String) : Option Rgba :=
  Paint.color? (Text.lowerAscii (Text.trim value.toList))

end ThemedSvg.Rgba

/-
# Hue, saturation, lightness

Conversion of a hue in degrees and of a saturation and lightness between 0 and 1
to red, green and blue bytes, each step in single precision. The hue circle is
cut into six sectors; inside a sector one channel is full, one empty and one
rises or falls.
-/

import ThemedSvg.Number.Binary32
import ThemedSvg.Paint.Named

namespace ThemedSvg.Paint

open Binary32

/-- The hue between 0 and 360 degrees. Numbers beyond a few billions lie further apart
than a turn, so that taking off whole turns may miss the circle: what is left above it
counts as no turn at all, what is left below it stays. -/
def turned (hue : Binary32) : Binary32 :=
  let left := hue - (hue / 360).floor * 360
  if le 360 left then 0 else left

/-- Whether the hue, in sixths of a turn, lies in the sector that starts at `n`.
NaN lies in none, and so does everything in the last sector and beyond. -/
def inSector (sixths : Binary32) (n : Nat) : Bool :=
  le (ofNat n) sixths && lt sixths (ofNat (n + 1))

/-- A share of 0 to 1 as a byte: scaled to 255, a half going to the even byte,
and 255 for NaN. -/
def shareByte (share : Binary32) : Nat :=
  (smaller (share * 255) 255).toNatEven

/-- The color of a hue, saturation and lightness. -/
def ofHsl (hue saturation lightness : Binary32) : Channels :=
  let chroma := (1 - (lightness * 2 - 1).abs) * saturation
  let sixths := turned hue / 60
  let withinPair := sixths - (sixths * div 1 2).floor * 2
  let middle := chroma * (1 - (withinPair - 1).abs)
  let base := lightness - chroma * div 1 2
  let sector := inSector sixths
  let red :=
    if sector 1 || sector 4 then middle else if sector 2 || sector 3 then zero false else chroma
  let green :=
    if sector 0 || sector 3 then middle else if sector 1 || sector 2 then chroma else zero false
  let blue :=
    if sector 0 || sector 1 then zero false else if sector 3 || sector 4 then chroma else middle
  let channel (x : Binary32) : Nat := shareByte (clamp 0 1 (x + base))
  ⟨channel red, channel green, channel blue⟩

end ThemedSvg.Paint

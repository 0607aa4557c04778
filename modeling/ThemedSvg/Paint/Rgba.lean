/-
# Colors

A color is three bytes and a fractional alpha. Its canonical text is the name
under which a catalog files it, so equal spellings meet there.
-/

import ThemedSvg.Number.Decimal
import ThemedSvg.Paint.Named

namespace ThemedSvg

/-- A color: channels from 0 to 255, and an alpha of which 1 is opaque. -/
structure Rgba where
  red : Nat
  green : Nat
  blue : Nat
  alpha : Binary32
  deriving DecidableEq, Repr

namespace Rgba

/-- A color without transparency. -/
def opaqueOf (channels : Paint.Channels) : Rgba :=
  ⟨channels.red, channels.green, channels.blue, 1⟩

/-- The color of the paint `none`. -/
def transparentWhite : Rgba := ⟨255, 255, 255, Binary32.zero false⟩

/-- The color of the paint `transparent`. -/
def transparentBlack : Rgba := ⟨0, 0, 0, Binary32.zero false⟩

/-- Same channels, and alphas that are equal as numbers. -/
def sameColor (a b : Rgba) : Bool :=
  a.red == b.red && a.green == b.green && a.blue == b.blue && Binary32.sameNumber a.alpha b.alpha

/-- `rgb(r, g, b)` for an opaque color, else `rgba(r, g, b, a)` with the alpha to
the nearest thousandth. -/
def canonical (color : Rgba) : String :=
  let comma := ", ".toList
  let channels :=
    Text.decimal color.red ++ comma ++ Text.decimal color.green ++ comma ++ Text.decimal color.blue
  String.ofList <|
    if Binary32.le 1 color.alpha then "rgb(".toList ++ channels ++ [')']
    else "rgba(".toList ++ channels ++ comma ++ color.alpha.thousandthsText ++ [')']

end Rgba

end ThemedSvg

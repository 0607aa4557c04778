/-
# Listings

What the program prints of an asset's colors and of its own options, as texts whose
lines all end in a line break.
-/

import ThemedSvg.Asset
import ThemedSvg.Terminal.Arguments

namespace ThemedSvg.Terminal

/-- Puts a line break behind every line. -/
def ofLines (lines : List String) : String :=
  String.join (lines.map (· ++ "\n"))

/-- The lines of a color: its key, how often it occurs, and where. -/
def entryLines (entry : ColorEntry) : List String :=
  s!"colorGroup{entry.index}  {entry.key}  x{entry.count}"
    :: entry.selectors.map ("    " ++ ·)

/-- The line of an occurrence, with its keys from the most specific one on. -/
def occurrenceLine (occurrence : Occurrence) : String :=
  " > ".intercalate occurrence.keys ++ s!" = {occurrence.spelling}  ({occurrence.color})"

/-- The line that names the sprites, set off from the lines above. -/
def spriteLines (ids : List String) : List String :=
  if ids.isEmpty then [] else ["", "sprites: " ++ ", ".intercalate ids]

/-- The colors of an asset, its occurrences, and its sprites. -/
def listing (asset : Asset) : String :=
  if asset.catalog.isEmpty then
    ofLines ["no colors (monochrome: style hook on [fill] / [stroke])"]
  else
    ofLines (asset.catalog.entries.flatMap entryLines
      ++ "" :: asset.catalog.occurrences.map occurrenceLine
      ++ spriteLines asset.spriteIds)

/-- The names of an option with the placeholder of its value. -/
def OptionKind.names (kind : OptionKind) : String :=
  let short :=
    match kind.short with
    | some letter => "-" ++ String.singleton letter ++ ", "
    | none => "    "
  let value := if kind.placeholder = "" then "" else " <" ++ kind.placeholder ++ ">"
  short ++ "--" ++ kind.long ++ value

/-- The columns of the names in the help. -/
def namesWidth : Nat :=
  (OptionKind.all.map fun kind => kind.names.length).foldl Nat.max 0

def usage : String := "Usage: simple-svg [OPTIONS] [INPUT]"

/-- The line of an option in the help. -/
def OptionKind.line (kind : OptionKind) : String :=
  ("  " ++ kind.names).pushn ' ' (namesWidth + 2 - kind.names.length) ++ kind.purpose

/-- The help. -/
def help : String :=
  ofLines (["Compile SVG assets into themeable data URIs", "", usage, "", "Arguments:",
    "  [INPUT]  Input SVG file (reads from stdin if not provided)", "", "Options:"]
    ++ OptionKind.all.map OptionKind.line)

/-- What is said to a user who is wrong. -/
def misuse : String :=
  ofLines ["error: unexpected arguments", "", usage, "", "For more information, try '--help'."]

end ThemedSvg.Terminal

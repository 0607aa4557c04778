/-
# Patterns of shell scripts

A pattern is a text in which a star stands for any text, a question mark for any
character and brackets for one of several characters. Quotes take that meaning away.
-/

import ThemedSvg.Tool.Exchange

namespace ThemedSvg.Shell

open Tool (Octets)

/-- A character of a pattern, and whether it is quoted. -/
abbrev PatternChar := Char × Bool

/-- A part of a pattern. -/
inductive PatternPart
  | anyText
  | oneOf (isMember : Char → Bool)

namespace PatternPart

/-- The end of a class of characters: its name and what stands behind it. -/
def className? : List PatternChar → Option (Octets × List PatternChar)
  | (':', false) :: (']', false) :: rest => some ([], rest)
  | (c, _) :: rest => (className? rest).map fun (name, rest) => (c :: name, rest)
  | [] => none

/-- The characters in brackets behind the first one, with what stands behind the
brackets. `isFirst` tells that a closing bracket would be a member; `fuel` bounds the
characters. -/
def members? : Nat → Bool → List PatternChar → Option ((Char → Bool) × List PatternChar)
  | 0, _, _ => none
  | fuel + 1, isFirst, pattern =>
      match pattern with
      | [] => none
      | (']', false) :: rest =>
          if isFirst then single fuel ']' rest else some (fun _ => false, rest)
      | ('[', false) :: (':', false) :: rest =>
          match className? rest with
          | some (name, rest) =>
              match Tool.Exchange.classes.lookup (String.ofList name) with
              | some isMember =>
                  (members? fuel false rest).map fun (others, rest) =>
                    (fun c => isMember c || others c, rest)
              | none => single fuel '[' pattern.tail
          | none => single fuel '[' pattern.tail
      | (c, _) :: rest => single fuel c rest
where
  /-- A member, or a range that starts with it. -/
  single (fuel : Nat) (low : Char) (rest : List PatternChar) :
      Option ((Char → Bool) × List PatternChar) :=
    match rest with
    | ('-', false) :: (high, quoted) :: rest' =>
        if high = ']' && !quoted then
          (members? fuel false rest).map fun (others, rest) =>
            (fun c => c == low || others c, rest)
        else
          (members? fuel false rest').map fun (others, rest) =>
            (fun c => (low ≤ c && c ≤ high) || others c, rest)
    | rest =>
        (members? fuel false rest).map fun (others, rest) =>
          (fun c => c == low || others c, rest)

/-- The parts of a pattern. `fuel` bounds their number. -/
def ofChars : Nat → List PatternChar → List PatternPart
  | 0, _ => []
  | _, [] => []
  | fuel + 1, ('*', false) :: rest => anyText :: ofChars fuel rest
  | fuel + 1, ('?', false) :: rest => oneOf (fun _ => true) :: ofChars fuel rest
  | fuel + 1, ('[', false) :: rest =>
      let (negated, inner) :=
        match rest with
        | ('!', false) :: inner => (true, inner)
        | inner => (false, inner)
      match members? (inner.length + 1) true inner with
      | some (isMember, behind) => oneOf (fun c => isMember c != negated) :: ofChars fuel behind
      | none => oneOf (· == '[') :: ofChars fuel rest
  | fuel + 1, (c, _) :: rest => oneOf (· == c) :: ofChars fuel rest

/-- Whether a text as a whole fits a pattern. -/
def fits : List PatternPart → Octets → Bool
  | [], text => text.isEmpty
  | anyText :: parts, text =>
      (List.range (text.length + 1)).any fun size => fits parts (text.drop size)
  | oneOf isMember :: parts, text =>
      match text with
      | c :: rest => isMember c && fits parts rest
      | [] => false

end PatternPart

/-- A pattern, by its characters. -/
abbrev Pattern := List PatternChar

namespace Pattern

/-- Whether a text fits. -/
def fits (pattern : Pattern) (text : Octets) : Bool :=
  PatternPart.fits (PatternPart.ofChars pattern.length pattern) text

/-- Cuts what fits off an end of a text: the most or the least that does. -/
def cut (pattern : Pattern) (atEnd longest : Bool) (text : Octets) : Octets :=
  let parts := PatternPart.ofChars pattern.length pattern
  let sizes := List.range (text.length + 1)
  let sizes := if longest then sizes.reverse else sizes
  let fitting := sizes.find? fun size =>
    PatternPart.fits parts (if atEnd then text.drop (text.length - size) else text.take size)
  match fitting with
  | none => text
  | some size => if atEnd then text.take (text.length - size) else text.drop size

end Pattern

end ThemedSvg.Shell

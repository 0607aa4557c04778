/-
# Tags

What stands between the angle brackets of a tag is a name and attributes. The
name reaches to the first white space. An attribute is a key, an equals sign and
a value in quotes; keys must differ. Nothing further is asked of names or keys,
so a key can start with an equals sign or hold a quote.
-/

import ThemedSvg.Markup.Entity

namespace ThemedSvg.Markup

/-- White space inside markup. -/
def isBlank (c : Char) : Bool :=
  c == ' ' || c == '\t' || c == '\r' || c == '\n'

/-- How an attribute fails; offsets are bytes of the tag's content. -/
inductive AttributeFault
  | equalsExpected (offset : Nat)
  | valueExpected (offset : Nat)
  | unquotedValue (offset : Nat)
  | quoteExpected (offset : Nat) (quote : Char)
  | duplicated (offset previous : Nat)
  deriving DecidableEq, Repr

namespace AttributeFault

def message : AttributeFault → String
  | equalsExpected offset =>
      s!"position {offset}: attribute key must be directly followed by `=` or space"
  | valueExpected offset => s!"position {offset}: `=` must be followed by an attribute value"
  | unquotedValue offset =>
      s!"position {offset}: attribute value must be enclosed in `\"` or `'`"
  | quoteExpected offset quote =>
      s!"position {offset}: missing closing quote `{quote}` in attribute value"
  | duplicated offset previous =>
      s!"position {offset}: duplicated attribute, previous declaration at position {previous}"

end AttributeFault

/-- The name at the front of a tag's content. -/
def tagName (content : List Char) : List Char :=
  content.takeWhile fun c => !isBlank c

/-- An attribute as written: its key, the byte where the key starts, and the value
between the quotes. -/
structure WrittenAttribute where
  key : List Char
  start : Nat
  value : List Char
  deriving DecidableEq, Repr

/-- A key at byte `offset` that starts the text, with what follows it. Its first
character belongs to it whatever it is. -/
def takeKey (first : Char) (rest : List Char) : List Char × List Char :=
  let isInside := fun c => c != '=' && !isBlank c
  (first :: rest.takeWhile isInside, rest.dropWhile isInside)

/-- Skips white space and keeps count of bytes. -/
def skipBlank (offset : Nat) (text : List Char) : Nat × List Char :=
  (offset + (text.takeWhile isBlank).length, text.dropWhile isBlank)

/-- The value behind an equals sign, the byte after its closing quote and what
follows there. -/
def takeValue (offset : Nat) (text : List Char) :
    Except AttributeFault (List Char × Nat × List Char) :=
  let (start, text) := skipBlank offset text
  match text with
  | [] => .error (.valueExpected start)
  | quote :: rest =>
      if quote = '"' ∨ quote = '\'' then
        let value := rest.takeWhile (· != quote)
        let stop := start + 1 + Text.byteLength value
        match rest.dropWhile (· != quote) with
        | [] => .error (.quoteExpected stop quote)
        | _ :: rest => .ok (value, stop + 1, rest)
      else .error (.unquotedValue start)

/-- The attribute whose key starts with `first` at byte `start`, the byte behind it
and what follows there. `seen` are the attributes before it. -/
def takeAttribute (seen : List WrittenAttribute) (start : Nat) (first : Char)
    (rest : List Char) : Except AttributeFault (WrittenAttribute × Nat × List Char) :=
  let (key, afterKey) := takeKey first rest
  let (offset, text) := skipBlank (start + Text.byteLength key) afterKey
  match text with
  | '=' :: text =>
      match seen.find? (·.key == key) with
      | some previous => .error (.duplicated start previous.start)
      | none => do
          let (value, stop, rest) ← takeValue (offset + 1) text
          return (⟨key, start, value⟩, stop, rest)
  | _ => .error (.equalsExpected offset)

theorem length_dropWhile_le (p : Char → Bool) (text : List Char) :
    (text.dropWhile p).length ≤ text.length :=
  (List.dropWhile_suffix p).length_le

theorem length_lt_of_takeValue {offset stop : Nat} {text value rest : List Char}
    (h : takeValue offset text = .ok (value, stop, rest)) : rest.length < text.length := by
  unfold takeValue skipBlank at h
  have hskip := length_dropWhile_le isBlank text
  dsimp only at h
  split at h
  · simp at h
  · next quote after hafter =>
      rw [hafter, List.length_cons] at hskip
      split at h
      · split at h
        · simp at h
        · next hdrop =>
            have := length_dropWhile_le (· != quote) after
            simp only [Except.ok.injEq, Prod.mk.injEq] at h
            obtain ⟨_, _, rfl⟩ := h
            rw [hdrop, List.length_cons] at this
            omega
      · simp at h

theorem length_lt_of_takeAttribute {seen : List WrittenAttribute} {start stop : Nat} {first : Char}
    {text rest : List Char} {written : WrittenAttribute}
    (h : takeAttribute seen start first text = .ok (written, stop, rest)) :
    rest.length < text.length := by
  unfold takeAttribute takeKey skipBlank at h
  have hkey := length_dropWhile_le (fun c => c != '=' && !isBlank c) text
  dsimp only at h
  split at h
  · next after hafter =>
      have hskip := length_dropWhile_le isBlank (text.dropWhile fun c => c != '=' && !isBlank c)
      rw [hafter, List.length_cons] at hskip
      split at h
      · simp at h
      · revert h
        cases hvalue : takeValue _ after with
        | error fault => simp [bind, Except.bind]
        | ok found =>
            obtain ⟨value, stop', rest'⟩ := found
            have := length_lt_of_takeValue hvalue
            intro h
            simp only [bind, Except.bind, pure, Except.pure, Except.ok.injEq, Prod.mk.injEq] at h
            obtain ⟨_, _, rfl⟩ := h
            omega
  · simp at h

/-- How reading the attributes of a tag fails. -/
inductive TagFault
  | ofAttribute (fault : AttributeFault)
  | ofEntity (fault : EntityFault)
  deriving DecidableEq, Repr

namespace TagFault

def message : TagFault → String
  | ofAttribute fault => fault.message
  | ofEntity fault => fault.message

end TagFault

/-- The names and values of the attributes from byte `offset` on. Each is taken and
its value read before the next one is looked at. -/
def attributesFrom (seen : List WrittenAttribute) (offset : Nat) (text : List Char) :
    Except TagFault (List (List Char × List Char)) :=
  match _skipped : (skipBlank offset text).2 with
  | [] => .ok []
  | first :: rest =>
      match _taken : takeAttribute seen (skipBlank offset text).1 first rest with
      | .error fault => .error (.ofAttribute fault)
      | .ok (written, stop, after) =>
          match unescape written.value with
          | .error fault => .error (.ofEntity fault)
          | .ok value =>
              (attributesFrom (seen ++ [written]) stop after).map ((written.key, value) :: ·)
termination_by text.length
decreasing_by
  have hafter := length_lt_of_takeAttribute _taken
  have hskip := length_dropWhile_le isBlank text
  change text.dropWhile isBlank = _ at _skipped
  rw [_skipped, List.length_cons] at hskip
  omega

/-- The names and values of the attributes in a tag's content. -/
def attributes (content : List Char) : Except TagFault (List (List Char × List Char)) :=
  let name := tagName content
  attributesFrom [] (Text.byteLength name) (content.drop name.length)

end ThemedSvg.Markup

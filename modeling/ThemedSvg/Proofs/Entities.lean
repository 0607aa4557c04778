/-
# Values and their entities

Escaping a text and reading it back gives the text. In the other direction a value
need not be what escaping writes, so this module says what reading takes a value
to be: plain characters, and references that each stand for one character.
-/

import ThemedSvg.Markup.Entity
import ThemedSvg.Proofs.Outcomes

namespace ThemedSvg.Markup

theorem escape_cons (c : Char) (rest : List Char) :
    escape (c :: rest) = escapeChar c ++ escape rest :=
  List.flatMap_cons

theorem unescapeFrom_none_cons {total offset : Nat} {c : Char} (plain : c ≠ '&')
    (rest : List Char) :
    unescapeFrom total none offset (c :: rest) =
      (unescapeFrom total none (offset + c.utf8Size) rest).map (c :: ·) := by
  rw [unescapeFrom, if_neg plain]

/-- An escaped character is read as that character. -/
theorem unescapeFrom_escapeChar (total offset : Nat) (c : Char) (rest : List Char) :
    ∃ stop, unescapeFrom total none offset (escapeChar c ++ rest) =
      (unescapeFrom total none stop rest).map (c :: ·) := by
  unfold escapeChar
  split
  case h_6 notAmpersand _ => exact ⟨_, unescapeFrom_none_cons notAmpersand rest⟩
  all_goals exact ⟨_, by simp [unescapeFrom, dereference, named?]; rfl⟩

theorem unescapeFrom_escape (total offset : Nat) (text : List Char) :
    unescapeFrom total none offset (escape text) = .ok text := by
  induction text generalizing offset with
  | nil => rfl
  | cons c rest ih =>
      obtain ⟨stop, reads⟩ := unescapeFrom_escapeChar total offset c (escape rest)
      rw [escape_cons, reads, ih]
      rfl

/-- Reading undoes escaping. -/
theorem unescape_escape (text : List Char) : unescape (escape text) = .ok text :=
  unescapeFrom_escape _ 0 text

/-- What a value stands for: each plain character for itself, and what stands
between `&` and `;` for the character it refers to. -/
inductive StandsFor : List Char → List Char → Prop
  | nil : StandsFor [] []
  | plain {c : Char} {value text : List Char} : c ≠ '&' →
      StandsFor value text → StandsFor (c :: value) (c :: text)
  | reference {start stop : Nat} {reference value text : List Char} {c : Char} :
      dereference start stop reference = .ok c → StandsFor value text →
        StandsFor ('&' :: (reference ++ ';' :: value)) (c :: text)

/-- Reading finds what the value stands for, also in the middle of a reference. -/
theorem standsFor_of_unescapeFrom {total offset : Nat} {pending : Option (Nat × List Char)}
    {value text : List Char} (reads : unescapeFrom total pending offset value = .ok text) :
    StandsFor (pending.elim value fun (_, read) => '&' :: (read.reverse ++ value)) text := by
  induction value generalizing pending offset text with
  | nil =>
      cases pending with
      | none =>
          cases reads
          exact .nil
      | some _ => cases reads
  | cons c rest ih =>
      cases pending with
      | none =>
          by_cases ampersand : c = '&'
          · subst ampersand
            rw [unescapeFrom, if_pos rfl] at reads
            exact ih reads
          · rw [unescapeFrom_none_cons ampersand] at reads
            obtain ⟨tail, found, rfl⟩ := map_eq_ok.mp reads
            exact .plain ampersand (ih found)
      | some opened =>
          obtain ⟨start, read⟩ := opened
          by_cases semicolon : c = ';'
          · subst semicolon
            rw [unescapeFrom, if_pos rfl] at reads
            obtain ⟨referent, refers, reads⟩ := bind_eq_ok.mp reads
            obtain ⟨tail, found, same⟩ := bind_eq_ok.mp reads
            cases same
            exact .reference refers (ih found)
          · rw [unescapeFrom, if_neg semicolon] at reads
            split at reads
            · cases reads
            · simpa using ih reads

end ThemedSvg.Markup

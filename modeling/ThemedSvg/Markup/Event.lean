/-
# Markup events

Reading markup cuts it into tags, text, comments, character data and the prolog's
parts, each with the byte at which it starts. Reading goes on to the end or to the
first fault. End tags have to name the element that is open.
-/

import ThemedSvg.Markup.Tag
import ThemedSvg.Text.Space

namespace ThemedSvg.Markup

/-- How markup fails between its elements. -/
inductive SyntaxFault
  | tagNotClosed
  | unknownMarkup
  | commentNotClosed
  | cdataNotClosed
  | doctypeNotClosed
  | instructionNotClosed
  | doctypeWithoutName
  | mismatchedEnd (expected found : String)
  | unmatchedEnd (found : String)
  deriving DecidableEq, Repr

namespace SyntaxFault

/-- What is said of markup that ends too early. -/
private def notClosed (what closer : String) : String :=
  s!"syntax error: {what} not closed: `{closer}` not found before end of input"

def message : SyntaxFault → String
  | tagNotClosed => notClosed "tag" ">"
  | unknownMarkup => "syntax error: unknown or missed symbol in markup"
  | commentNotClosed => notClosed "comment" "-->"
  | cdataNotClosed => notClosed "CDATA" "]]>"
  | doctypeNotClosed => notClosed "DOCTYPE" ">"
  | instructionNotClosed => notClosed "processing instruction or xml declaration" "?>"
  | doctypeWithoutName =>
      "ill-formed document: `<!DOCTYPE>` declaration does not contain a name of a document type"
  | mismatchedEnd expected found =>
      s!"ill-formed document: expected `</{expected}>`, but `</{found}>` was found"
  | unmatchedEnd found =>
      s!"ill-formed document: close tag `</{found}>` does not match any open tag"

end SyntaxFault

/-- A piece of markup. A tag carries its content, an end tag only its name, and of
declarations, instructions and document types nothing is kept. -/
inductive Event
  | opening (content : List Char)
  | empty (content : List Char)
  | closing (name : List Char)
  | text (content : List Char)
  | cdata (content : List Char)
  | comment (content : List Char)
  | prolog
  deriving DecidableEq, Repr

/-- What an opening bracket opens, told by the characters behind it. -/
inductive Bracket
  | comment
  | cdata
  | doctype
  | instruction
  | tag
  deriving DecidableEq, Repr

namespace Bracket

/-- The kind of markup that starts behind `<`. -/
def of : List Char → Except SyntaxFault Bracket
  | [] => .error .tagNotClosed
  | '!' :: '[' :: _ => .ok cdata
  | '!' :: '-' :: _ => .ok comment
  | '!' :: 'D' :: _ | '!' :: 'd' :: _ => .ok doctype
  | '!' :: _ => .error .unknownMarkup
  | '?' :: _ => .ok instruction
  | _ => .ok tag

/-- The fault of a kind of markup that does not end. -/
def fault : Bracket → SyntaxFault
  | comment => .commentNotClosed
  | cdata => .cdataNotClosed
  | doctype => .doctypeNotClosed
  | instruction => .instructionNotClosed
  | tag => .tagNotClosed

/-- Whether a `>` ends the markup, given what stands before it, backwards: a
comment after two dashes, which are not those of its start; character data after
two brackets; a document type where as many brackets are closed as opened; an
instruction after a question mark. In a tag the quotes decide. -/
def endsAfter : Bracket → List Char → Bool
  | comment, before => ['-', '-'].isPrefixOf before && 4 < before.length
  | cdata, before => [']', ']'].isPrefixOf before
  | doctype, before => before.count '<' == before.count '>'
  | instruction, before => ['?'].isPrefixOf before
  | tag, _ => true

end Bracket

/-- The text up to the first `>` that `accepts` what stands before it, backwards,
and the text after it. -/
def cutAt (accepts : List Char → Bool) (before : List Char) :
    List Char → Option (List Char × List Char)
  | [] => none
  | c :: rest =>
      if c = '>' && accepts before then some (before.reverse, rest)
      else cutAt accepts (c :: before) rest

/-- The text up to the first `>` outside quotes, and the text after it. `quote` is
the quote that is open. -/
def cutTag (quote : Option Char) : List Char → Option (List Char × List Char)
  | [] => none
  | c :: rest =>
      if c = '>' && quote.isNone then some ([], rest)
      else
        let quote :=
          match quote with
          | none => if c = '"' ∨ c = '\'' then some c else none
          | some opened => if c = opened then none else some opened
        (cutTag quote rest).map fun (content, after) => (c :: content, after)

/-- Cuts the markup behind `<` at the `>` that ends it. -/
def cutMarkup (bracket : Bracket) (text : List Char) : Option (List Char × List Char) :=
  match bracket with
  | .tag => cutTag none text
  | other => cutAt other.endsAfter [] text

/-- Whether a text starts with a word, in any case of ASCII letters. -/
def startsWithAnyCase (word text : List Char) : Bool :=
  Text.lowerAscii (text.take word.length) == Text.lowerAscii word

/-- The content of markup between a start and an end of fixed lengths. -/
def inner (start stop : Nat) (content : List Char) : List Char :=
  (content.drop start).take (content.length - start - stop)

/-- The name in an end tag, without the white space behind it. A name of white
space alone is kept. -/
def closingName (content : List Char) : List Char :=
  let name := (content.reverse.dropWhile isBlank).reverse
  if name.isEmpty then content else name

/-- The event of a tag's content. A slash at its start makes it an end tag, one at
its end an empty element. -/
def tagEvent (content : List Char) : Event :=
  match content with
  | '/' :: name => .closing (closingName name)
  | _ => if content.getLast? = some '/' then .empty content.dropLast else .opening content

/-- The event of the markup between `<` and `>`. -/
def eventOf (bracket : Bracket) (content : List Char) : Except SyntaxFault Event :=
  match bracket with
  | .tag => .ok (tagEvent content)
  | .comment =>
      if "!--".toList.isPrefixOf content then .ok (.comment (inner 3 2 content))
      else .error bracket.fault
  | .cdata =>
      if "![CDATA[".toList.isPrefixOf content then .ok (.cdata (inner 8 2 content))
      else .error bracket.fault
  | .doctype =>
      if startsWithAnyCase "!DOCTYPE".toList content then
        if (content.drop 8).all isBlank then .error .doctypeWithoutName else .ok .prolog
      else .error bracket.fault
  | .instruction => if 1 < content.length then .ok .prolog else .error bracket.fault

/-- Where a fault is reported in markup that starts at byte `start` and has the
given content: a missing name where it should stand, all else at the bracket. -/
def faultOffset (start : Nat) (content : List Char) : SyntaxFault → Nat
  | .doctypeWithoutName => start + 1 + Text.byteLength content
  | _ => start

/-- An event and the byte where its markup starts. -/
structure PlacedEvent where
  start : Nat
  event : Event
  deriving DecidableEq, Repr

/-- How reading ends: at the end of the markup, or at a fault. -/
inductive Ending
  | complete
  | broken (position : Nat) (fault : SyntaxFault)
  deriving DecidableEq, Repr

/-- The elements open behind an event, innermost first. An end tag has to name the
innermost one. -/
def openAfter (names : List (List Char)) : Event → Except SyntaxFault (List (List Char))
  | .opening content => .ok (tagName content :: names)
  | .closing name =>
      match names with
      | [] => .error (.unmatchedEnd (String.ofList name))
      | expected :: outer =>
          if name = expected then .ok outer
          else .error (.mismatchedEnd (String.ofList expected) (String.ofList name))
  | _ => .ok names

/-- The first event of a text that starts with a bracket at byte `start`; `text` is
what stands behind the bracket. -/
def takeMarkup (start : Nat) (text : List Char) :
    Except (Nat × SyntaxFault) (Event × Nat × List Char) :=
  match Bracket.of text with
  | .error fault => .error (start, fault)
  | .ok bracket =>
      match cutMarkup bracket text with
      | none => .error (start, bracket.fault)
      | some (content, rest) =>
          match eventOf bracket content with
          | .error fault => .error (faultOffset start content fault, fault)
          | .ok event => .ok (event, start + Text.byteLength content + 2, rest)

theorem length_le_of_cutAt {accepts : List Char → Bool} {before text content rest : List Char}
    (h : cutAt accepts before text = some (content, rest)) : rest.length ≤ text.length := by
  induction text generalizing before with
  | nil => simp [cutAt] at h
  | cons c text ih =>
      unfold cutAt at h
      split at h
      · simp only [Option.some.injEq, Prod.mk.injEq] at h
        simp [← h.2]
      · exact Nat.le_succ_of_le (ih h)

theorem length_le_of_cutTag {quote : Option Char} {text content rest : List Char}
    (h : cutTag quote text = some (content, rest)) : rest.length ≤ text.length := by
  induction text generalizing quote content with
  | nil => simp [cutTag] at h
  | cons c text ih =>
      unfold cutTag at h
      split at h
      · simp only [Option.some.injEq, Prod.mk.injEq] at h
        simp [← h.2]
      · simp only [Option.map_eq_some_iff, Prod.exists, Prod.mk.injEq] at h
        obtain ⟨content', rest', h, _, rfl⟩ := h
        exact Nat.le_succ_of_le (ih h)

theorem length_le_of_takeMarkup {start stop : Nat} {text rest : List Char} {event : Event}
    (h : takeMarkup start text = .ok (event, stop, rest)) : rest.length ≤ text.length := by
  unfold takeMarkup at h
  split at h
  · simp at h
  · next bracket _ =>
      split at h
      · simp at h
      · next content after hcut =>
          split at h
          · simp at h
          · simp only [Except.ok.injEq, Prod.mk.injEq] at h
            obtain ⟨_, _, rfl⟩ := h
            cases bracket
            case tag => exact length_le_of_cutTag hcut
            all_goals exact length_le_of_cutAt hcut

/-- Reads the events from byte `start` on, with the given elements open. -/
def eventsFrom (names : List (List Char)) (start : Nat) (text : List Char) :
    List PlacedEvent × Ending :=
  match text with
  | [] => ([], .complete)
  | '<' :: rest =>
      match _taken : takeMarkup start rest with
      | .error (position, fault) => ([], .broken position fault)
      | .ok (event, stop, after) =>
          match openAfter names event with
          | .error fault => ([], .broken start fault)
          | .ok names =>
              let (events, ending) := eventsFrom names stop after
              (⟨start, event⟩ :: events, ending)
  | c :: rest =>
      let content := c :: rest.takeWhile (· != '<')
      let (events, ending) :=
        eventsFrom names (start + Text.byteLength content) (rest.dropWhile (· != '<'))
      (⟨start, .text content⟩ :: events, ending)
termination_by text.length
decreasing_by
  · have := length_le_of_takeMarkup _taken
    simp only [List.length_cons]
    omega
  · have := length_dropWhile_le (· != '<') rest
    simp only [List.length_cons]
    omega

/-- Markup without a byte order mark at its start. Positions count from behind it. -/
def withoutMark : List Char → List Char
  | '\uFEFF' :: text => text
  | text => text

/-- The events of markup and how reading it ends. -/
def events (markup : List Char) : List PlacedEvent × Ending :=
  eventsFrom [] 0 (withoutMark markup)

end ThemedSvg.Markup

/-
# Faults of a document

Markup that is no document fails in one of three ways: something in it is
malformed, there is no root element, or an element is still open at the end. Each
has a message, and all point at a range of bytes of the markup.
-/

import ThemedSvg.Markup.Event

namespace ThemedSvg

/-- Why markup is malformed. -/
inductive Malformation
  | ofSyntax (fault : Markup.SyntaxFault)
  | ofTag (fault : Markup.TagFault)
  | secondRoot
  | endWithoutStart
  | textOutside
  | cdataOutside
  | stated (reason : String)
  deriving DecidableEq, Repr

namespace Malformation

def message : Malformation → String
  | ofSyntax fault => fault.message
  | ofTag fault => fault.message
  | secondRoot => "more than one root element"
  | endWithoutStart => "end tag without a start tag"
  | textOutside => "text outside the root element"
  | cdataOutside => "CDATA outside the root element"
  | stated reason => reason

end Malformation

/-- Why markup is no document. Positions are bytes. -/
inductive ParseFault
  | malformed (position : Nat) (cause : Malformation)
  | noRoot
  | unclosed (tag : String) (position : Nat)
  deriving DecidableEq, Repr

namespace ParseFault

def message : ParseFault → String
  | malformed position cause => s!"malformed SVG at byte {position}: {cause.message}"
  | noRoot => "SVG document has no root element"
  | unclosed tag _ => s!"unclosed element <{tag}> at end of document"

/-- The byte that a fault carries. -/
def position? : ParseFault → Option Nat
  | malformed position _ | unclosed _ position => some position
  | noRoot => none

/-- The bytes that a fault points at: the one at its position, or none at the end of
the markup. Without a position that is the first byte. -/
def span (fault : ParseFault) (markup : String) : Nat × Nat :=
  let size := markup.utf8ByteSize
  let start := min (fault.position?.getD 0) size
  (start, max (min (start + 1) size) start)

end ParseFault

end ThemedSvg

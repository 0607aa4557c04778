/-
# Sprites

A `symbol` inside a document can stand alone: as an `svg` that takes the root's
attributes it does not have itself, without the declaration that hides it on the
sheet.
-/

import ThemedSvg.Markup.Tree

namespace ThemedSvg

namespace Sprite

/-- The tag of a sprite. -/
def tag : String := "symbol"

/-- The id of a sprite: its own, else a number counted from those before it. -/
def id (symbol : Element) (before : Nat) : String :=
  match symbol.literal? "id" with
  | some own => if own = "" then s!"sprite{before}" else own
  | none => s!"sprite{before}"

/-- A style without its first `display:none`. Only the declaration goes; the
semicolon behind it stays. -/
def withoutHidden : List Char → List Char
  | [] => []
  | c :: rest =>
      let text := c :: rest
      let name := "display:".toList
      if name.isPrefixOf text
          && "none".toList.isPrefixOf (Text.trimStart (text.drop name.length)) then
        text.dropWhile (· != ';')
      else c :: withoutHidden rest

/-- Drops a character from both ends. -/
def trimMark (mark : Char) (text : List Char) : List Char :=
  ((text.dropWhile (· == mark)).reverse.dropWhile (· == mark)).reverse

/-- Whether a style says nothing: at most semicolons around white space. -/
def saysNothing (style : List Char) : Bool :=
  Text.isBlank (trimMark ';' (Text.trim style))

/-- Adds an inherited attribute, unless it is empty or set already. -/
def inherit (element : Element) (entry : String × String) : Element :=
  let (name, value) := entry
  if name = "" || value = "" || element.hasAttribute name then element
  else { element with attributes := element.attributes ++ [Attribute.text name value] }

/-- An element that its style does not hide. A style of which nothing is left goes. -/
def shown (element : Element) : Element :=
  match element.literal? "style" with
  | none => element
  | some style =>
      let visible := withoutHidden style.toList
      if saysNothing visible then
        { element with attributes := element.attributes.filter (·.name != "style") }
      else element.setAttribute "style" (.literal (String.ofList visible))

/-- The document of a symbol that stands alone. -/
def standalone (symbol : Element) (rootAttributes : AttributeMap) : Element :=
  shown (rootAttributes.foldl inherit { symbol with name := "svg" })

end Sprite

mutual

/-- The symbols of a document, in document order. -/
def Element.symbols : Element → List Element
  | ⟨name, attributes, children⟩ =>
      (if name = Sprite.tag then [⟨name, attributes, children⟩] else [])
        ++ Node.symbolsOf children

/-- The symbols in a child. -/
def Node.symbols : Node → List Element
  | .element e => e.symbols
  | _ => []

/-- The symbols in several children. -/
def Node.symbolsOf : List Node → List Element
  | [] => []
  | child :: rest => child.symbols ++ Node.symbolsOf rest

end

end ThemedSvg

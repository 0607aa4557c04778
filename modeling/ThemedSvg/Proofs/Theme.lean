/-
# Themed documents

What a rendering holds can be said of the source tree alone: which paints are colors,
how many colors come before each of them, and which keys of a theme reach it. This
module says it, without a catalog, a hook or a template. Nothing here is run; the
renderings are compared with it.
-/

import ThemedSvg.Catalog
import ThemedSvg.Proofs.Trees

namespace ThemedSvg

/-- The values that a theme gives, by key. -/
abbrev Theme := String → Option String

/-- Parameters laid over defaults, as a theme. A key of the parameters hides that of the
defaults, and an empty value counts as none. -/
def Params.themeOver (params defaults : Params) : Theme := fun key =>
  ((Keyed.find? key params.entries).or (Keyed.find? key defaults.entries)).filter (· != "")

/-- The value of the first key that a theme gives, or a text of its own. -/
def Theme.first (theme : Theme) (keys : List String) (otherwise : String) : String :=
  (keys.findSome? theme).getD otherwise

namespace Element

/-! ## Colors -/

/-- The color that a paint of an element spells, if it spells one. -/
def paint? (element : Element) (paint : Paint) : Option Rgba :=
  (element.literal? paint.name).bind Rgba.read?

/-- The colors of an element, fill before stroke, by their canonical texts. -/
def ownColors (element : Element) : List String :=
  Paint.all.filterMap fun paint => (element.paint? paint).map Rgba.canonical

/-- The colors of a document in document order. -/
def colors (root : Element) : List String := root.elements.flatMap ownColors

/-- The keys that reach a paint, the first of which counts: the number of the color in
the document, the id of the element, the rank of the color among the distinct colors,
the class and the tag of the element, the kind of paint, and any color. -/
def themeKeys (element : Element) (paint : Paint) (number rank : Nat) : List String :=
  let kind := "[" ++ paint.name ++ "]"
  [s!"color{number}"]
    ++ (match element.literal? "id" with | some id => ["#" ++ id ++ kind] | none => [])
    ++ [s!"colorGroup{rank}"]
    ++ (match element.literal? "class" with | some name => ["." ++ name ++ kind] | none => [])
    ++ [element.name ++ kind, kind, "[color]"]

/-- What a theme makes of a paint that is a color. `number` colors of the document come
before it, and distinct colors rank in the order in which they appear first. -/
def themedPaint? (theme : Theme) (colors : List String) (number : Nat) (element : Element)
    (paint : Paint) : Option String := do
  let spelling ← element.literal? paint.name
  let color ← Rgba.read? spelling
  let rank := colors.eraseDups.idxOf color.canonical
  return theme.first (element.themeKeys paint number rank) spelling

/-- Sets a paint, if there is a text for it. -/
def withPaint? (element : Element) (paint : Paint) : Option String → Element
  | some text => element.setAttribute paint.name (.literal text)
  | none => element

/-- An element with its own paints themed, `before` being the number of colors before it. -/
def repainted (theme : Theme) (colors : List String) (before : Nat) (element : Element) :
    Element :=
  let fill := element.themedPaint? theme colors before .fill
  let behind := if fill.isSome then before + 1 else before
  let stroke := element.themedPaint? theme colors behind .stroke
  (element.withPaint? .fill fill).withPaint? .stroke stroke

end Element

/-- The colors in a child in document order. -/
def Node.colors (node : Node) : List String := node.elements.flatMap Element.ownColors

mutual

/-- A document with the paints of all its elements themed, in document order. -/
def Element.themed (theme : Theme) (colors : List String) (before : Nat) : Element → Element
  | ⟨name, attributes, children⟩ =>
      let head := Element.repainted theme colors before ⟨name, attributes, []⟩
      let inside := before + (Element.ownColors ⟨name, attributes, []⟩).length
      { head with children := Node.themedAll theme colors inside children }

def Node.themed (theme : Theme) (colors : List String) (before : Nat) : Node → Node
  | .element e => .element (e.themed theme colors before)
  | node => node

def Node.themedAll (theme : Theme) (colors : List String) (before : Nat) : List Node → List Node
  | [] => []
  | child :: rest =>
      child.themed theme colors before
        :: Node.themedAll theme colors (before + child.colors.length) rest

end

namespace Element

/-! ## The root -/

/-- A style with a declaration behind it, if the theme has a value for the property. A
semicolon goes between them, unless there is one. -/
def declared (theme : Theme) (style property : String) : String :=
  match theme ("[" ++ property ++ "]") with
  | none => style
  | some value =>
      let ended := style = "" ∨ (Text.trimEnd style.toList).getLast? = some ';'
      style ++ (if ended then "" else ";") ++ property ++ ":" ++ value ++ ";"

/-- The style of a root without colors: its own, unless that is blank, with the fill and
the stroke that the theme gives. -/
def themedStyle (theme : Theme) (style : Option String) : String :=
  let own := (style.filter fun text => !Text.isBlank text.toList).getD ""
  declared theme (declared theme own "fill") "stroke"

/-- A dimension of a root without a size. -/
def themedSize (theme : Theme) (dimension : String) : String :=
  theme.first ["[" ++ dimension ++ "]", "[size]", "size"] "100%"

/-- A document under a theme: its colors are themed, or the style of its root if it has
none, and it has a size. -/
def themedDocument (theme : Theme) (root : Element) : Element :=
  let painted := root.themed theme root.colors 0
  let styled :=
    if root.colors = [] then
      painted.setAttribute "style" (.literal (themedStyle theme (root.literal? "style")))
    else painted
  if root.hasAttribute "height" ∨ root.hasAttribute "width" then styled
  else
    (styled.setAttribute "height" (.literal (themedSize theme "height"))).setAttribute
      "width" (.literal (themedSize theme "width"))

end Element

end ThemedSvg

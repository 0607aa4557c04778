/-
# Color catalogs

A catalog files every color of a document. A fill or stroke that spells a color
is an occurrence; it gets a document-wide number, is counted under its color's
entry, and is replaced in the tree by a lookup over its candidate keys.
-/

import ThemedSvg.Keyed
import ThemedSvg.Markup.Tree
import ThemedSvg.Paint.Notation

namespace ThemedSvg

/-- The attributes that hold colors. -/
inductive Paint
  | fill
  | stroke
  deriving DecidableEq, Repr

namespace Paint

/-- Both, in the order in which they are filed. -/
def all : List Paint := [fill, stroke]

def name : Paint → String
  | fill => "fill"
  | stroke => "stroke"

/-- The key that selects all attributes of the kind. -/
def selector (paint : Paint) : String := "[" ++ paint.name ++ "]"

end Paint

/-- A distinct color, named by its canonical text. `selectors` has the place of
every occurrence in document order. -/
structure ColorEntry where
  color : Rgba
  key : String
  index : Nat
  count : Nat
  selectors : List String
  deriving DecidableEq, Repr

/-- An attribute that holds a color. -/
structure Occurrence where
  number : Nat
  paint : Paint
  color : String
  path : String
  spelling : String
  keys : List String
  deriving DecidableEq, Repr

namespace Occurrence

/-- Where an occurrence is: the path of its element and the kind of its paint. -/
def selector (occurrence : Occurrence) : String :=
  occurrence.path ++ occurrence.paint.selector

/-- What takes the place of an occurrence in the tree. -/
def lookup (occurrence : Occurrence) : Lookup := ⟨occurrence.keys, occurrence.spelling⟩

end Occurrence

/-- The colors of a document in order of first appearance, and their occurrences.
`places` leads from a key to the place of its entry. -/
structure Catalog where
  entries : List ColorEntry
  places : List (String × Nat)
  occurrences : List Occurrence
  deriving DecidableEq, Repr

namespace Element

/-- The candidate keys of an occurrence, most specific first: its number, the
element's id, the color's index, the class, the tag, the kind of paint, any color. -/
def candidateKeys (element : Element) (paint : Paint) (number group : Nat) : List String :=
  let selector := paint.selector
  [s!"color{number}"]
    ++ ((element.literal? "id").map fun id => "#" ++ id ++ selector).toList
    ++ [s!"colorGroup{group}"]
    ++ ((element.literal? "class").map fun «class» => "." ++ «class» ++ selector).toList
    ++ [element.name ++ selector, selector, "[color]"]

/-- The path of an element below its parent: its tag with id and class. The id of
an `svg` says nothing and is left out. -/
def pathBelow (parent : String) (element : Element) : String :=
  let id := if element.name = "svg" then none else element.literal? "id"
  parent ++ (if parent = "" then "" else ">") ++ element.name
    ++ (id.map ("#" ++ ·)).getD "" ++ ((element.literal? "class").map ("." ++ ·)).getD ""

end Element

namespace Catalog

def empty : Catalog := ⟨[], [], []⟩

instance : Inhabited Catalog := ⟨empty⟩

/-- The number of distinct colors. -/
def size (catalog : Catalog) : Nat := catalog.entries.length

def isEmpty (catalog : Catalog) : Bool := catalog.entries.isEmpty

/-- The entry of a color in any spelling. -/
def get? (catalog : Catalog) (spelling : String) : Option ColorEntry := do
  let color ← Rgba.read? spelling
  let place ← Keyed.find? color.canonical catalog.places
  catalog.entries[place]?

/-- Counts an occurrence under its entry. -/
def count (selector : String) (entry : ColorEntry) : ColorEntry :=
  { entry with count := entry.count + 1, selectors := entry.selectors ++ [selector] }

/-- Finds the place of a color. A color that is new gets the next one, with an entry that
counts nothing yet. -/
def intern (catalog : Catalog) (color : Rgba) : Catalog × Nat :=
  let key := color.canonical
  match Keyed.find? key catalog.places with
  | some place => (catalog, place)
  | none =>
      let place := catalog.entries.length
      ({ catalog with
          entries := catalog.entries ++ [⟨color, key, place, 0, []⟩]
          places := Keyed.insert key place catalog.places }, place)

/-- Adds an occurrence, counted under the entry at a place. -/
def add (catalog : Catalog) (place : Nat) (entry : ColorEntry) (occurrence : Occurrence) :
    Catalog :=
  { catalog with
    entries := catalog.entries.set place (count occurrence.selector entry)
    occurrences := catalog.occurrences ++ [occurrence] }

/-- Files one paint of an element and opens it to themes. What is no color is left
as it is. -/
def recordPaint (path : String) (state : Catalog × Element) (paint : Paint) :
    Catalog × Element :=
  let (catalog, element) := state
  match element.literal? paint.name with
  | none => state
  | some spelling =>
      match Rgba.read? spelling with
      | none => state
      | some color =>
          let (catalog, group) := catalog.intern color
          match catalog.entries[group]? with
          | none => state -- not reached: a place leads to an entry
          | some entry =>
              let number := catalog.occurrences.length
              let keys := element.candidateKeys paint number group
              let occurrence := ⟨number, paint, entry.key, path, spelling, keys⟩
              (catalog.add group entry occurrence,
                element.setAttribute paint.name (.lookup occurrence.lookup))

/-- Files the paints of one element, fill before stroke. -/
def record (catalog : Catalog) (element : Element) (path : String) : Catalog × Element :=
  Paint.all.foldl (recordPaint path) (catalog, element)

end Catalog

mutual

/-- Files the colors of an element and of everything in it, in document order. -/
def Element.annotate (catalog : Catalog) (parent : String) : Element → Catalog × Element
  | ⟨name, attributes, children⟩ =>
      let path := Element.pathBelow parent ⟨name, attributes, []⟩
      let (catalog, head) := catalog.record ⟨name, attributes, []⟩ path
      let (catalog, children) := Node.annotateAll catalog path children
      (catalog, { head with children })

/-- Files the colors of a child. -/
def Node.annotate (catalog : Catalog) (parent : String) : Node → Catalog × Node
  | .element e =>
      let (catalog, e) := e.annotate catalog parent
      (catalog, .element e)
  | node => (catalog, node)

/-- Files the colors of several children. -/
def Node.annotateAll (catalog : Catalog) (parent : String) : List Node → Catalog × List Node
  | [] => (catalog, [])
  | child :: rest =>
      let (catalog, child) := child.annotate catalog parent
      let (catalog, rest) := Node.annotateAll catalog parent rest
      (catalog, child :: rest)

end

end ThemedSvg

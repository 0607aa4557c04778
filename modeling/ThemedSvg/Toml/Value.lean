/-
# TOML values

A TOML document is a table of values. Tables come into being in several ways, and
what may be added to one depends on how it did: a table in braces is closed, one
with a header is open to the lines below it, and one that is only named on the way
to another may still get a header of its own.
-/

namespace ThemedSvg.Toml

/-- How a table came into being: in braces, under its header, on the way of a header
to another table, or on the way of a dotted key. -/
inductive TableKind
  | braced
  | headed
  | passed
  | dotted
  deriving DecidableEq, Repr

/-- A value. Of a float or a date only the kind matters. An array of tables is one
that headers in double brackets make, and can grow. -/
inductive Value
  | text (text : String)
  | boolean (value : Bool)
  | integer (value : Int)
  | float
  | dateTime
  | array (items : List Value)
  | table (kind : TableKind) (entries : List (String × Value))
  | tables (items : List (List (String × Value)))

namespace Value

def text? : Value → Option String
  | text read => some read
  | _ => none

def boolean? : Value → Option Bool
  | boolean value => some value
  | _ => none

/-- An array with nothing but texts in it. -/
def texts? : Value → Option (List String)
  | array items => items.mapM text?
  | _ => none

end Value

/-- The entries of a table. -/
abbrev Entries := List (String × Value)

namespace Entries

/-- Puts a value at a key that is there, or behind the other entries. -/
def put (key : String) (value : Value) : Entries → Entries
  | [] => [(key, value)]
  | (k, v) :: rest => if k = key then (key, value) :: rest else (k, v) :: put key value rest

/-- Changes the table at the end of a path. Tables that are missing on the way are
made, as a dotted key or a header makes them; a path through an array of tables leads
to its last one. A dotted key does not lead into tables that have a header. -/
def within (isDotted : Bool) (change : TableKind → Entries → Option Entries) :
    List String → TableKind → Entries → Option Entries
  | [], kind, entries => change kind entries
  | key :: path, _, entries =>
      match entries.lookup key with
      | none => do
          let kind := if isDotted then .dotted else .passed
          let child ← within isDotted change path kind []
          return entries.put key (.table kind child)
      | some (.table .braced _) => none
      | some (.table kind child) =>
          if isDotted && kind = .headed then none
          else do
            let child ← within isDotted change path kind child
            return entries.put key (.table kind child)
      | some (.tables items) => do
          let child ← within isDotted change path .headed (items.getLast?.getD [])
          return entries.put key (.tables (items.dropLast ++ [child]))
      | some _ => none

/-- Adds a value at a new key of a table. Dotted keys and plain ones do not mix in
a table. -/
def add (isDotted : Bool) (key : String) (value : Value) (kind : TableKind)
    (entries : Entries) : Option Entries :=
  if (kind == .dotted) != isDotted then none
  else
    match entries.lookup key with
    | none => some (entries ++ [(key, value)])
    | some _ => none

/-- Adds a value at a dotted key, of which `path` is all but the last part. -/
def addAt (path : List String) (key : String) (value : Value) (kind : TableKind)
    (entries : Entries) : Option Entries :=
  within true (add (!path.isEmpty) key value) path kind entries

/-- Gives a table its header. It can be new, or named on the way to others only. -/
def openTable (key : String) (_ : TableKind) (entries : Entries) : Option Entries :=
  match entries.lookup key with
  | none => some (entries ++ [(key, .table .headed [])])
  | some (.table .passed child) => some (entries.put key (.table .headed child))
  | some _ => none

/-- Adds a table to an array of tables. -/
def growTables (key : String) (_ : TableKind) (entries : Entries) : Option Entries :=
  match entries.lookup key with
  | none => some (entries ++ [(key, .tables [[]])])
  | some (.tables items) => some (entries.put key (.tables (items ++ [[]])))
  | some _ => none

/-- What a key is set to. A key that is missing has its default, one with a value
that cannot be read has none. -/
def setting {α : Type} (key : String) (default : α) (read? : Value → Option α)
    (entries : Entries) : Option α :=
  match entries.lookup key with
  | none => some default
  | some value => read? value

end Entries

end ThemedSvg.Toml

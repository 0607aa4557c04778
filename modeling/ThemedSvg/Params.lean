/-
# Render parameters

A parameter set maps keys such as `color0`, `[fill]` or `size` to values. It is
kept in key order, so a set is determined by what it holds. A parameter with an
empty value is there but counts as not given.
-/

import ThemedSvg.Keyed
import ThemedSvg.Text.Space

namespace ThemedSvg

/-- Parameters in key order, each key once. -/
structure Params where
  entries : List (String × String)
  ordered : Keyed.Ordered entries
  deriving DecidableEq

namespace Params

/-- No parameters. -/
def empty : Params := ⟨[], List.Pairwise.nil⟩

instance : Inhabited Params := ⟨empty⟩

/-- Sets a parameter, replacing its earlier value. -/
def insert (params : Params) (key value : String) : Params :=
  ⟨Keyed.insert key value params.entries, Keyed.ordered_insert params.ordered⟩

/-- The parameters of a list of pairs; the last one of a key counts. -/
def ofPairs (pairs : List (String × String)) : Params :=
  pairs.foldl (fun params (key, value) => params.insert key value) empty

/-- The value that is given for a key. An empty one counts as absent. -/
def get? (params : Params) (key : String) : Option String :=
  (Keyed.find? key params.entries).filter (· != "")

/-- These parameters laid over `defaults`. Ours win, also with an empty value. -/
def mergedOver (params defaults : Params) : Params :=
  ⟨Keyed.insertAll params.entries defaults.entries,
    Keyed.ordered_insertAll params.entries defaults.ordered⟩

def size (params : Params) : Nat := params.entries.length

def isEmpty (params : Params) : Bool := params.entries.isEmpty

/-- Sets the parameter of one `key:value` piece, which is cut at its first colon.
A piece without a colon sets nothing. -/
def addFragment (params : Params) (fragment : List Char) : Params :=
  match Text.splitFirst ':' fragment with
  | some (key, value) => params.insert (String.ofList key) (String.ofList value)
  | none => params

/-- What of a shorthand counts: everything but white space and double quotes. -/
def significant (shorthand : List Char) : List Char :=
  shorthand.filter fun c => !Text.isSpace c && c != '"'

/-- Reads the shorthand `key:value;key:value`. White space and double quotes are
left out wherever they stand. -/
def ofShorthand (shorthand : String) : Params :=
  ((significant shorthand.toList).splitOn ';').foldl addFragment empty

end Params

end ThemedSvg

/-
# Templates

A template is markup cut into literal text and holes. Evaluating it with
parameters fills every hole with the escaped value it resolves to.
-/

import ThemedSvg.Markup.Entity
import ThemedSvg.Template.Hole

namespace ThemedSvg

/-- A piece of a template: text that stays, or a hole. -/
inductive Segment
  | literal (text : String)
  | lookup (lookup : Lookup)
  | style (hook : StyleHook)
  deriving DecidableEq

namespace Segment

def lookup? : Segment → Option Lookup
  | lookup l => some l
  | _ => none

/-- The markup of a segment under the given parameters. -/
def evaluate (params : Params) : Segment → List Char
  | literal text => text.toList
  | lookup l => Markup.escape (l.resolve params).toList
  | style hook => Markup.escape (hook.resolve params).toList

/-- Puts a run of literal text in front, unless there is none. -/
def flush (run : String) (segments : List Segment) : List Segment :=
  if run = "" then segments else literal run :: segments

/-- Joins neighbouring literals into one; `run` is the literal text before. -/
def join (run : String) : List Segment → List Segment
  | [] => flush run []
  | literal text :: rest => join (run ++ text) rest
  | hole :: rest => flush run (hole :: join "" rest)

end Segment

structure Template where
  segments : List Segment
  deriving DecidableEq

namespace Template

/-- The lookups in document order. -/
def lookups (template : Template) : List Lookup :=
  template.segments.filterMap Segment.lookup?

/-- The markup under the given parameters. -/
def evaluate (template : Template) (params : Params) : String :=
  String.ofList (template.segments.flatMap (Segment.evaluate params))

/-- The markup under parameters laid over defaults. -/
def render (template : Template) (params defaults : Params) : String :=
  template.evaluate (params.mergedOver defaults)

end Template

end ThemedSvg

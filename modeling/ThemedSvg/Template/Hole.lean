/-
# Holes of a template

An attribute that a theme may change holds one of two small programs instead of
its text: a lookup, which takes the first of its keys that is given, or a style
hook, which appends declarations to a style.
-/

import ThemedSvg.Params

namespace ThemedSvg

/-- Candidate keys, most specific first, and the text used when none is given. -/
structure Lookup where
  keys : List String
  fallback : String
  deriving DecidableEq

namespace Lookup

/-- The value of the first key that is given, else the fallback. -/
def resolve (lookup : Lookup) (params : Params) : String :=
  (lookup.keys.findSome? params.get?).getD lookup.fallback

end Lookup

/-- A style to which a theme may add one declaration for each property. -/
structure StyleHook where
  base : Option String
  properties : List String
  deriving DecidableEq

namespace StyleHook

/-- A hook on an existing style; a blank style counts as none. -/
def on (base : Option String) (properties : List String) : StyleHook :=
  ⟨base.filter fun style => !Text.isBlank style.toList, properties⟩

/-- The parameter that supplies a property. -/
def key (property : String) : String := "[" ++ property ++ "]"

/-- Whether a declaration can follow the style as it stands. -/
def isTerminated (style : List Char) : Bool :=
  style.isEmpty || (Text.trimEnd style).getLast? == some ';'

/-- The style with a further declaration. -/
def declare (style : List Char) (property value : String) : List Char :=
  style ++ (if isTerminated style then [] else [';'])
    ++ property.toList ++ ':' :: value.toList ++ [';']

/-- The style with a declaration for the property, if its parameter is given. -/
def apply (params : Params) (style : List Char) (property : String) : List Char :=
  match params.get? (key property) with
  | some value => declare style property value
  | none => style

/-- The base style followed by `property:value;` for each property that is given. -/
def resolve (hook : StyleHook) (params : Params) : String :=
  String.ofList (hook.properties.foldl (apply params) (hook.base.getD "").toList)

end StyleHook

end ThemedSvg

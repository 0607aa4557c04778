/-
# Declarations behind a style

A style hook does not read the style that it adds to. All it looks at is the end: where that is
not a semicolon, white space aside, it puts one. So whatever the style is, what is added is read
as declarations of their own, the style is read as before, and without anything to add it is not
touched.
-/

import Mathlib.Data.List.DropRight
import ThemedSvg.Proofs.HiddenSprites

namespace ThemedSvg

/-! ## White space at the end -/

namespace Text

/-- What is dropped from the back is white space. -/
theorem exists_trimEnd_append (text : List Char) :
    ∃ gap, (∀ c ∈ gap, isSpace c = true) ∧ trimEnd text ++ gap = text :=
  ⟨text.rtakeWhile isSpace, fun _ => List.mem_rtakeWhile_imp,
    List.rdropWhile_append_rtakeWhile⟩

theorem trimEnd_of_spaces {gap : List Char} (spaces : ∀ c ∈ gap, isSpace c = true) :
    trimEnd gap = [] :=
  List.rdropWhile_eq_nil_iff.mpr spaces

/-- White space in front of a visible character is not at the end. -/
theorem trimEnd_append_cons {c : Char} (visible : isSpace c = false) (front rest : List Char) :
    trimEnd (front ++ c :: rest) = front ++ c :: trimEnd rest := by
  rw [trimEnd, trimEnd, List.reverse_append, List.reverse_cons, List.append_assoc,
    List.singleton_append, List.dropWhile_append]
  split
  · next blank =>
      rw [List.dropWhile_cons_of_neg (by simp [visible]), List.isEmpty_iff.mp blank]
      simp
  · simp

end Text

/-! ## Styles as pieces -/

namespace Style

/-- A semicolon cuts a style in two. -/
theorem pieces_append_cons (before after : List Char) :
    pieces (before ++ ';' :: after) = pieces before ++ pieces after := by
  rw [pieces, List.splitOn, List.splitOnP_append_cons before after rfl, List.filter_append]
  rfl

/-- What stands between semicolons and is not blank, without the white space around it. -/
def trimmedPieces (style : List Char) : List (List Char) := (pieces style).map Text.trim

theorem trimmedPieces_append_cons (before after : List Char) :
    trimmedPieces (before ++ ';' :: after) = trimmedPieces before ++ trimmedPieces after := by
  rw [trimmedPieces, pieces_append_cons, List.map_append, trimmedPieces, trimmedPieces]

theorem trimmedPieces_of_unbroken {piece : List Char} (unbroken : ';' ∉ piece) :
    trimmedPieces piece = if Text.isBlank piece then [] else [Text.trim piece] := by
  rw [trimmedPieces, pieces, List.splitOn_eq_singleton unbroken, List.filter_singleton]
  cases Text.isBlank piece <;> rfl

/-- White space in front of a style says nothing. -/
theorem trimmedPieces_append_of_spaces {gap : List Char}
    (spaces : ∀ c ∈ gap, Text.isSpace c = true) (style : List Char) :
    trimmedPieces (gap ++ style) = trimmedPieces style := by
  have unbrokenGap : ';' ∉ gap := fun member => absurd (spaces _ member) (by decide)
  -- only the first piece has the white space
  have first {piece : List Char} (unbroken : ';' ∉ piece) :
      trimmedPieces (gap ++ piece) = trimmedPieces piece := by
    have sameText : Text.trim (gap ++ piece) = Text.trim piece := by
      simpa using Text.trim_append spaces (List.forall_mem_nil _) piece
    have sameBlank : Text.isBlank (gap ++ piece) = Text.isBlank piece := by
      rw [Text.isBlank, List.all_append, List.all_eq_true.mpr spaces, Bool.true_and, Text.isBlank]
    rw [trimmedPieces_of_unbroken (by simp [unbrokenGap, unbroken]),
      trimmedPieces_of_unbroken unbroken, sameText, sameBlank]
  cases split : Text.splitFirst ';' style with
  | none => exact first (Text.splitFirst_eq_none_iff.mp split)
  | some parts =>
      obtain ⟨rfl, unbroken⟩ := Text.splitFirst_eq_some split
      rw [← List.append_assoc, trimmedPieces_append_cons, first unbroken,
        trimmedPieces_append_cons]

theorem trimmedPieces_of_spaces {gap : List Char} (spaces : ∀ c ∈ gap, Text.isSpace c = true) :
    trimmedPieces gap = [] := by
  have nothing := trimmedPieces_append_of_spaces spaces []
  rwa [List.append_nil] at nothing

end Style

namespace StyleHook

open Style

variable {params : Params} {property value : String}

/-! ## One declaration -/

/-- A style to which something can be added: with a semicolon at its end, if it needs one. -/
def terminated (style : List Char) : List Char :=
  style ++ if isTerminated style then [] else [';']

theorem isTerminated_iff {style : List Char} :
    isTerminated style = true ↔
      style = [] ∨ ∃ front gap, (∀ c ∈ gap, Text.isSpace c = true) ∧ style = front ++ ';' :: gap := by
  rw [isTerminated, Bool.or_eq_true, List.isEmpty_iff, beq_iff_eq, List.getLast?_eq_some_iff]
  apply or_congr_right
  constructor
  · rintro ⟨front, ends⟩
    obtain ⟨gap, spaces, isStyle⟩ := Text.exists_trimEnd_append style
    rw [ends, List.append_assoc, List.singleton_append] at isStyle
    exact ⟨front, gap, spaces, isStyle.symm⟩
  · rintro ⟨front, gap, spaces, rfl⟩
    exact ⟨front, by rw [Text.trimEnd_append_cons (by decide), Text.trimEnd_of_spaces spaces]⟩

/-- What comes behind a terminated style is read as if it stood alone. -/
theorem trimmedPieces_terminated_append (style text : List Char) :
    trimmedPieces (terminated style ++ text) = trimmedPieces style ++ trimmedPieces text := by
  rw [terminated]
  split
  · next ends =>
      rw [List.append_nil]
      rcases isTerminated_iff.mp ends with rfl | ⟨front, gap, spaces, rfl⟩
      · rfl
      -- the white space behind the semicolon ends up in front of what is added
      · rw [List.append_assoc, List.cons_append, trimmedPieces_append_cons,
          trimmedPieces_append_of_spaces spaces, trimmedPieces_append_cons,
          trimmedPieces_of_spaces spaces, List.append_nil]
  · rw [List.append_assoc, List.singleton_append, trimmedPieces_append_cons]

/-- A declaration as it is read: the property, a colon, and the value up to its last visible
character. -/
def declared (property value : String) : List Char :=
  property.toList ++ ':' :: Text.trimEnd value.toList

theorem trim_declaration (visible : ∀ c ∈ property.toList, Text.isSpace c = false)
    (value : String) : Text.trim (property.toList ++ ':' :: value.toList) = declared property value := by
  have start : Text.trimStart (property.toList ++ ':' :: value.toList) =
      property.toList ++ ':' :: value.toList := by
    rw [Text.trimStart]
    cases letters : property.toList with
    | nil => exact List.dropWhile_cons_of_neg (by decide)
    | cons c rest =>
        rw [letters] at visible
        exact List.dropWhile_cons_of_neg (by simp [visible c List.mem_cons_self])
  rw [Text.trim, start, Text.trimEnd_append_cons (by decide), declared]

/-- A declaration behind a style is one more piece. -/
theorem trimmedPieces_declare (plain : ∀ c ∈ property.toList, c ≠ ';' ∧ Text.isSpace c = false)
    (unbroken : ';' ∉ value.toList) (style : List Char) :
    trimmedPieces (declare style property value) =
      trimmedPieces style ++ [declared property value] := by
  have whole : ';' ∉ property.toList ++ ':' :: value.toList := by
    rw [List.mem_append, List.mem_cons, not_or, not_or]
    exact ⟨fun member => (plain _ member).1 rfl, by decide, unbroken⟩
  have colon : Text.isBlank (property.toList ++ ':' :: value.toList) = false := by
    rw [Text.isBlank, List.all_eq_false]
    exact ⟨':', by simp, by decide⟩
  calc trimmedPieces (declare style property value)
    _ = trimmedPieces (terminated style ++ (property.toList ++ ':' :: value.toList ++ ';' :: [])) := by
        rw [declare, terminated]
        simp only [List.append_assoc, List.cons_append]
    _ = trimmedPieces style ++ (trimmedPieces (property.toList ++ ':' :: value.toList) ++
          trimmedPieces []) := by
        rw [trimmedPieces_terminated_append, trimmedPieces_append_cons]
    _ = trimmedPieces style ++ [declared property value] := by
        rw [trimmedPieces_of_unbroken whole, colon,
          trim_declaration fun c member => (plain c member).2]
        rfl

/-! ## All declarations -/

/-- The declarations that parameters supply: in the order of the properties, each property whose
parameter is there and not empty, with its value. -/
def supplied (params : Params) (properties : List String) : List (String × String) :=
  properties.filterMap fun property =>
    ((params.entries.lookup ("[" ++ property ++ "]")).filter (· != "")).map (property, ·)

/-- A style with declarations added to it one after the other. -/
def declareAll (style : List Char) (declarations : List (String × String)) : List Char :=
  declarations.foldl (fun style (property, value) => declare style property value) style

/-- A hook declares what is supplied, and nothing else. -/
theorem foldl_apply (params : Params) (properties : List String) (style : List Char) :
    properties.foldl (apply params) style = declareAll style (supplied params properties) := by
  induction properties generalizing style with
  | nil => rfl
  | cons property rest ih =>
      have given : params.get? (key property) =
          (params.entries.lookup ("[" ++ property ++ "]")).filter (· != "") := by
        rw [Params.get?, Keyed.find?_eq_lookup, key]
      rw [List.foldl_cons, ih, apply, given, supplied, supplied, List.filterMap_cons]
      cases (params.entries.lookup ("[" ++ property ++ "]")).filter (· != "") <;> rfl

theorem prefix_declareAll (style : List Char) (declarations : List (String × String)) :
    style <+: declareAll style declarations := by
  induction declarations generalizing style with
  | nil => exact List.prefix_refl style
  | cons first rest ih =>
      have longer : style <+: declare style first.1 first.2 := by
        simp only [declare, List.append_assoc]
        exact List.prefix_append style _
      exact longer.trans (ih _)

/-- Each declaration is a piece of its own, behind those of the style. -/
theorem trimmedPieces_declareAll {declarations : List (String × String)}
    (plain : ∀ entry ∈ declarations, ∀ c ∈ entry.1.toList, c ≠ ';' ∧ Text.isSpace c = false)
    (unbroken : ∀ entry ∈ declarations, ';' ∉ entry.2.toList) (style : List Char) :
    trimmedPieces (declareAll style declarations) =
      trimmedPieces style ++ declarations.map fun (property, value) => declared property value := by
  induction declarations generalizing style with
  | nil => exact (List.append_nil _).symm
  | cons first rest ih =>
      obtain ⟨plain, others⟩ := List.forall_mem_cons.mp plain
      obtain ⟨unbroken, others'⟩ := List.forall_mem_cons.mp unbroken
      have later := ih others others' (declare style first.1 first.2)
      rw [trimmedPieces_declare plain unbroken, List.append_assoc] at later
      exact later

/-- What is supplied are properties of the hook with values of the parameters. -/
theorem mem_of_mem_supplied {properties : List String} {entry : String × String}
    (member : entry ∈ supplied params properties) :
    entry.1 ∈ properties ∧ ("[" ++ entry.1 ++ "]", entry.2) ∈ params.entries := by
  obtain ⟨property, isProperty, given⟩ := List.mem_filterMap.mp member
  obtain ⟨value, found, rfl⟩ := Option.map_eq_some_iff.mp given
  have found := (Option.filter_eq_some_iff.mp found).1
  have distinct := Keyed.nodup_keys params.ordered
  exact ⟨isProperty, (Keyed.lookup_eq_some_iff_mem distinct).mp found⟩

/-! ## Hooks -/

/-- A style is made of another one, if there is one, and of declarations behind it: it says what
both say, it begins with the other style as it stands, and it is the other style if there are no
declarations. A blank style counts as none. -/
structure Extends (base : Option String) (declarations : List (String × String))
    (style : String) : Prop where
  pieces : trimmedPieces style.toList = trimmedPieces (base.getD "").toList ++
    declarations.map fun (property, value) => property.toList ++ ':' :: Text.trimEnd value.toList
  kept : ∀ text ∈ base, Text.isBlank text.toList = false → text.toList <+: style.toList
  untouched : declarations = [] → ∀ text ∈ base, Text.isBlank text.toList = false → style = text
  empty : declarations = [] → (∀ text ∈ base, Text.isBlank text.toList = true) → style = ""

/-- What a hook begins with: the style that is there, unless it is blank. -/
def start (base : Option String) : String :=
  (base.filter fun style => !Text.isBlank style.toList).getD ""

section

variable {base : Option String} {text : String}

theorem start_of_visible (given : text ∈ base) (visible : Text.isBlank text.toList = false) :
    start base = text := by
  rw [start, Option.mem_def.mp given, Option.filter_some_pos, Option.getD_some]
  rw [visible]
  rfl

theorem start_of_blank (blank : ∀ text ∈ base, Text.isBlank text.toList = true) :
    start base = "" := by
  rw [start, Option.filter_eq_none_iff.mpr, Option.getD_none]
  intro text given
  simp [blank text given]

theorem trimmedPieces_start (base : Option String) :
    trimmedPieces (start base).toList = trimmedPieces (base.getD "").toList := by
  cases base with
  | none => rfl
  | some text =>
      cases blank : Text.isBlank text.toList with
      | true =>
          have spaces := (Text.isBlank_iff _).mp blank
          rw [start_of_blank (by simpa using blank), Option.getD_some, trimmedPieces_of_spaces spaces]
          rfl
      | false => rw [start_of_visible rfl blank, Option.getD_some]

end

theorem toList_resolve (base : Option String) (properties : List String) (params : Params) :
    ((on base properties).resolve params).toList =
      declareAll (start base).toList (supplied params properties) := by
  rw [resolve, String.toList_ofList, foldl_apply]
  rfl

/-- A hook does no harm to a style, whatever it is. What is supplied is read behind it,
declaration by declaration, and if nothing is supplied the style stays as it stands. -/
theorem extends_resolve (base : Option String) {properties : List String}
    (plain : ∀ property ∈ properties, ∀ c ∈ property.toList, c ≠ ';' ∧ Text.isSpace c = false)
    {params : Params} (unbroken : ∀ entry ∈ params.entries, ';' ∉ entry.2.toList) :
    Extends base (supplied params properties) ((on base properties).resolve params) := by
  have resolved := toList_resolve base properties params
  have plainEntries : ∀ entry ∈ supplied params properties, ∀ c ∈ entry.1.toList,
      c ≠ ';' ∧ Text.isSpace c = false :=
    fun entry member => plain entry.1 (mem_of_mem_supplied member).1
  have unbrokenEntries : ∀ entry ∈ supplied params properties, ';' ∉ entry.2.toList :=
    fun entry member => unbroken ("[" ++ entry.1 ++ "]", entry.2) (mem_of_mem_supplied member).2
  exact {
    pieces := by
      rw [resolved, trimmedPieces_declareAll plainEntries unbrokenEntries, trimmedPieces_start]
      rfl
    kept := by
      intro text given visible
      rw [resolved, start_of_visible given visible]
      exact prefix_declareAll ..
    untouched := by
      intro nothing text given visible
      rw [nothing, start_of_visible given visible] at resolved
      exact String.toList_inj.mp resolved
    empty := by
      intro nothing blank
      rw [nothing, start_of_blank blank] at resolved
      exact String.toList_inj.mp resolved }

/-- A theme that gives a stroke and, with a space behind it, a fill, and leaves the size empty. -/
def faded : Params := .ofPairs [("[stroke]", "red"), ("[fill]", "blue "), ("[size]", "")]

/-- The semicolon of the style is enough for the first declaration, in spite of the space. -/
theorem extends_resolve_faded :
    (∀ property ∈ ["fill", "stroke", "size"], ∀ c ∈ property.toList,
        c ≠ ';' ∧ Text.isSpace c = false) ∧
      (∀ entry ∈ faded.entries, ';' ∉ entry.2.toList) ∧
      Extends (some "opacity:.5 ; ") [("fill", "blue "), ("stroke", "red")]
        "opacity:.5 ; fill:blue ;stroke:red;" := by
  have letters : ∀ property ∈ ["fill", "stroke", "size"],
      (property.toList.all fun c => c != ';' && !Text.isSpace c) = true := by decide +kernel
  have plain : ∀ property ∈ ["fill", "stroke", "size"], ∀ c ∈ property.toList,
      c ≠ ';' ∧ Text.isSpace c = false := by
    intro property listed c inside
    simpa using List.all_eq_true.mp (letters property listed) c inside
  have unbroken : ∀ entry ∈ faded.entries, ';' ∉ entry.2.toList := by decide +kernel
  have declarations : supplied faded ["fill", "stroke", "size"] =
      [("fill", "blue "), ("stroke", "red")] := by decide +kernel
  have style : (on (some "opacity:.5 ; ") ["fill", "stroke", "size"]).resolve faded =
      "opacity:.5 ; fill:blue ;stroke:red;" := by decide +kernel
  have extended := extends_resolve (some "opacity:.5 ; ") plain unbroken
  rw [declarations, style] at extended
  exact ⟨plain, unbroken, extended⟩

end StyleHook

end ThemedSvg

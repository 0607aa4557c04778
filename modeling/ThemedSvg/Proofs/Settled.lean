/-
# Settled documents

A document that is rendered without any parameters keeps its colors and gets a style and a
size of its own, where it had none. This settles it: as a source it files the same colors,
under the same numbers, paths and keys, and it is rendered as it is. So compiling the
markup that an asset gives makes nothing new.
-/

import ThemedSvg.Proofs.Filling
import ThemedSvg.Proofs.Theming

namespace ThemedSvg

/-- The theme that gives nothing. -/
def Theme.bare : Theme := fun _ => none

namespace Theme

theorem first_bare (keys : List String) (otherwise : String) :
    bare.first keys otherwise = otherwise := by
  rw [first, show keys.findSome? bare = none from List.findSome?_eq_none_iff.mpr fun _ _ => rfl]
  rfl

end Theme

theorem Params.themeOver_empty : Params.empty.themeOver Params.empty = Theme.bare := rfl

namespace Element

/-! ## Setting attributes -/

/-- Setting an attribute to the text that it has changes nothing. -/
theorem setAttribute_of_literal? {element : Element} {name text : String}
    (spelled : element.literal? name = some text) :
    element.setAttribute name (.literal text) = element := by
  obtain ⟨tag, attributes, children⟩ := element
  rw [literal?] at spelled
  dsimp only at spelled
  rw [setAttribute]
  congr 1
  dsimp only
  induction attributes with
  | nil => cases spelled
  | cons slot rest ih =>
      rw [Attribute.set]
      rw [List.find?_cons] at spelled
      by_cases isNamed : slot.name = name
      · rw [beq_iff_eq.mpr isNamed, Option.bind_some] at spelled
        obtain ⟨own, value⟩ := slot
        cases value with
        | literal own' =>
            cases spelled
            rw [if_pos isNamed]
        | lookup l => cases spelled
        | style hook => cases spelled
      · rw [beq_eq_false_iff_ne.mpr isNamed] at spelled
        rw [if_neg isNamed, ih spelled]

/-! ## A theme that gives nothing -/

/-- A bare theme leaves a paint the text that it has. -/
theorem literal?_of_themedPaint?_bare {colors : List String} {number : Nat} {element : Element}
    {paint : Paint} {text : String}
    (themed : element.themedPaint? .bare colors number paint = some text) :
    element.literal? paint.name = some text := by
  unfold themedPaint? at themed
  simp only [Theme.first_bare, Option.bind_eq_bind, Option.bind_eq_some_iff] at themed
  obtain ⟨spelling, spelled, color, _, same⟩ := themed
  cases same
  exact spelled

theorem repainted_bare (colors : List String) (before : Nat) (element : Element) :
    element.repainted .bare colors before = element := by
  have kept (paint : Paint) (number : Nat) :
      element.withPaint? paint (element.themedPaint? .bare colors number paint) = element := by
    cases themed : element.themedPaint? .bare colors number paint with
    | none => rfl
    | some text => exact setAttribute_of_literal? (literal?_of_themedPaint?_bare themed)
  unfold repainted
  dsimp only
  rw [kept, kept]

/-- A bare theme changes no paint of a document. -/
theorem themed_bare (colors : List String) (before : Nat) (root : Element) :
    root.themed .bare colors before = root := by
  induction root generalizing before with
  | element name attributes children ih =>
      have nodes (number : Nat) : Node.themedAll .bare colors number children = children := by
        induction children generalizing number with
        | nil => rfl
        | cons child rest ih' =>
            have head : child.themed .bare colors number = child := by
              cases child with
              | element child =>
                  rw [Node.themed, ih child List.mem_cons_self]
              | text content => rfl
              | cdata content => rfl
              | comment content => rfl
            rw [Node.themedAll, head,
              ih' fun child member => ih child (List.mem_cons_of_mem _ member)]
      rw [themed, repainted_bare, nodes]

/-- The style that the root of a document without colors has for itself. -/
def ownStyle (root : Element) : String :=
  ((root.literal? "style").filter fun style => !Text.isBlank style.toList).getD ""

/-- A document with a style, if it has no colors. -/
def styled (root : Element) : Element :=
  if root.colors = [] then root.setAttribute "style" (.literal root.ownStyle) else root

/-- A document with a style, if it has no colors, and with a size. -/
def settled (root : Element) : Element :=
  if root.hasAttribute "height" ∨ root.hasAttribute "width" then root.styled
  else
    (root.styled.setAttribute "height" (.literal fullSize)).setAttribute "width"
      (.literal fullSize)

/-- A bare theme does nothing but settle a document. -/
theorem themedDocument_bare (root : Element) : root.themedDocument .bare = root.settled := by
  have sized (dimension : String) : themedSize .bare dimension = fullSize :=
    Theme.first_bare _ _
  unfold themedDocument settled
  dsimp only
  rw [themed_bare, sized, sized]
  rfl

/-! ## What is filed of an element -/

/-- The attributes that filing an element reads. -/
def filedNames : List String := ["fill", "stroke", "id", "class"]

/-- Elements of which the same is filed: they agree in their tags and in every attribute
that filing reads. -/
structure FilesLike (first second : Element) : Prop where
  name : first.name = second.name
  literal : ∀ name ∈ filedNames, first.literal? name = second.literal? name

namespace FilesLike

variable {first second : Element}

theorem refl (element : Element) : element.FilesLike element := ⟨rfl, fun _ _ => rfl⟩

theorem trans {third : Element} (alike : first.FilesLike second)
    (alike' : second.FilesLike third) : first.FilesLike third :=
  ⟨alike.name.trans alike'.name, fun name filed =>
    (alike.literal name filed).trans (alike'.literal name filed)⟩

/-- An attribute that is not read makes no difference. -/
theorem setAttribute {name : String} (unread : name ∉ filedNames) (element : Element)
    (value : AttributeValue) : (element.setAttribute name value).FilesLike element := by
  refine ⟨rfl, ?_⟩
  intro other filed
  apply literal?_setAttribute_of_ne
  rintro rfl
  exact unread filed

/-- Setting one attribute in both keeps them alike. -/
theorem setBoth (alike : first.FilesLike second) (name : String) (value : AttributeValue) :
    (first.setAttribute name value).FilesLike (second.setAttribute name value) := by
  refine ⟨alike.name, ?_⟩
  intro other filed
  by_cases same : other = name
  · rw [same, literal?_setAttribute_self, literal?_setAttribute_self]
  · rw [literal?_setAttribute_of_ne same, literal?_setAttribute_of_ne same,
      alike.literal other filed]

theorem pathBelow_eq (alike : first.FilesLike second) (parent : String) :
    pathBelow parent first = pathBelow parent second := by
  rw [pathBelow, pathBelow, alike.name, alike.literal "id" (by decide),
    alike.literal "class" (by decide)]

theorem candidateKeys_eq (alike : first.FilesLike second) (paint : Paint) (number group : Nat) :
    first.candidateKeys paint number group = second.candidateKeys paint number group := by
  rw [candidateKeys, candidateKeys, alike.name, alike.literal "id" (by decide),
    alike.literal "class" (by decide)]

theorem paint_eq (alike : first.FilesLike second) (paint : Paint) :
    first.literal? paint.name = second.literal? paint.name :=
  alike.literal _ (by cases paint <;> decide)

theorem ownColors_eq (alike : first.FilesLike second) : first.ownColors = second.ownColors := by
  have same (paint : Paint) : first.paint? paint = second.paint? paint := by
    rw [paint?, paint?, alike.paint_eq]
  rw [ownColors, ownColors, funext same]

/-- Filing one paint of either makes the same catalog, and keeps them alike. -/
theorem recordPaint (alike : first.FilesLike second) (catalog : Catalog) (path : String)
    (paint : Paint) :
    (Catalog.recordPaint path (catalog, first) paint).1 =
        (Catalog.recordPaint path (catalog, second) paint).1 ∧
      (Catalog.recordPaint path (catalog, first) paint).2.FilesLike
        (Catalog.recordPaint path (catalog, second) paint).2 := by
  unfold Catalog.recordPaint
  dsimp only
  rw [alike.paint_eq]
  cases second.literal? paint.name with
  | none => exact ⟨rfl, alike⟩
  | some spelling =>
      dsimp only
      cases Rgba.read? spelling with
      | none => exact ⟨rfl, alike⟩
      | some color =>
          dsimp only
          cases (catalog.intern color).1.entries[(catalog.intern color).2]? with
          | none => exact ⟨rfl, alike⟩
          | some entry =>
              dsimp only
              rw [alike.candidateKeys_eq]
              exact ⟨rfl, alike.setBoth _ _⟩

theorem record_eq (alike : first.FilesLike second) (catalog : Catalog) (path : String) :
    (catalog.record first path).1 = (catalog.record second path).1 := by
  obtain ⟨filled, alike'⟩ := alike.recordPaint catalog path .fill
  have stroked := (alike'.recordPaint (Catalog.recordPaint path (catalog, first) .fill).1 path
    .stroke).1
  rw [show ((Catalog.recordPaint path (catalog, first) .fill).1,
      (Catalog.recordPaint path (catalog, second) .fill).2) =
        Catalog.recordPaint path (catalog, second) .fill from Prod.ext filled rfl] at stroked
  exact stroked

/-- Of two documents with the same children and roots alike the same is filed. -/
theorem annotate_eq {first second : Element} (alike : first.FilesLike second)
    (children : first.children = second.children) (catalog : Catalog) (parent : String) :
    (first.annotate catalog parent).1 = (second.annotate catalog parent).1 := by
  obtain ⟨name, attributes, nodes⟩ := first
  obtain ⟨name', attributes', nodes'⟩ := second
  cases children
  have heads : FilesLike ⟨name, attributes, []⟩ ⟨name', attributes', []⟩ :=
    ⟨alike.name, alike.literal⟩
  rw [annotate_mk, annotate_mk]
  dsimp only
  rw [heads.pathBelow_eq, heads.record_eq]

theorem colors_eq (alike : first.FilesLike second) (children : first.children = second.children) :
    first.colors = second.colors := by
  rw [colors, colors, elements_eq_cons, elements_eq_cons, List.flatMap_cons, List.flatMap_cons,
    alike.ownColors_eq, descendants, descendants, children]

end FilesLike

/-! ## Settling twice -/

theorem settled_eq (root : Element) :
    root.settled = root.styled ∨
      root.settled = (root.styled.setAttribute "height" (.literal fullSize)).setAttribute "width"
        (.literal fullSize) := by
  unfold settled
  split
  · exact .inl rfl
  · exact .inr rfl

/-- Settling sets nothing that is filed. -/
theorem filesLike_settled (root : Element) :
    root.settled.FilesLike root ∧ root.settled.children = root.children := by
  have alike : root.styled.FilesLike root ∧ root.styled.children = root.children := by
    unfold styled
    split
    · exact ⟨.setAttribute (by decide) _ _, rfl⟩
    · exact ⟨.refl root, rfl⟩
  rcases root.settled_eq with settled | settled
  · rw [settled]
    exact alike
  · rw [settled]
    exact ⟨((FilesLike.setAttribute (by decide) _ _).trans
      (.setAttribute (by decide) _ _)).trans alike.1, alike.2⟩

theorem Readable.settled {root : Element} (readable : root.Readable) : root.settled.Readable := by
  have styled : root.styled.Readable := by
    unfold Element.styled
    split
    · exact readable.setAttribute (by decide) _
    · exact readable
  rcases root.settled_eq with settled | settled
  · rw [settled]
    exact styled
  · rw [settled]
    exact (styled.setAttribute (by decide) _).setAttribute (by decide) _

theorem colors_settled (root : Element) : root.settled.colors = root.colors :=
  root.filesLike_settled.1.colors_eq root.filesLike_settled.2

/-- A settled document has a size. -/
theorem isSized_settled (root : Element) :
    root.settled.hasAttribute "height" = true ∨ root.settled.hasAttribute "width" = true := by
  have kept (name : String) (differs : name ≠ "style") :
      root.styled.hasAttribute name = root.hasAttribute name := by
    unfold styled
    split
    · exact hasAttribute_setAttribute_of_ne differs root _
    · rfl
  by_cases sized : root.hasAttribute "height" = true ∨ root.hasAttribute "width" = true
  · have settled : root.settled = root.styled := if_pos sized
    rw [settled, kept "height" (by decide), kept "width" (by decide)]
    exact sized
  · have settled : root.settled = (root.styled.setAttribute "height"
        (.literal fullSize)).setAttribute "width" (.literal fullSize) := if_neg sized
    rw [settled]
    exact .inr (hasAttribute_setAttribute_self _ _ _)

/-- The style that is a document's own is not blank, or there is none. -/
theorem ownStyle_eq (root : Element) :
    root.ownStyle = "" ∨ Text.isBlank root.ownStyle.toList = false := by
  unfold ownStyle
  cases root.literal? "style" with
  | none => exact .inl rfl
  | some style =>
      rw [Option.filter_some]
      cases blank : Text.isBlank style.toList with
      | true => exact .inl rfl
      | false => exact .inr blank

/-- A document without colors has its own style once it is settled. -/
theorem literal?_style_settled {root : Element} (colorless : root.colors = []) :
    root.settled.literal? "style" = some root.settled.ownStyle := by
  have set : root.settled.literal? "style" = some root.ownStyle := by
    have styled : root.styled.literal? "style" = some root.ownStyle := by
      rw [Element.styled, if_pos colorless, literal?_setAttribute_self]
      rfl
    rcases root.settled_eq with settled | settled
    · rw [settled, styled]
    · rw [settled, literal?_setAttribute_of_ne (by decide),
        literal?_setAttribute_of_ne (by decide), styled]
  have kept : root.settled.ownStyle = root.ownStyle := by
    rw [ownStyle.eq_def root.settled, set]
    rcases root.ownStyle_eq with none | shown
    · rw [none]
      rfl
    · rw [Option.filter_some, shown]
      rfl
  rw [set, kept]

/-- A settled document is settled. -/
theorem settled_settled (root : Element) : root.settled.settled = root.settled := by
  have styled : root.settled.styled = root.settled := by
    by_cases colorless : root.colors = []
    · rw [Element.styled, if_pos (root.colors_settled.trans colorless)]
      exact setAttribute_of_literal? (literal?_style_settled colorless)
    · rw [Element.styled, if_neg fun none => colorless (root.colors_settled.symm.trans none)]
  calc root.settled.settled
    _ = root.settled.styled := if_pos root.isSized_settled
    _ = root.settled := styled

end Element

namespace Asset

/-- The markup of an asset under parameters is the themed document as it is written. -/
theorem markup_direct {root : Element} (literals : root.Each Element.HasLiterals)
    (source : Source) (options : AssetOptions) (params other : Params) :
    (direct source options root).markup params =
      String.ofList ((root.themedDocument (params.themeOver options.defaults)).written other) := by
  rw [← Params.get?_mergedOver, ← Element.resolved_hooked literals, Element.written_resolved,
    direct_eq, ← Markup.toString_evaluate_compile]
  rfl

/-- The markup that an asset without defaults gives without parameters is built into an asset
with the same catalog, and that asset gives the same markup again. -/
theorem build_markup_settled {markup : String} {root : Element}
    (parsed : Markup.parse markup = .ok root) (plain : root.Plain) (source source' : Source)
    {options options' : AssetOptions} (bare : options.defaults = Params.empty)
    (bare' : options'.defaults = Params.empty) :
    ∃ first second, build source options markup = .ok first ∧
      build source' options' (first.markup Params.empty) = .ok second ∧
      second.catalog = first.catalog ∧
      second.markup Params.empty = first.markup Params.empty := by
  have isSource := Element.IsSource.ofParse parsed plain
  have built := build_eq_ok_direct source options isSource parsed
  obtain ⟨first, built', reads⟩ := parse_markup_eq_themedDocument parsed plain source options
  cases built.symm.trans built'
  set settled := root.merged.settled with isSettled
  have reads : Markup.parse ((direct source options root).markup Params.empty) = .ok settled := by
    rw [reads, bare, Params.themeOver_empty, Element.themedDocument_bare]
  have isSource' : settled.IsSource :=
    .ofParse reads (Element.readable_iff.mp isSource.merged.readable.settled).1
  refine ⟨_, direct source' options' settled, built,
    build_eq_ok_direct source' options' isSource' reads, ?_, ?_⟩
  · obtain ⟨alike, children⟩ := root.merged.filesLike_settled
    rw [catalog_direct, catalog_direct, alike.annotate_eq children, Element.annotate_merged]
  · rw [markup_direct isSource'.literals _ _ _ Params.empty, ← direct_merged source options root,
      markup_direct isSource.merged.literals _ _ _ Params.empty, bare, bare',
      Params.themeOver_empty, Element.themedDocument_bare, Element.themedDocument_bare,
      Element.settled_settled]

/-- A document without a size, with a symbol and two spellings of one color. -/
def medal : Element :=
  ⟨"svg", [.text "class" "a > b"],
    [.element ⟨"symbol", [.text "id" "pin", .text "fill" "#f00"], []⟩,
      .element ⟨"circle", [.text "fill" "red", .text "stroke" "#00f"], []⟩, .text " & "]⟩

theorem build_markup_medal :
    Markup.parse medal.serialize = .ok medal ∧ medal.Plain ∧
      AssetOptions.standard.defaults = Params.empty ∧
      ∃ first second, build .inline .standard medal.serialize = .ok first ∧
        build .inline .standard (first.markup Params.empty) = .ok second ∧
        second.catalog = first.catalog ∧
        second.markup Params.empty = first.markup Params.empty := by
  have parsed : Markup.parse medal.serialize = .ok medal :=
    Markup.parse_serialize_of_apart (by decide +kernel) (by decide)
  have plain : medal.Plain := by decide
  exact ⟨parsed, plain, rfl, build_markup_settled parsed plain .inline .inline rfl rfl⟩

end Asset

end ThemedSvg

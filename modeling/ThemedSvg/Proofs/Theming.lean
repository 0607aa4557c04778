/-
# Rendering is theming

The markup of an asset under parameters is parsed to the source tree with its texts
joined and its colors, its style and its size themed. Whatever the parameters hold, it
stays inside the attributes it is meant for: nothing else of the document changes.
-/

import ThemedSvg.Proofs.Direct
import ThemedSvg.Proofs.Painting

namespace ThemedSvg

/-! ## Documents -/

theorem Element.colors_mk (name : String) (attributes : List Attribute)
    (children : List Node) :
    colors ⟨name, attributes, children⟩ =
      ownColors ⟨name, attributes, []⟩ ++ children.flatMap Node.colors := by
  rw [colors, elements_mk, List.flatMap_cons, List.flatMap_assoc]
  rfl

theorem Element.resolved_withChildren (params : Params) (element : Element)
    (children : List Node) :
    Element.resolved params { element with children } =
      { element.resolved params with children := children.map (Node.resolved params) } := by
  obtain ⟨name, attributes, others⟩ := element
  rw [resolved_mk, resolved_mk]

/-- The walk over an element takes in its colors, behind those that were seen before, and
leaves behind what becomes the element with its paints themed. -/
def Element.PaintsAs (colors : List String) (root : Element) : Prop :=
  ∀ {catalog : Catalog} {seen : List String} (parent : String), catalog.Files seen →
    seen ++ root.colors <+: colors →
    (root.annotate catalog parent).1.Files (seen ++ root.colors) ∧
      ∀ params, (root.annotate catalog parent).2.resolved params =
        root.themed params.get? colors seen.length

namespace Node

variable {catalog : Catalog} {seen colors : List String}

theorem annotate_themed {node : Node}
    (paints : ∀ child, node = .element child → child.PaintsAs colors) (path : String)
    (files : catalog.Files seen) (ahead : seen ++ node.colors <+: colors) :
    (node.annotate catalog path).1.Files (seen ++ node.colors) ∧
      ∀ params, (node.annotate catalog path).2.resolved params =
        node.themed params.get? colors seen.length := by
  cases node with
  | element child =>
      obtain ⟨filed, themed⟩ := paints child rfl path files ahead
      refine ⟨filed, ?_⟩
      intro params
      rw [Node.themed, ← themed params]
      rfl
  | text content =>
      have colorless : seen ++ (Node.text content).colors = seen := List.append_nil seen
      rw [colorless]
      exact ⟨files, fun _ => rfl⟩
  | cdata content =>
      have colorless : seen ++ (Node.cdata content).colors = seen := List.append_nil seen
      rw [colorless]
      exact ⟨files, fun _ => rfl⟩
  | comment content =>
      have colorless : seen ++ (Node.comment content).colors = seen := List.append_nil seen
      rw [colorless]
      exact ⟨files, fun _ => rfl⟩

theorem annotateAll_themed {children : List Node}
    (paints : ∀ child, Node.element child ∈ children → child.PaintsAs colors) (path : String)
    (files : catalog.Files seen) (ahead : seen ++ children.flatMap Node.colors <+: colors) :
    (annotateAll catalog path children).1.Files (seen ++ children.flatMap Node.colors) ∧
      ∀ params, (annotateAll catalog path children).2.map (Node.resolved params) =
        themedAll params.get? colors seen.length children := by
  induction children generalizing catalog seen with
  | nil =>
      rw [List.flatMap_nil, List.append_nil]
      exact ⟨files, fun _ => rfl⟩
  | cons child rest ih =>
      rw [List.flatMap_cons, ← List.append_assoc] at ahead ⊢
      obtain ⟨filed, painted⟩ := annotate_themed
        (fun source same => paints source (same ▸ List.mem_cons_self)) path files
        ((List.prefix_append _ _).trans ahead)
      obtain ⟨filedAll, themed⟩ := ih
        (fun source member => paints source (List.mem_cons_of_mem _ member)) filed ahead
      rw [annotateAll_cons]
      refine ⟨filedAll, ?_⟩
      intro params
      rw [List.map_cons, painted, themed, themedAll, List.length_append]

end Node

/-- The induction is on the document, the colors of its elements in document order. -/
theorem Element.paintsAs_of_literals {root : Element} (literals : root.Each HasLiterals)
    (colors : List String) : root.PaintsAs colors := by
  induction root with
  | element name attributes children ih =>
      obtain ⟨here, below⟩ := each_mk.mp literals
      intro catalog seen parent files ahead
      rw [colors_mk, ← List.append_assoc] at ahead ⊢
      have childless : Each HasLiterals ⟨name, attributes, []⟩ :=
        each_mk.mpr ⟨here, nofun⟩
      obtain ⟨filed, painted⟩ := Catalog.record_eq files
        ((List.prefix_append _ _).trans ahead) (pathBelow parent ⟨name, attributes, []⟩)
      obtain ⟨filedAll, themed⟩ := Node.annotateAll_themed
        (fun child member => ih child member (below child member))
        (pathBelow parent ⟨name, attributes, []⟩) filed ahead
      rw [annotate_mk]
      refine ⟨filedAll, ?_⟩
      intro params
      have own := painted params (resolved_of_literals childless params)
      rw [Element.themed, ← own, ← List.length_append, ← themed params]
      exact resolved_withChildren ..

/-! ## Hooks -/

/-- A declaration behind a style is the one that the hook writes. -/
theorem StyleHook.toList_declared (params : Params) (style property : String) :
    (Element.declared params.get? style property).toList =
      apply params style.toList property := by
  unfold Element.declared apply
  rw [show key property = "[" ++ property ++ "]" from rfl]
  cases params.get? ("[" ++ property ++ "]") with
  | none => rfl
  | some value =>
      have ended : isTerminated style.toList = true ↔
          style = "" ∨ (Text.trimEnd style.toList).getLast? = some ';' := by
        simp [isTerminated]
      dsimp only
      rw [declare]
      by_cases terminated : isTerminated style.toList = true
      · rw [if_pos terminated, if_pos (ended.mp terminated)]
        simp
      · rw [if_neg terminated, if_neg fun ends => terminated (ended.mpr ends)]
        simp

theorem StyleHook.resolve_on (params : Params) (style : Option String) :
    (on style ["fill", "stroke"]).resolve params = Element.themedStyle params.get? style := by
  rw [← String.toList_inj, resolve, String.toList_ofList, Element.themedStyle,
    toList_declared, toList_declared]
  rfl

/-- The size hooks become sizes of the theme. -/
theorem Element.resolved_injectSizeHooks (params : Params) (element : Element) :
    element.injectSizeHooks.resolved params =
      if element.hasAttribute "height" ∨ element.hasAttribute "width" then
        element.resolved params
      else
        ((element.resolved params).setAttribute "height"
          (.literal (themedSize params.get? "height"))).setAttribute
            "width" (.literal (themedSize params.get? "width")) := by
  unfold injectSizeHooks
  by_cases sized : element.hasAttribute "height" = true ∨ element.hasAttribute "width" = true
  · rw [if_pos sized, if_pos (by simpa using sized)]
  · rw [if_neg sized, if_neg (by simpa using sized), resolved_setAttribute,
      resolved_setAttribute]
    rfl

theorem Element.resolved_injectStyleHook (params : Params) (element : Element) :
    element.injectStyleHook.resolved params =
      (element.resolved params).setAttribute "style"
        (.literal (themedStyle params.get? (element.literal? "style"))) := by
  rw [injectStyleHook, resolved_setAttribute, ← StyleHook.resolve_on]
  rfl

/-- The walk over a document touches no attribute of its root but the paints. -/
theorem Element.attribute_annotate_eq (root : Element) (catalog : Catalog) (parent name : String)
    (notPaint : name ∉ Paint.all.map Paint.name) :
    (root.annotate catalog parent).2.literal? name = root.literal? name ∧
      (root.annotate catalog parent).2.hasAttribute name = root.hasAttribute name := by
  obtain ⟨tag, attributes, children⟩ := root
  rw [annotate_mk]
  exact (Catalog.repaints_record catalog ⟨tag, attributes, []⟩
    (pathBelow parent ⟨tag, attributes, []⟩)).attribute_eq notPaint

/-- A rendering's tree, before it is written: the themed document. -/
theorem Element.resolved_hooked {root : Element} (literals : root.Each HasLiterals)
    (params : Params) :
    (Asset.hooked (root.annotate Catalog.empty "").1
      (root.annotate Catalog.empty "").2).resolved params =
        root.themedDocument params.get? := by
  obtain ⟨files, themed⟩ := paintsAs_of_literals literals root.colors "" Catalog.files_empty
    (List.prefix_refl _)
  have kept := root.attribute_annotate_eq Catalog.empty ""
  have style := (kept "style" (by decide)).1
  have height := (kept "height" (by decide)).2
  have width := (kept "width" (by decide)).2
  have colorless := files.isEmpty_iff
  rw [List.nil_append] at colorless
  rw [Asset.hooked, resolved_injectSizeHooks, themedDocument]
  by_cases isEmpty : root.colors = []
  · rw [if_pos (colorless.mpr isEmpty), if_pos isEmpty, resolved_injectStyleHook, themed, style,
      injectStyleHook, hasAttribute_setAttribute_of_ne (by decide),
      hasAttribute_setAttribute_of_ne (by decide), height, width]
    rfl
  · rw [if_neg fun empty => isEmpty (colorless.mp empty), if_neg isEmpty, themed, height, width]
    rfl

/-! ## Markup -/

namespace Element

theorem Readable.setAttribute {root : Element} (readable : root.Readable) {name : String}
    (plain : PlainName name) (value : AttributeValue) :
    (root.setAttribute name value).Readable := by
  obtain ⟨tag, attributes, children⟩ := root
  obtain ⟨here, below⟩ := each_mk.mp readable
  exact each_mk.mpr ⟨⟨⟨here.names.1, Attribute.forall_mem_set here.names.2 plain⟩,
    Attribute.nodup_set here.distinct, here.sound⟩, below⟩

theorem Repaints.readable {element element' : Element} (repaints : element.Repaints element')
    (readable : element.Readable) : element'.Readable := by
  induction repaints with
  | refl => exact readable
  | set paint value _ ih => exact ih.setAttribute (by cases paint <;> decide) value

end Element

/-- Each node that the walk leaves behind was made of a child. -/
theorem Node.exists_of_mem_annotateAll {catalog : Catalog} {path : String}
    {children : List Node} {node : Node} (member : node ∈ (annotateAll catalog path children).2) :
    ∃ source ∈ children, ∃ catalog', node = (source.annotate catalog' path).2 := by
  induction children generalizing catalog with
  | nil => cases member
  | cons child rest ih =>
      rw [annotateAll_cons] at member
      rcases List.mem_cons.mp member with rfl | later
      · exact ⟨child, List.mem_cons_self, catalog, rfl⟩
      · obtain ⟨source, inside, made⟩ := ih later
        exact ⟨source, List.mem_cons_of_mem _ inside, made⟩

/-- Filing the colors of a tree does not touch what makes it readable. -/
theorem Element.Readable.annotate {root : Element} (readable : root.Readable)
    (catalog : Catalog) (parent : String) : (root.annotate catalog parent).2.Readable := by
  induction root generalizing catalog parent with
  | element name attributes children ih =>
      obtain ⟨here, below⟩ := each_mk.mp readable
      have childless : Element.Readable ⟨name, attributes, []⟩ :=
        each_mk.mpr ⟨⟨here.names, here.distinct, List.forall_mem_nil _⟩, nofun⟩
      have head := ((catalog.repaints_record ⟨name, attributes, []⟩
        (pathBelow parent ⟨name, attributes, []⟩)).readable childless).here
      rw [annotate_mk]
      refine each_mk.mpr ⟨⟨head.names, head.distinct, ?_⟩, ?_⟩
      · intro node member
        obtain ⟨source, inside, catalog', rfl⟩ := Node.exists_of_mem_annotateAll member
        have sound := here.sound source inside
        cases source with
        | element child => trivial
        | text content => exact sound
        | cdata content => exact sound
        | comment content => exact sound
      · intro child member
        obtain ⟨source, inside, catalog', made⟩ := Node.exists_of_mem_annotateAll member
        cases source with
        | element child' =>
            cases made
            exact ih child' inside (below child' inside) catalog' _
        | text content => cases made
        | cdata content => cases made
        | comment content => cases made

theorem Element.Readable.hooked {root : Element} (readable : root.Readable)
    (catalog : Catalog) : (Asset.hooked catalog root).Readable := by
  have sized {root : Element} (readable : root.Readable) : root.injectSizeHooks.Readable := by
    unfold injectSizeHooks
    split
    · exact readable
    · exact (readable.setAttribute (by decide) _).setAttribute (by decide) _
  unfold Asset.hooked
  split
  · exact sized (readable.setAttribute (by decide) _)
  · exact sized readable

/-- The look-up in parameters laid over defaults. -/
theorem Params.get?_mergedOver (params defaults : Params) :
    (params.mergedOver defaults).get? = params.themeOver defaults := by
  funext key
  rw [get?, mergedOver, themeOver, Keyed.find?_insertAll params.ordered]

namespace Asset

/-- Markup with plain names is built into an asset whose markup, under any defaults and
parameters, is parsed to the themed source, its texts joined. -/
theorem parse_markup_eq_themedDocument {markup : String} {root : Element}
    (parsed : Markup.parse markup = .ok root) (plain : root.Plain) (source : Source)
    (options : AssetOptions) :
    ∃ asset, build source options markup = .ok asset ∧
      ∀ params, Markup.parse (asset.markup params) =
        .ok (root.merged.themedDocument (params.themeOver options.defaults)) := by
  have isSource := Element.IsSource.ofParse parsed plain
  refine ⟨direct source options root, build_eq_ok_direct source options isSource parsed,
    fun params => ?_⟩
  let annotated := root.merged.annotate Catalog.empty ""
  let under := params.mergedOver options.defaults
  have readable : (hooked annotated.1 annotated.2).Readable :=
    (isSource.merged.readable.annotate _ _).hooked _
  have markup : (direct source options root).markup params =
      String.ofList ((hooked annotated.1 annotated.2).written under) := by
    rw [← direct_merged, direct_eq, ← Markup.toString_evaluate_compile]
    rfl
  have joined : (hooked annotated.1 annotated.2).merged = hooked annotated.1 annotated.2 := by
    have twice := root.merged.annotate_merged Catalog.empty ""
    rw [Element.merged_merged] at twice
    have same : annotated.2.merged = annotated.2 := (congrArg Prod.snd twice).symm
    rw [← hooked_merged, same]
  rw [markup, Markup.parse_written readable, ← Element.resolved_merged, joined,
    Element.resolved_hooked isSource.merged.literals, Params.get?_mergedOver]

/-- A document with two spellings of one color, a paint that is no color, and another color. -/
def banner : Element :=
  ⟨"svg", [.text "height" "1"],
    [.element ⟨"rect", [.text "id" "a", .text "fill" "#f00", .text "stroke" "#ff0000"], []⟩,
      .element ⟨"path", [.text "fill" "#g", .text "stroke" "#00f"], []⟩]⟩

/-- Parameters and defaults that reach it by an id, by a number and by the rank of a color.
The value of `color1` would close its attribute, if it were not escaped. -/
def bannerParams : Params := Params.ofPairs [("#a[fill]", "lime"), ("color1", "\"/><g a=\"")]

def bannerOptions : AssetOptions :=
  { AssetOptions.standard with
    defaults := Params.ofPairs [("color1", "black"), ("colorGroup1", "navy")] }

theorem parse_markup_banner :
    Markup.parse banner.serialize = .ok banner ∧ banner.Plain ∧
      ∃ asset, build .inline bannerOptions banner.serialize = .ok asset ∧
        Markup.parse (asset.markup bannerParams) = .ok ⟨"svg", [.text "height" "1"],
          [.element ⟨"rect", [.text "id" "a", .text "fill" "lime",
              .text "stroke" "\"/><g a=\""], []⟩,
            .element ⟨"path", [.text "fill" "#g", .text "stroke" "navy"], []⟩]⟩ := by
  have parsed : Markup.parse banner.serialize = .ok banner :=
    Markup.parse_serialize_of_apart (by decide +kernel) (by decide)
  have plain : banner.Plain := by decide
  obtain ⟨asset, built, themed⟩ :=
    parse_markup_eq_themedDocument parsed plain .inline bannerOptions
  exact ⟨parsed, plain, asset, built, themed bannerParams⟩

end Asset

end ThemedSvg

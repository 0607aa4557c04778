/-
# The lookups of an asset

The template of an asset has a lookup for each occurrence in its catalog, and two more if
its root gets a size. They stand in the order in which the document is written: first those
of the root's own attributes, then those for its size, and then those of the elements below.
-/

import ThemedSvg.Proofs.Agreement

namespace ThemedSvg

/-! ## Lookups of a tree -/

namespace Segment

/-- Lookups are holes, so text can be left out before they are taken. -/
theorem filterMap_lookup?_filter_isHole (segments : List Segment) :
    (segments.filter isHole).filterMap lookup? = segments.filterMap lookup? := by
  rw [List.filterMap_filter]
  apply List.filterMap_congr
  intro segment _
  cases segment <;> rfl

end Segment

namespace Attribute

/-- The lookup that an attribute holds. -/
def lookup? (slot : Attribute) : Option Lookup := slot.value.segment.lookup?

theorem filterMap_lookup?_eq (slots : List Attribute) :
    slots.filterMap lookup? = (slots.map (·.value.segment)).filterMap Segment.lookup? := by
  rw [List.filterMap_map]
  rfl

theorem filterMap_lookup?_filter_isOpen (slots : List Attribute) :
    (slots.filter isOpen).filterMap lookup? = slots.filterMap lookup? := by
  rw [filterMap_lookup?_eq slots, ← Segment.filterMap_lookup?_filter_isHole, List.filter_map,
    filterMap_lookup?_eq]
  rfl

/-- What is set and was not there stands behind the others. -/
theorem set_of_any_eq_false {name : String} {slots : List Attribute}
    (absent : slots.any (·.name == name) = false) (value : AttributeValue) :
    set name value slots = slots ++ [⟨name, value⟩] := by
  induction slots with
  | nil => rfl
  | cons slot rest ih =>
      rw [List.any_cons, Bool.or_eq_false_iff, beq_eq_false_iff_ne] at absent
      rw [set, if_neg absent.1, ih absent.2, List.cons_append]

end Attribute

theorem filterMap_lookup?_slots (occurrences : List Occurrence) :
    (occurrences.map Occurrence.slot).filterMap Attribute.lookup? =
      occurrences.map Occurrence.lookup := by
  rw [List.filterMap_map, ← List.filterMap_eq_map]
  rfl

/-- Lookups are compiled in the order of the attributes that hold them. -/
theorem Template.lookups_compile (root : Element) :
    (compile root).lookups = root.attributes.filterMap Attribute.lookup? ++
      (root.children.flatMap Node.openSlots).filterMap Attribute.lookup? := by
  rw [lookups, ← Segment.filterMap_lookup?_filter_isHole, filter_isHole_compile,
    ← Attribute.filterMap_lookup?_eq, Element.openSlots_eq, List.filterMap_append,
    Attribute.filterMap_lookup?_filter_isOpen]

/-! ## Hooks -/

namespace Element

/-- The lookups that give a root its size, if nothing else does. -/
def sizeLookups (root : Element) : List Lookup :=
  if root.hasAttribute "height" || root.hasAttribute "width" then []
  else [sizeLookup "height", sizeLookup "width"]

theorem lookups_injectSizeHooks (root : Element) :
    root.injectSizeHooks.attributes.filterMap Attribute.lookup? =
      root.attributes.filterMap Attribute.lookup? ++ root.sizeLookups := by
  rw [injectSizeHooks, sizeLookups]
  split
  · rw [List.append_nil]
  · next unsized =>
      rw [Bool.or_eq_true, not_or, Bool.not_eq_true, Bool.not_eq_true] at unsized
      have absent : (root.setAttribute "height" (.lookup (sizeLookup "height"))).hasAttribute
          "width" = false :=
        (hasAttribute_setAttribute_of_ne (by decide) root _).trans unsized.2
      rw [setAttribute, Attribute.set_of_any_eq_false absent, setAttribute,
        Attribute.set_of_any_eq_false unsized.1, List.append_assoc, List.filterMap_append]
      rfl

/-- The hooks put the lookups for the size behind those of the root. The style is hooked
where there are none, so it can hide none. -/
theorem lookups_hooked {catalog : Catalog} {root : Element}
    (colorless : catalog.isEmpty = true → root.attributes.filterMap Attribute.lookup? = []) :
    (Asset.hooked catalog root).attributes.filterMap Attribute.lookup? =
      root.attributes.filterMap Attribute.lookup? ++ root.sizeLookups := by
  rw [Asset.hooked, lookups_injectSizeHooks]
  split
  · next isEmpty =>
      have none := List.filterMap_eq_nil_iff.mp (colorless isEmpty)
      have styled : root.injectStyleHook.attributes.filterMap Attribute.lookup? = [] :=
        List.filterMap_eq_nil_iff.mpr (Attribute.forall_mem_set none rfl)
      rw [styled, colorless isEmpty, sizeLookups, sizeLookups, injectStyleHook,
        hasAttribute_setAttribute_of_ne (by decide), hasAttribute_setAttribute_of_ne (by decide)]
  · rfl

theorem children_hooked (catalog : Catalog) (root : Element) :
    (Asset.hooked catalog root).children = root.children := by
  rw [Asset.hooked, injectSizeHooks]
  split <;> split <;> rfl

theorem sizeLookups_annotate (root : Element) (catalog : Catalog) (parent : String) :
    (root.annotate catalog parent).2.sizeLookups = root.sizeLookups := by
  rw [sizeLookups, (root.attribute_annotate_eq catalog parent "height" (by decide)).2,
    (root.attribute_annotate_eq catalog parent "width" (by decide)).2, sizeLookups]

end Element

/-! ## Assets -/

namespace Catalog.InStep

variable {catalog : Catalog}

/-- Occurrences are numbered as they stand. -/
theorem map_number (inStep : catalog.InStep) :
    catalog.occurrences.map (·.number) = List.range catalog.occurrences.length := by
  apply List.ext_getElem?
  intro place
  rw [List.getElem?_map]
  cases found : catalog.occurrences[place]? with
  | none =>
      rw [Option.map_none, eq_comm, List.getElem?_eq_none_iff, List.length_range]
      exact List.getElem?_eq_none_iff.mp found
  | some occurrence =>
      rw [List.getElem?_range (List.getElem?_eq_some_iff.mp found).1, Option.map_some,
        (inStep.occurrences place occurrence found).number]

/-- The rank in the keys of an occurrence is that of its color. -/
theorem key_at_rank (inStep : catalog.InStep) {occurrence : Occurrence}
    (member : occurrence ∈ catalog.occurrences) {element : Element} {number rank : Nat}
    (keys : occurrence.keys = element.candidateKeys occurrence.paint number rank) :
    (catalog.entries[rank]?).map (·.key) = some occurrence.color := by
  obtain ⟨element', keys'⟩ := (inStep.numbered member).keys
  rw [inStep.key_at_iff member]
  have own : s!"colorGroup{rank}" ∈ occurrence.keys := by
    rw [keys, Element.mem_candidateKeys_iff (isUnmarked_group rank)]
    exact .inr rfl
  rw [keys', Element.mem_candidateKeys_iff (isUnmarked_group rank)] at own
  rcases own with same | same
  · exact absurd same.symm (number_ne_group _ _)
  · exact counted_inj same

end Catalog.InStep

namespace Asset

/-- The catalog and the template of an asset agree with its document and with each other.
`groups` are the occurrences of one element after the other, `own` and `below` are the same
as they are written: those of the root, and those of the elements below it. -/
structure Agrees (asset : Asset) (root : Element) (groups : List (List Occurrence))
    (own : List Occurrence) (below : List (List Occurrence)) : Prop where
  occurrences : asset.catalog.occurrences = groups.flatten
  numbers : asset.catalog.occurrences.map (·.number) =
    List.range asset.catalog.occurrences.length
  files : List.Forall₂ Lineage.Files (root.lineages []) groups
  ranks : ∀ occurrence ∈ asset.catalog.occurrences, ∀ element number rank,
    occurrence.keys = Element.candidateKeys element occurrence.paint number rank →
      (asset.catalog.entries[rank]?).map (·.key) = some occurrence.color
  turned : List.Forall₂ Turned groups (own :: below)
  lookups : asset.template.lookups =
    own.map Occurrence.lookup ++ root.sizeLookups ++ below.flatten.map Occurrence.lookup
  perm : (own :: below).flatten.Perm asset.catalog.occurrences
  distinct : (asset.catalog.occurrences.map Occurrence.lookup).Nodup

/-- What a template looks up: what the walk leaves open on the root, its size, and what the
walk leaves open below it. -/
theorem lookups_withSprites (source : Source) (options : AssetOptions) {root : Element}
    (colorless : (root.annotate Catalog.empty "").1.isEmpty = true →
      (root.annotate Catalog.empty "").2.attributes.filterMap Attribute.lookup? = [])
    (sprites : List (String × Asset)) :
    (withSprites source options root sprites).template.lookups =
      (root.annotate Catalog.empty "").2.attributes.filterMap Attribute.lookup? ++
        root.sizeLookups ++
        ((root.annotate Catalog.empty "").2.children.flatMap Node.openSlots).filterMap
          Attribute.lookup? := by
  rw [← root.sizeLookups_annotate Catalog.empty "", ← Element.lookups_hooked colorless,
    ← Element.children_hooked (root.annotate Catalog.empty "").1 (root.annotate _ _).2,
    ← Template.lookups_compile]
  rfl

theorem agrees_withSprites (source : Source) (options : AssetOptions) {root : Element}
    (literals : root.Each Element.HasLiterals) (sprites : List (String × Asset)) :
    ∃ groups own below, (withSprites source options root sprites).Agrees root groups own below := by
  have inStep : (root.annotate Catalog.empty "").1.InStep :=
    (root.opensInStep "" Catalog.inStep_empty).1
  obtain ⟨middle, group, own, added, files, turned, isOwn, groups, below, added', files',
    turned', isBelow⟩ := Element.agrees_root (fun child _ => child.agreesInStep) []
      Catalog.inStep_empty literals
  have occurrences : (root.annotate Catalog.empty "").1.occurrences = (group :: groups).flatten :=
    added'.trans (by rw [added, List.flatten_cons]; rfl)
  have perm := perm_flatten (.cons turned turned')
  rw [← occurrences] at perm
  have ownLookups : (root.annotate Catalog.empty "").2.attributes.filterMap Attribute.lookup? =
      own.map Occurrence.lookup := by
    rw [← filterMap_lookup?_slots, ← Attribute.filterMap_lookup?_filter_isOpen]
    exact congrArg _ isOwn
  have belowLookups : ((root.annotate Catalog.empty "").2.children.flatMap
      Node.openSlots).filterMap Attribute.lookup? = below.flatten.map Occurrence.lookup := by
    rw [← filterMap_lookup?_slots]
    exact congrArg _ isBelow
  have colorless (isEmpty : (root.annotate Catalog.empty "").1.isEmpty = true) :
      (root.annotate Catalog.empty "").2.attributes.filterMap Attribute.lookup? = [] := by
    rw [inStep.occurrences_of_isEmpty isEmpty] at perm
    rw [ownLookups, (List.append_eq_nil_iff.mp perm.eq_nil).1, List.map_nil]
  have lookups := lookups_withSprites source options colorless sprites
  rw [ownLookups, belowLookups] at lookups
  exact ⟨group :: groups, own, below, {
    occurrences := occurrences
    numbers := inStep.map_number
    files := root.lineages_eq_cons [] ▸ .cons files files'
    ranks := fun _ member _ _ _ => inStep.key_at_rank member
    turned := .cons turned turned'
    lookups := lookups
    perm := perm
    distinct := inStep.nodup_lookups }⟩

/-- The catalog of every asset that is built lists what its template looks up, element by
element in the order of the document, and the template has nothing else but the size. -/
theorem agrees_of_build {source : Source} {options : AssetOptions} {markup : String}
    {asset : Asset} (built : build source options markup = .ok asset) :
    ∃ root groups own below, Markup.parse markup = .ok root ∧
      asset.Agrees root groups own below := by
  rw [build_eq] at built
  obtain ⟨root, parsed, built⟩ := bind_eq_ok.mp built
  obtain ⟨sprites, _, rfl⟩ := map_eq_ok.mp built
  have literals := (Markup.each_isAccepted_of_parse parsed).imp fun _ here => here.literals
  obtain ⟨groups, own, below, agrees⟩ := agrees_withSprites source options literals sprites
  exact ⟨root, groups, own, below, parsed, agrees⟩

/-- A group that is stroked before it is filled, with a path in it. -/
def brooch : Element :=
  ⟨"svg", [], [.element ⟨"g", [.text "class" "k", .text "stroke" "#f00", .text "fill" "#00f"],
    [.element ⟨"path", [.text "id" "p", .text "fill" "#f00"], []⟩]⟩]⟩

theorem agrees_brooch :
    ∃ asset root groups own below, build .inline .standard brooch.serialize = .ok asset ∧
      Markup.parse brooch.serialize = .ok root ∧ asset.Agrees root groups own below ∧
      asset.catalog.occurrences.map Occurrence.selector =
        ["svg>g.k[fill]", "svg>g.k[stroke]", "svg>g.k>path#p[fill]"] ∧
      asset.template.lookups.map (·.fallback) = ["100%", "100%", "#f00", "#00f", "#f00"] := by
  have parsed : Markup.parse brooch.serialize = .ok brooch :=
    Markup.parse_serialize_of_apart (by decide +kernel) (by decide)
  have built := build_eq_ok_direct .inline .standard (.ofParse parsed (by decide)) parsed
  obtain ⟨root, groups, own, below, isRoot, agrees⟩ := agrees_of_build built
  refine ⟨_, root, groups, own, below, built, isRoot, agrees, ?_, ?_⟩
  · rw [catalog_direct]
    decide +kernel
  · rw [direct_eq]
    decide +kernel

/-- A rectangle in an element without a name. -/
def nameless : Element := ⟨"", [], [.element ⟨"rect", [.text "fill" "#f00"], []⟩]⟩

theorem parse_nameless : Markup.parse "<><rect fill=\"#f00\"/></>" = .ok nameless := by
  let within (children : List Node) : Markup.Progress := ⟨[⟨"", [], children⟩], none⟩
  have bare : Markup.Progress.openElement 0 [] = .ok ⟨"", [], []⟩ := by
    rw [Markup.Progress.openElement, Markup.attributes, Markup.attributesFrom]
    rfl
  have opening : Markup.Reading.Step
      ⟨[], .start, '<' :: '>' :: "<rect fill=\"#f00\"/></>".toList⟩
      ⟨[[]], within [], "<rect fill=\"#f00\"/></>".toList⟩ :=
    .markup (rfl : Markup.takeMarkup 0 _ = .ok (.opening [], 2, _)) rfl
      (Markup.Progress.step_eq_ok_iff.mpr (.opening bare (.inl rfl)))
  have tag : '<' :: (Markup.tagUnder .empty "rect" [.text "fill" "#f00"] ++
      '/' :: '>' :: "</>".toList) = "<rect fill=\"#f00\"/></>".toList := by decide +kernel
  have empty : Markup.Reading.Step ⟨[[]], within [], "<rect fill=\"#f00\"/></>".toList⟩
      ⟨[[]], within nameless.children, "</>".toList⟩ :=
    tag ▸ Markup.step_empty _ (by decide) (by decide) (by decide) rfl _
  have closing : Markup.Reading.Step ⟨[[]], within nameless.children, "</>".toList⟩
      ⟨[], ⟨[], some nameless⟩, []⟩ :=
    .markup (rfl : Markup.takeMarkup 0 "/>".toList = .ok (.closing [], 3, [])) rfl rfl
  rw [Markup.parse_eq_ok_iff]
  exact ⟨[], .head opening (.head empty (.single closing))⟩

/-- An element that says nothing at the start of a path leaves no bracket behind. -/
theorem path_ne_join_nameless :
    ∃ root asset, Markup.parse "<><rect fill=\"#f00\"/></>" = .ok root ∧
      build .inline .standard "<><rect fill=\"#f00\"/></>" = .ok asset ∧
      ∃ occurrence ∈ asset.catalog.occurrences, occurrence.path = "rect" ∧
        ∀ lineage ∈ root.lineages [],
          occurrence.path ≠ String.intercalate ">" (lineage.chain.map Element.label) := by
  have built : build .inline .standard "<><rect fill=\"#f00\"/></>" =
      .ok (withSprites .inline .standard nameless []) := by
    rw [build_eq, parse_nameless, ok_bind]
    rfl
  have filed : ∃ occurrence ∈ (withSprites .inline .standard nameless []).catalog.occurrences,
      occurrence.path = "rect" := by decide +kernel
  obtain ⟨occurrence, member, path⟩ := filed
  refine ⟨nameless, _, parse_nameless, built, occurrence, member, path, ?_⟩
  rw [path]
  intro lineage inside same
  have bare : (nameless.lineages []).all fun lineage =>
      String.intercalate ">" (lineage.chain.map Element.label) != "rect" := by decide +kernel
  exact bne_iff_ne.mp (List.all_eq_true.mp bare lineage inside) same.symm

end Asset

end ThemedSvg

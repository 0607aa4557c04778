/-
# The holes of an asset

A source has nothing but text in its attributes. Filing opens one attribute for each
occurrence, and the hooks open up to three of the root. This module follows the open
attributes through the walk and the hooks to the template, whatever the order in which
they are opened there.
-/

import ThemedSvg.Proofs.Direct
import ThemedSvg.Proofs.Painting
import ThemedSvg.Proofs.Pieces
import ThemedSvg.Proofs.Recording

namespace ThemedSvg

/-- The attribute that an occurrence becomes. -/
def Occurrence.slot (occurrence : Occurrence) : Attribute :=
  ⟨occurrence.paint.name, .lookup occurrence.lookup⟩

/-! ## Opening an attribute -/

/-- Text that can be read is no hole. -/
theorem Attribute.not_isOpen_of_literal? {slot : Attribute}
    (isText : slot.value.literal?.isSome = true) : slot.isOpen = false := by
  obtain ⟨name, value⟩ := slot
  cases value with
  | literal text => rfl
  | lookup l => cases isText
  | style hook => cases isText

/-- A hole that is set in the place of text opens one more attribute. -/
theorem Attribute.filter_isOpen_set {name : String} {value : AttributeValue}
    {slots : List Attribute} (isHole : value.segment.isHole = true)
    (closed : ∀ slot ∈ slots.find? (·.name == name), slot.isOpen = false) :
    ((set name value slots).filter isOpen).Perm (slots.filter isOpen ++ [⟨name, value⟩]) := by
  have opened (name : String) : isOpen ⟨name, value⟩ = true := isHole
  induction slots with
  | nil => simp [set, opened]
  | cons slot rest ih =>
      rw [set]
      by_cases isNamed : slot.name = name
      · have replaced : slot.isOpen = false := closed slot (by simp [isNamed])
        rw [if_pos isNamed, List.filter_cons_of_pos (opened _), isNamed,
          List.filter_cons_of_neg (by simp [replaced])]
        exact (List.perm_append_singleton ..).symm
      · have rest_closed := ih fun other found => closed other (by simpa [isNamed] using found)
        rw [if_neg isNamed, List.filter_cons, List.filter_cons]
        split
        · exact rest_closed.cons slot
        · exact rest_closed

/-- What is opened behind an attribute that is opened is opened with it. -/
theorem Attribute.perm_behind {first second third more : List Attribute} {slot : Attribute}
    (opened : second.Perm (first ++ [slot])) (opened' : third.Perm (second ++ more)) :
    third.Perm (first ++ slot :: more) := by
  rw [← List.singleton_append, ← List.append_assoc]
  exact opened'.trans (opened.append_right more)

namespace Element

theorem openSlots_eq (element : Element) :
    element.openSlots =
      element.attributes.filter Attribute.isOpen ++ element.children.flatMap Node.openSlots := by
  rw [← mk_eta element, openSlots_mk]

theorem openSlots_setAttribute {element : Element} {name : String} {value : AttributeValue}
    (isHole : value.segment.isHole = true)
    (closed : ∀ slot ∈ element.attributes.find? (·.name == name), slot.isOpen = false) :
    (element.setAttribute name value).openSlots.Perm (element.openSlots ++ [⟨name, value⟩]) := by
  rw [openSlots_eq, openSlots_eq, List.append_assoc]
  apply ((Attribute.filter_isOpen_set isHole closed).append_right _).trans
  rw [List.append_assoc]
  exact List.perm_append_comm.append_left _

theorem closed_of_literal? {element : Element} {name text : String}
    (isText : element.literal? name = some text) :
    ∀ slot ∈ element.attributes.find? (·.name == name), slot.isOpen = false := by
  intro slot found
  rw [literal?, Option.mem_def.mp found, Option.bind_some] at isText
  exact Attribute.not_isOpen_of_literal? (Option.isSome_of_eq_some isText)

/-- No attribute is no hole. -/
theorem closed_of_not_hasAttribute {element : Element} {name : String}
    (absent : element.hasAttribute name = false) :
    ∀ slot ∈ element.attributes.find? (·.name == name), slot.isOpen = false := by
  rw [find?_eq_none_iff.mpr absent]
  exact fun _ found => nomatch found

/-- A document without holes has no open attributes. -/
theorem Each.openSlots_eq_nil {root : Element} (literals : root.Each HasLiterals) :
    root.openSlots = [] := by
  rw [openSlots, List.filter_eq_nil_iff]
  intro slot member
  obtain ⟨element, inside, own⟩ := List.mem_flatMap.mp member
  rw [Attribute.not_isOpen_of_literal? (literals element inside slot own)]
  exact Bool.false_ne_true

end Element

/-! ## Filing -/

namespace Catalog

/-- From one catalog to the other, some occurrences were added, and for each of them an
attribute was opened. -/
def Opens (catalog catalog' : Catalog) (slots slots' : List Attribute) : Prop :=
  ∃ new, catalog'.occurrences = catalog.occurrences ++ new ∧
    slots'.Perm (slots ++ new.map Occurrence.slot)

section

variable {first second third : Catalog} {slots slots' slots'' more more' : List Attribute}

theorem Opens.refl (catalog : Catalog) (slots : List Attribute) :
    catalog.Opens catalog slots slots :=
  ⟨[], (List.append_nil _).symm, by rw [List.map_nil, List.append_nil]⟩

theorem Opens.trans (opens : first.Opens second slots slots')
    (opens' : second.Opens third slots' slots'') : first.Opens third slots slots'' := by
  obtain ⟨new, added, opened⟩ := opens
  obtain ⟨new', added', opened'⟩ := opens'
  refine ⟨new ++ new', by rw [added', added, List.append_assoc], ?_⟩
  rw [List.map_append, ← List.append_assoc]
  exact opened'.trans (opened.append_right _)

/-- What is opened in one place and then in another is opened in both together. -/
theorem Opens.append (opens : first.Opens second slots slots')
    (opens' : second.Opens third more more') :
    first.Opens third (slots ++ more) (slots' ++ more') := by
  obtain ⟨new, added, opened⟩ := opens
  obtain ⟨new', added', opened'⟩ := opens'
  refine ⟨new ++ new', by rw [added', added, List.append_assoc], ?_⟩
  apply (opened.append opened').trans
  rw [List.map_append, List.append_assoc, List.append_assoc, ← List.append_assoc _ more,
    ← List.append_assoc more]
  exact (List.perm_append_comm.append_right _).append_left _

end

variable {catalog : Catalog}

/-- Filing one paint opens it, if it is a color. -/
theorem InStep.opens_recordPaint (inStep : catalog.InStep) (path : String) (element : Element)
    (paint : Paint) :
    catalog.Opens (Catalog.recordPaint path (catalog, element) paint).1
      (element.attributes.filter Attribute.isOpen)
      ((Catalog.recordPaint path (catalog, element) paint).2.attributes.filter
        Attribute.isOpen) := by
  cases isPaint : element.paint? paint with
  | none =>
      rw [recordPaint_of_none isPaint]
      exact .refl ..
  | some color =>
      obtain ⟨spelling, spelled, isColor⟩ := Option.bind_eq_some_iff.mp isPaint
      obtain ⟨entry, _, _, recorded⟩ := recordPaint_of_some inStep.lists spelled isColor path
      rw [recorded]
      refine ⟨[_], by rw [add, occurrences_intern], ?_⟩
      exact Attribute.filter_isOpen_set rfl (Element.closed_of_literal? spelled)

theorem InStep.opens_record (inStep : catalog.InStep) (element : Element) (path : String) :
    catalog.Opens (catalog.record element path).1 (element.attributes.filter Attribute.isOpen)
      ((catalog.record element path).2.attributes.filter Attribute.isOpen) :=
  (inStep.opens_recordPaint path element .fill).trans
    ((inStep.recordPaint path element .fill).opens_recordPaint path _ .stroke)

end Catalog

/-- The walk over an element keeps its catalog in step, and opens an attribute of the
element or of one below it for each occurrence that it adds. -/
def Element.OpensInStep (root : Element) : Prop :=
  ∀ {catalog : Catalog} (parent : String), catalog.InStep →
    (root.annotate catalog parent).1.InStep ∧
      catalog.Opens (root.annotate catalog parent).1 root.openSlots
        (root.annotate catalog parent).2.openSlots

namespace Node

variable {catalog : Catalog}

theorem opensInStep {node : Node} (inside : ∀ child, node = .element child → child.OpensInStep)
    (path : String) (inStep : catalog.InStep) :
    (node.annotate catalog path).1.InStep ∧
      catalog.Opens (node.annotate catalog path).1 node.openSlots
        (node.annotate catalog path).2.openSlots := by
  cases node with
  | element child => exact inside child rfl path inStep
  | text content => exact ⟨inStep, .refl ..⟩
  | cdata content => exact ⟨inStep, .refl ..⟩
  | comment content => exact ⟨inStep, .refl ..⟩

theorem opensInStep_all {children : List Node}
    (inside : ∀ child, Node.element child ∈ children → child.OpensInStep) (path : String)
    (inStep : catalog.InStep) :
    (annotateAll catalog path children).1.InStep ∧
      catalog.Opens (annotateAll catalog path children).1 (children.flatMap openSlots)
        ((annotateAll catalog path children).2.flatMap openSlots) := by
  induction children generalizing catalog with
  | nil => exact ⟨inStep, .refl ..⟩
  | cons child rest ih =>
      obtain ⟨inStep', opens⟩ := opensInStep
        (fun source same => inside source (same ▸ List.mem_cons_self)) path inStep
      obtain ⟨inStepAll, opensAll⟩ :=
        ih (fun source member => inside source (List.mem_cons_of_mem _ member)) inStep'
      rw [annotateAll_cons, List.flatMap_cons, List.flatMap_cons]
      exact ⟨inStepAll, opens.append opensAll⟩

end Node

theorem Element.opensInStep (root : Element) : root.OpensInStep := by
  induction root with
  | element name attributes children ih =>
      intro catalog parent inStep
      have head := inStep.opens_record ⟨name, attributes, []⟩
        (pathBelow parent ⟨name, attributes, []⟩)
      obtain ⟨inStepAll, below⟩ := Node.opensInStep_all ih
        (pathBelow parent ⟨name, attributes, []⟩) (inStep.record ⟨name, attributes, []⟩ _)
      rw [annotate_mk]
      refine ⟨inStepAll, ?_⟩
      dsimp only
      rw [openSlots_mk, openSlots_eq]
      exact head.append below

/-! ## Hooks -/

/-- The attributes that hooks put on a root. -/
inductive Attribute.IsHook : Attribute → Prop
  | size (dimension : String) : IsHook ⟨dimension, .lookup (Element.sizeLookup dimension)⟩
  | style (base : Option String) :
      IsHook ⟨"style", .style (StyleHook.on base ["fill", "stroke"])⟩

namespace Element

theorem openSlots_injectSizeHooks (root : Element) :
    ∃ hooks : List Attribute, (∀ slot ∈ hooks, slot.IsHook) ∧
      root.injectSizeHooks.openSlots.Perm (root.openSlots ++ hooks) := by
  unfold injectSizeHooks
  split
  · exact ⟨[], List.forall_mem_nil _, by rw [List.append_nil]⟩
  · next unsized =>
      rw [Bool.or_eq_true, not_or, Bool.not_eq_true, Bool.not_eq_true] at unsized
      let sized := root.setAttribute "height" (.lookup (sizeLookup "height"))
      have height : sized.openSlots.Perm
          (root.openSlots ++ [⟨"height", .lookup (sizeLookup "height")⟩]) :=
        openSlots_setAttribute rfl (closed_of_not_hasAttribute unsized.1)
      have absent : sized.hasAttribute "width" = false :=
        (hasAttribute_setAttribute_of_ne (by decide) root _).trans unsized.2
      refine ⟨_, ?_, Attribute.perm_behind height
        (openSlots_setAttribute rfl (closed_of_not_hasAttribute absent))⟩
      exact List.forall_mem_cons.mpr ⟨.size _, List.forall_mem_singleton.mpr (.size _)⟩

/-- The hooks open attributes of the root, and close none. -/
theorem openSlots_hooked {catalog : Catalog} {root : Element}
    (colorless : catalog.isEmpty = true → root.openSlots = []) :
    ∃ hooks : List Attribute, (∀ slot ∈ hooks, slot.IsHook) ∧
      (Asset.hooked catalog root).openSlots.Perm (root.openSlots ++ hooks) := by
  rw [Asset.hooked]
  split
  · next isEmpty =>
      have closed : ∀ slot ∈ root.attributes.find? (·.name == "style"), slot.isOpen = false := by
        intro slot found
        have none := colorless isEmpty
        rw [openSlots_eq, List.append_eq_nil_iff, List.filter_eq_nil_iff] at none
        exact Bool.not_eq_true _ ▸ none.1 slot (List.mem_of_find?_eq_some found)
      obtain ⟨hooks, areHooks, sized⟩ := openSlots_injectSizeHooks root.injectStyleHook
      exact ⟨_, List.forall_mem_cons.mpr ⟨.style _, areHooks⟩,
        Attribute.perm_behind (openSlots_setAttribute rfl closed) sized⟩
  · exact openSlots_injectSizeHooks root

end Element

/-! ## Assets -/

theorem Catalog.InStep.occurrences_of_isEmpty {catalog : Catalog} (inStep : catalog.InStep)
    (isEmpty : catalog.isEmpty = true) : catalog.occurrences = [] := by
  have files : catalog.Files catalog.colors := ⟨inStep.lists, (List.length_map ..).symm⟩
  exact List.map_eq_nil_iff.mp (files.isEmpty_iff.mp isEmpty)

namespace Asset

/-- What is left open in the template of an asset: one attribute for each occurrence, and
those of the hooks. -/
structure LeavesOpen (asset : Asset) (tree : Element) (hooks : List Attribute) : Prop where
  template : asset.template = Template.compile tree
  slots : tree.openSlots.Perm (asset.catalog.occurrences.map Occurrence.slot ++ hooks)
  hooks : ∀ slot ∈ hooks, slot.IsHook

/-- The walk over a document without holes, with the hooks behind it. -/
theorem leavesOpen_withSprites (source : Source) (options : AssetOptions) {root : Element}
    (literals : root.Each Element.HasLiterals) (sprites : List (String × Asset)) :
    (withSprites source options root sprites).catalog.InStep ∧
      ∃ tree hooks, (withSprites source options root sprites).LeavesOpen tree hooks := by
  obtain ⟨inStep, new, occurrences, opened⟩ :=
    Element.opensInStep root "" Catalog.inStep_empty
  have occurrences : (root.annotate Catalog.empty "").1.occurrences = new := occurrences
  rw [literals.openSlots_eq_nil, List.nil_append, ← occurrences] at opened
  have colorless (isEmpty : (root.annotate Catalog.empty "").1.isEmpty = true) :
      (root.annotate Catalog.empty "").2.openSlots = [] := by
    rw [inStep.occurrences_of_isEmpty isEmpty] at opened
    exact opened.eq_nil
  obtain ⟨hooks, areHooks, hooked⟩ := Element.openSlots_hooked colorless
  exact ⟨inStep, _, hooks, rfl, hooked.trans (opened.append_right _), areHooks⟩

/-- Whatever markup an asset was built from, its catalog is in step, and its template is
open where the catalog says. -/
theorem leavesOpen_of_build {source : Source} {options : AssetOptions} {markup : String}
    {asset : Asset} (built : build source options markup = .ok asset) :
    asset.options = options ∧ asset.catalog.InStep ∧
      ∃ tree hooks, asset.LeavesOpen tree hooks := by
  rw [build_eq] at built
  obtain ⟨root, parsed, built⟩ := bind_eq_ok.mp built
  obtain ⟨sprites, _, rfl⟩ := map_eq_ok.mp built
  have literals := (Markup.each_isAccepted_of_parse parsed).imp fun _ here => here.literals
  exact ⟨rfl, leavesOpen_withSprites source options literals sprites⟩

end Asset

end ThemedSvg

/-
# Sprites weigh less than their sheets

The markup of a sprite has the symbol under a shorter name, and at most the root's
attributes besides. Both are on the sheet, so building sprites from markup, and
sprites from those, comes to an end whatever the markup is parsed to.
-/

import ThemedSvg.Proofs.Weight

namespace ThemedSvg

open Markup

/-- The weight of written attributes. -/
def Attribute.weightAll (slots : List Attribute) : Nat :=
  weight (slots.flatMap (Attribute.written Params.empty))

theorem Attribute.weightAll_cons (slot : Attribute) (rest : List Attribute) :
    weightAll (slot :: rest) = weight (slot.written Params.empty) + weightAll rest := by
  rw [weightAll, List.flatMap_cons, weight_append, ← weightAll]

theorem Attribute.weightAll_append (first second : List Attribute) :
    weightAll (first ++ second) = weightAll first + weightAll second := by
  rw [weightAll, List.flatMap_append, weight_append, ← weightAll, ← weightAll]

theorem Attribute.weightAll_le_of_sublist {few slots : List Attribute}
    (part : few.Sublist slots) : weightAll few ≤ weightAll slots := by
  induction part with
  | slnil => exact Nat.le_refl _
  | cons slot _ ih =>
      rw [weightAll_cons]
      omega
  | cons_cons slot _ ih =>
      rw [weightAll_cons, weightAll_cons]
      omega

/-- Putting a lighter text in place of another adds no weight. -/
theorem Attribute.weightAll_set_le {name old new : String} {slots : List Attribute}
    (found : (slots.find? (·.name == name)).bind (·.value.literal?) = some old)
    (lighter : weight (escape new.toList) ≤ weight (escape old.toList)) :
    weightAll (set name (.literal new) slots) ≤ weightAll slots := by
  induction slots with
  | nil => cases found
  | cons slot rest ih =>
      rw [set]
      by_cases isNamed : slot.name = name
      · rw [List.find?_cons_of_pos (by simpa using isNamed), Option.bind_some] at found
        rw [if_pos isNamed, weightAll_cons, weightAll_cons, weight_written, weight_written]
        cases value : slot.value with
        | literal text =>
            rw [value] at found
            cases found
            simp only [AttributeValue.textUnder]
            omega
        | lookup l =>
            rw [value] at found
            cases found
        | style hook =>
            rw [value] at found
            cases found
      · rw [List.find?_cons_of_neg (by simpa using isNamed)] at found
        rw [if_neg isNamed, weightAll_cons, weightAll_cons]
        have := ih found
        omega

theorem weight_escape_le_of_sublist {few text : List Char} (part : few.Sublist text) :
    weight (escape few) ≤ weight (escape text) := by
  induction part with
  | slnil => exact Nat.le_refl _
  | cons c _ ih =>
      rw [escape_cons, weight_append]
      omega
  | cons_cons c _ ih =>
      rw [escape_cons, escape_cons, weight_append, weight_append]
      omega

namespace Sprite

theorem withoutHidden_sublist (style : List Char) : (withoutHidden style).Sublist style := by
  induction style with
  | nil => exact List.Sublist.slnil
  | cons c rest ih =>
      unfold withoutHidden
      dsimp only
      split
      · exact List.dropWhile_sublist _
      · exact ih.cons_cons c

/-- An element is shown by taking a part of its style away, or all of it. -/
theorem shown_cases (element : Element) :
    shown element = element ∨
      shown element =
        { element with attributes := element.attributes.filter (·.name != "style") } ∨
      ∃ style, element.literal? "style" = some style ∧
        shown element = element.setAttribute "style"
          (.literal (String.ofList (withoutHidden style.toList))) := by
  rw [shown]
  cases found : element.literal? "style" with
  | none => exact .inl rfl
  | some style =>
      dsimp only
      by_cases nothing : saysNothing (withoutHidden style.toList) = true
      · exact .inr (.inl (if_pos nothing))
      · exact .inr (.inr ⟨style, rfl, if_neg nothing⟩)

theorem weightAll_shown_le (element : Element) :
    Attribute.weightAll (shown element).attributes ≤ Attribute.weightAll element.attributes := by
  rcases shown_cases element with same | same | ⟨style, found, same⟩
  · exact Nat.le_of_eq (by rw [same])
  · rw [same]
    exact Attribute.weightAll_le_of_sublist List.filter_sublist
  · rw [same]
    apply Attribute.weightAll_set_le found
    rw [String.toList_ofList]
    exact weight_escape_le_of_sublist (withoutHidden_sublist _)

/-- What showing leaves alone. -/
theorem shown_eq (element : Element) :
    (shown element).name = element.name ∧ (shown element).children = element.children := by
  rcases shown_cases element with same | same | ⟨style, _, same⟩
  · rw [same]
    exact ⟨rfl, rfl⟩
  · rw [same]
    exact ⟨rfl, rfl⟩
  · rw [same]
    exact ⟨rfl, rfl⟩

/-- An element inherits an attribute that it does not have, or nothing. -/
theorem inherit_cases (element : Element) (entry : String × String) :
    inherit element entry = element ∨
      element.hasAttribute entry.1 = false ∧
        inherit element entry = { element with
          attributes := element.attributes ++ [Attribute.text entry.1 entry.2] } := by
  by_cases skipped :
      (entry.1 = "" || entry.2 = "" || element.hasAttribute entry.1) = true
  · exact .inl (if_pos skipped)
  · refine .inr ⟨?_, if_neg skipped⟩
    rw [Bool.or_eq_true, not_or] at skipped
    exact eq_false_of_ne_true skipped.2

/-- What inheriting leaves alone. -/
theorem foldl_inherit_eq (entries : AttributeMap) (element : Element) :
    (entries.foldl inherit element).name = element.name ∧
      (entries.foldl inherit element).children = element.children := by
  induction entries generalizing element with
  | nil => exact ⟨rfl, rfl⟩
  | cons entry rest ih =>
      obtain ⟨name, children⟩ := ih (inherit element entry)
      rcases inherit_cases element entry with same | ⟨_, same⟩
      · rw [same] at name children
        rw [List.foldl_cons, same]
        exact ⟨name, children⟩
      · rw [same] at name children
        rw [List.foldl_cons, same]
        exact ⟨name, children⟩

theorem weightAll_inherit_le (entries : AttributeMap) (element : Element) :
    Attribute.weightAll (entries.foldl inherit element).attributes ≤
      Attribute.weightAll element.attributes +
        Attribute.weightAll (entries.map fun entry => Attribute.text entry.1 entry.2) := by
  induction entries generalizing element with
  | nil => exact Nat.le_add_right _ _
  | cons entry rest ih =>
      have step : Attribute.weightAll (inherit element entry).attributes ≤
          Attribute.weightAll element.attributes +
            weight ((Attribute.text entry.1 entry.2).written Params.empty) := by
        rcases inherit_cases element entry with same | ⟨_, same⟩
        · rw [same]
          exact Nat.le_add_right _ _
        · rw [same, Attribute.weightAll_append, Attribute.weightAll_cons]
          exact Nat.le_refl _
      have := ih (inherit element entry)
      rw [List.foldl_cons, List.map_cons, Attribute.weightAll_cons]
      omega

/-- An element inherits nothing from itself. -/
theorem foldl_inherit_of_has {entries : AttributeMap} {element : Element}
    (has : ∀ entry ∈ entries, element.hasAttribute entry.1 = true) :
    entries.foldl inherit element = element := by
  induction entries with
  | nil => rfl
  | cons entry rest ih =>
      rw [List.forall_mem_cons] at has
      rcases inherit_cases element entry with same | ⟨absent, _⟩
      · rw [List.foldl_cons, same]
        exact ih has.2
      · rw [has.1] at absent
        cases absent

end Sprite

namespace Element

theorem hasAttribute_of_mem_attributeMap {root : Element} {entry : String × String}
    (member : entry ∈ root.attributeMap) : root.hasAttribute entry.1 = true := by
  obtain ⟨slot, inside, isEntry⟩ := List.mem_filterMap.mp member
  obtain ⟨text, _, rfl⟩ := Option.map_eq_some_iff.mp isEntry
  exact List.any_eq_true.mpr ⟨slot, inside, by simp⟩

theorem weight_tagUnder (name : String) (attributes : List Attribute) :
    weight (tagUnder Params.empty name attributes) =
      weight name.toList + Attribute.weightAll attributes := by
  rw [tagUnder, weight_append, Attribute.weightAll]

/-- What can be inherited from a root weighs no more than its attributes. -/
theorem weightAll_attributeMap_le (root : Element) :
    Attribute.weightAll (root.attributeMap.map fun entry => Attribute.text entry.1 entry.2) ≤
      Attribute.weightAll root.attributes := by
  unfold attributeMap
  induction root.attributes with
  | nil => exact Nat.le_refl _
  | cons slot rest ih =>
      rw [List.filterMap_cons, Attribute.weightAll_cons]
      cases value : slot.value with
      | literal text =>
          have same : slot = Attribute.text slot.name text := by
            cases slot
            cases value
            rfl
          simp only [Attribute.entry?, value, AttributeValue.literal?, Option.map_some,
            List.map_cons]
          rw [Attribute.weightAll_cons, ← same]
          omega
      | lookup l =>
          simp only [Attribute.entry?, value, AttributeValue.literal?, Option.map_none]
          omega
      | style hook =>
          simp only [Attribute.entry?, value, AttributeValue.literal?, Option.map_none]
          omega

/-- An element weighs at least what its attributes and one of its children do. -/
theorem le_weight_of_child (name : String) (attributes : List Attribute)
    {children : List Node} {child : Node} (member : child ∈ children) :
    Attribute.weightAll attributes + weight (child.written Params.empty) ≤
      weight ((Element.mk name attributes children).written Params.empty) := by
  have inside : weight (child.written Params.empty) ≤
      weight (children.flatMap (Node.written Params.empty)) := by
    obtain ⟨before, after, rfl⟩ := List.append_of_mem member
    simp only [List.flatMap_append, List.flatMap_cons, weight_append]
    omega
  rw [weight_element, if_neg (List.ne_nil_of_mem member), weight_tagUnder]
  omega

/-- An element weighs at least what any element in it does. -/
theorem weight_le_of_mem_elements {root inner : Element} (member : inner ∈ root.elements) :
    weight (inner.written Params.empty) ≤ weight (root.written Params.empty) := by
  induction root with
  | element name attributes children ih =>
      rcases mem_elements_mk.mp member with rfl | ⟨child, isChild, inside⟩
      · exact Nat.le_refl _
      · have below := ih child isChild inside
        have := le_weight_of_child name attributes isChild
        rw [Node.written] at this
        omega

end Element

namespace Sprite

/-- The shorter name makes up for all that is inherited. -/
theorem weight_renamed_lt {attributes slots : List Attribute} {inherited : Nat}
    (light : Attribute.weightAll slots ≤ Attribute.weightAll attributes + inherited)
    (children : List Node) :
    weight ((Element.mk "svg" slots children).written Params.empty) <
      weight ((Element.mk tag attributes children).written Params.empty) + inherited := by
  have shorter : weight "svg".toList = 3 ∧ weight tag.toList = 6 := by decide
  rw [weight_element, weight_element, Element.weight_tagUnder, Element.weight_tagUnder]
  split <;> omega

theorem standalone_eq (symbol : Element) (entries : AttributeMap) :
    standalone symbol entries =
      ⟨"svg", (standalone symbol entries).attributes, symbol.children⟩ := by
  have name : (standalone symbol entries).name = "svg" := by
    rw [standalone, (shown_eq _).1, (foldl_inherit_eq _ _).1]
  have children : (standalone symbol entries).children = symbol.children := by
    rw [standalone, (shown_eq _).2, (foldl_inherit_eq _ _).2]
  rw [← name, ← children, Element.mk_eta]

theorem weightAll_standalone_le (symbol : Element) (entries : AttributeMap) :
    Attribute.weightAll (standalone symbol entries).attributes ≤
      Attribute.weightAll symbol.attributes +
        Attribute.weightAll (entries.map fun entry => Attribute.text entry.1 entry.2) :=
  Nat.le_trans (weightAll_shown_le _) (weightAll_inherit_le entries { symbol with name := "svg" })

/-- A root that is a symbol has all that it could inherit. -/
theorem weightAll_standalone_self_le (root : Element) :
    Attribute.weightAll (standalone root root.attributeMap).attributes ≤
      Attribute.weightAll root.attributes := by
  have unchanged : root.attributeMap.foldl inherit { root with name := "svg" } =
      { root with name := "svg" } :=
    foldl_inherit_of_has fun entry member => Element.hasAttribute_of_mem_attributeMap member
  have light := weightAll_shown_le (root.attributeMap.foldl inherit { root with name := "svg" })
  rw [unchanged] at light
  rw [standalone, unchanged]
  exact light

theorem weight_symbol_eq {symbol : Element} (isSymbol : symbol.name = tag) :
    weight (symbol.written Params.empty) =
      weight ((Element.mk tag symbol.attributes symbol.children).written Params.empty) := by
  rw [← isSymbol, Element.mk_eta]

/-- The document of a sprite weighs less than that of its sheet. -/
theorem weight_standalone_lt {root symbol : Element} (member : symbol ∈ root.symbols) :
    weight ((standalone symbol root.attributeMap).written Params.empty) <
      weight (root.written Params.empty) := by
  have isSymbol := weight_symbol_eq (Element.name_of_mem_symbols member)
  rw [standalone_eq]
  obtain ⟨name, attributes, children⟩ := root
  rcases Element.mem_elements_mk.mp (Element.mem_elements_of_mem_symbols member) with
    rfl | ⟨child, isChild, inside⟩
  · have light := weightAll_standalone_self_le ⟨name, attributes, children⟩
    rw [isSymbol]
    exact weight_renamed_lt (Nat.le_trans light (Nat.le_add_right _ 0)) children
  · -- what is inherited from the root stands on the sheet outside the symbol
    have lighter := weight_renamed_lt (weightAll_standalone_le symbol
      (Element.mk name attributes children).attributeMap) symbol.children
    have onRoot := Element.weightAll_attributeMap_le ⟨name, attributes, children⟩
    have inChild := Element.weight_le_of_mem_elements inside
    have outside := Element.le_weight_of_child name attributes isChild
    rw [Node.written] at outside
    dsimp only at onRoot
    omega

/-- So its markup weighs less than the markup that the sheet was parsed from. -/
theorem weight_serialize_lt {markup : String} {root symbol : Element}
    (parsed : parse markup = .ok root) (member : symbol ∈ root.symbols) :
    weight (standalone symbol root.attributeMap).serialize.toList < weight markup.toList := by
  rw [Element.toList_serialize]
  exact Nat.lt_of_lt_of_le (weight_standalone_lt member) (weight_parse_le parsed)

end Sprite

end ThemedSvg

/-
# Joining texts

Texts that stand side by side are written as one, and one is what is read. This module
joins them in the tree. Nothing else about a tree changes, least of all its markup.
-/

import ThemedSvg.Proofs.Readable
import ThemedSvg.Proofs.Writing

namespace ThemedSvg

/-- Puts a node in front of others. A text in front of a text makes one text with it. -/
def Node.joinText : Node → List Node → List Node
  | .text first, .text second :: rest => .text (first ++ second) :: rest
  | node, rest => node :: rest

mutual

/-- A tree with texts that stand side by side joined. -/
def Element.merged : Element → Element
  | ⟨name, attributes, children⟩ => ⟨name, attributes, Node.mergedAll children⟩

def Node.merged : Node → Node
  | .element e => .element e.merged
  | node => node

def Node.mergedAll : List Node → List Node
  | [] => []
  | child :: rest => Node.joinText child.merged (Node.mergedAll rest)

end

namespace Node

/-- Joining takes two texts for one, or changes nothing. -/
theorem joinText_cases (node : Node) (rest : List Node) :
    (∃ first second tail, node = .text first ∧ rest = .text second :: tail ∧
        joinText node rest = .text (first ++ second) :: tail) ∨
      (joinText node rest = node :: rest ∧ ∀ next ∈ rest.head?, IsApart node next) := by
  cases node with
  | text first =>
      cases rest with
      | nil => exact .inr ⟨rfl, by simp⟩
      | cons next tail =>
          cases next with
          | text second => exact .inl ⟨first, second, tail, rfl, rfl, rfl⟩
          | element child => exact .inr ⟨rfl, by simp [IsApart, text?]⟩
          | cdata content => exact .inr ⟨rfl, by simp [IsApart, text?]⟩
          | comment content => exact .inr ⟨rfl, by simp [IsApart, text?]⟩
  | element child => exact .inr ⟨by cases rest <;> rfl, fun _ _ => .inl rfl⟩
  | cdata content => exact .inr ⟨by cases rest <;> rfl, fun _ _ => .inl rfl⟩
  | comment content => exact .inr ⟨by cases rest <;> rfl, fun _ _ => .inl rfl⟩

/-- Joining leaves elements where they are. -/
theorem mem_joinText_element {child : Element} {node : Node} {rest : List Node} :
    Node.element child ∈ joinText node rest ↔ Node.element child ∈ node :: rest := by
  rcases joinText_cases node rest with ⟨first, second, tail, rfl, rfl, joined⟩ | ⟨joined, _⟩
  · rw [joined]
    simp
  · rw [joined]

/-- The elements in joined children are those in the children. -/
theorem mem_mergedAll_element {child : Element} {children : List Node} :
    Node.element child ∈ mergedAll children ↔
      ∃ source, Node.element source ∈ children ∧ source.merged = child := by
  induction children with
  | nil => simp [mergedAll]
  | cons node rest ih =>
      rw [mergedAll, mem_joinText_element, List.mem_cons, ih]
      cases node with
      | element source =>
          simp only [merged, element.injEq, List.mem_cons]
          constructor
          · rintro (rfl | ⟨source', member, rfl⟩)
            · exact ⟨source, .inl rfl, rfl⟩
            · exact ⟨source', .inr member, rfl⟩
          · rintro ⟨source', rfl | member, rfl⟩
            · exact .inl rfl
            · exact .inr ⟨source', member, rfl⟩
      | text content => simp [merged]
      | cdata content => simp [merged]
      | comment content => simp [merged]

/-- What holds of elements, and of texts once they are joined, holds of joined nodes. -/
theorem forall_mem_joinText {Holds : Node → Prop}
    (join : ∀ first second, Holds (.text first) → Holds (.text second) →
      Holds (.text (first ++ second)))
    {node : Node} {rest : List Node} (all : ∀ n ∈ node :: rest, Holds n) :
    ∀ n ∈ joinText node rest, Holds n := by
  rcases joinText_cases node rest with ⟨first, second, tail, rfl, rfl, joined⟩ | ⟨joined, _⟩
  · rw [joined]
    simp only [List.mem_cons, forall_eq_or_imp] at all ⊢
    exact ⟨join first second all.1 all.2.1, all.2.2⟩
  · rw [joined]
    exact all

theorem isSound_join (first second : String) (sound : IsSound (.text first))
    (sound' : IsSound (.text second)) : IsSound (.text (first ++ second)) := by
  constructor
  · intro empty
    exact sound.1 (String.append_eq_empty_iff.mp empty).1
  · rw [String.toList_append, List.mem_append, not_or]
    exact ⟨sound.2, sound'.2⟩

/-- A node that is joined to texts that stand apart leaves them apart. -/
theorem isChain_joinText {node : Node} {rest : List Node} (apart : rest.IsChain IsApart) :
    (joinText node rest).IsChain IsApart := by
  rcases joinText_cases node rest with ⟨first, second, tail, rfl, rfl, joined⟩ | ⟨joined, ends⟩
  · rw [joined]
    rw [List.isChain_cons] at apart ⊢
    exact ⟨fun next member => (apart.1 next member).imp (fun isNone => by cases isNone) id,
      apart.2⟩
  · rw [joined, List.isChain_cons]
    exact ⟨ends, apart⟩

section

variable {α : Type} {read read' : Node → List α}
  (texts : ∀ first second, read (.text (first ++ second)) =
    read (.text first) ++ read (.text second))

include texts

/-- What is read off texts piece by piece is read off joined nodes just the same. -/
theorem flatMap_joinText (node : Node) (rest : List Node) :
    (joinText node rest).flatMap read = (node :: rest).flatMap read := by
  rcases joinText_cases node rest with ⟨first, second, tail, rfl, rfl, joined⟩ | ⟨joined, _⟩
  · rw [joined, List.flatMap_cons, List.flatMap_cons, List.flatMap_cons, texts,
      List.append_assoc]
  · rw [joined]

theorem flatMap_mergedAll {children : List Node}
    (below : ∀ child ∈ children, read child.merged = read' child) :
    (mergedAll children).flatMap read = children.flatMap read' := by
  induction children with
  | nil => rfl
  | cons child rest ih =>
      rw [List.forall_mem_cons] at below
      rw [mergedAll, flatMap_joinText texts, List.flatMap_cons, List.flatMap_cons, below.1,
        ih below.2]

end

theorem joinText_ne_nil (node : Node) (rest : List Node) : joinText node rest ≠ [] := by
  rcases joinText_cases node rest with ⟨first, second, tail, rfl, rfl, joined⟩ | ⟨joined, _⟩
  · rw [joined]
    exact List.cons_ne_nil _ _
  · rw [joined]
    exact List.cons_ne_nil _ _

/-- A node that stands apart is put in front as it is. -/
theorem joinText_of_isApart {node : Node} {rest : List Node}
    (apart : ∀ next ∈ rest.head?, IsApart node next) : joinText node rest = node :: rest := by
  rcases joinText_cases node rest with ⟨first, second, tail, rfl, rfl, joined⟩ | ⟨joined, _⟩
  · rcases apart _ rfl with isNone | isNone <;> cases isNone
  · exact joined

/-- Filling the holes of nodes does not touch what is joined. -/
theorem resolved_joinText (params : Params) (node : Node) (rest : List Node) :
    (joinText node rest).map (resolved params) =
      joinText (node.resolved params) (rest.map (resolved params)) := by
  cases node with
  | text first =>
      cases rest with
      | nil => rfl
      | cons next tail => cases next <;> rfl
  | element child => cases rest <;> rfl
  | cdata content => cases rest <;> rfl
  | comment content => cases rest <;> rfl

end Node

namespace Element

@[simp]
theorem merged_name (root : Element) : root.merged.name = root.name := by
  cases root
  rw [merged]

@[simp]
theorem merged_attributes (root : Element) : root.merged.attributes = root.attributes := by
  cases root
  rw [merged]

@[simp]
theorem merged_children (root : Element) :
    root.merged.children = Node.mergedAll root.children := by
  cases root
  rw [merged]

/-- What passes from an element to itself with its texts joined passes to the tree. -/
theorem each_merged {Holds Holds' : Element → Prop}
    (keep : ∀ element, Holds element → Holds' element.merged) {root : Element}
    (each : root.Each Holds) : root.merged.Each Holds' := by
  induction root with
  | element name attributes children ih =>
      obtain ⟨here, below⟩ := each_mk.mp each
      have kept := keep _ here
      rw [merged] at kept ⊢
      refine each_mk.mpr ⟨kept, ?_⟩
      intro child member
      obtain ⟨source, isChild, rfl⟩ := Node.mem_mergedAll_element.mp member
      exact ih source isChild (below source isChild)

theorem hasPlainNames_merged (element : Element) (names : element.HasPlainNames) :
    element.merged.HasPlainNames := by
  rw [HasPlainNames, merged_name, merged_attributes]
  exact names

theorem hasDistinctNames_merged (element : Element) (distinct : element.HasDistinctNames) :
    element.merged.HasDistinctNames := by
  rw [HasDistinctNames, merged_attributes]
  exact distinct

theorem hasLiterals_merged (element : Element) (literals : element.HasLiterals) :
    element.merged.HasLiterals := by
  rw [HasLiterals, merged_attributes]
  exact literals

theorem isSound_merged (node : Node) (sound : node.IsSound) : node.merged.IsSound := by
  cases node with
  | element child => trivial
  | text content => exact sound
  | cdata content => exact sound
  | comment content => exact sound

theorem hasSoundContent_merged (element : Element) (sound : element.HasSoundContent) :
    element.merged.HasSoundContent := by
  rw [HasSoundContent, merged_children]
  unfold HasSoundContent at sound
  generalize element.children = children at sound
  induction children with
  | nil => simp [Node.mergedAll]
  | cons child rest ih =>
      rw [List.forall_mem_cons] at sound
      rw [Node.mergedAll]
      exact Node.forall_mem_joinText Node.isSound_join
        (List.forall_mem_cons.mpr ⟨isSound_merged child sound.1, ih sound.2⟩)

/-- Joining leaves no two texts side by side. -/
theorem hasTextsApart_merged (element : Element) : element.merged.HasTextsApart := by
  rw [HasTextsApart, merged_children]
  induction element.children with
  | nil => exact List.isChain_nil
  | cons child rest ih =>
      rw [Node.mergedAll]
      exact Node.isChain_joinText ih

/-- What can be read back can be read back with its texts joined. -/
theorem Readable.merged {root : Element} (readable : root.Readable) : root.merged.Readable :=
  each_merged (fun element here =>
    ⟨hasPlainNames_merged element here.names, hasDistinctNames_merged element here.distinct,
      hasSoundContent_merged element here.sound⟩) readable

theorem each_hasTextsApart_merged (root : Element) : root.merged.Each HasTextsApart :=
  each_merged (fun element (_ : True) => hasTextsApart_merged element) fun _ _ => trivial

/-- Joining texts does not show in the markup. -/
theorem written_merged (params : Params) (root : Element) :
    root.merged.written params = root.written params := by
  induction root with
  | element name attributes children ih =>
      have nodes : (Node.mergedAll children).flatMap (Node.written params) =
          children.flatMap (Node.written params) := by
        apply Node.flatMap_mergedAll
        · intro first second
          simp [Node.written]
        · intro child member
          cases child with
          | element child => exact ih child member
          | text content => rfl
          | cdata content => rfl
          | comment content => rfl
      rw [merged]
      cases children with
      | nil => rfl
      | cons child rest =>
          have nonempty : Node.mergedAll (child :: rest) ≠ [] := Node.joinText_ne_nil _ _
          rw [written_of_children params name attributes nonempty, nodes,
            written_of_children params name attributes (List.cons_ne_nil child rest)]

/-- A tree without texts side by side has nothing to join. -/
theorem merged_of_apart {root : Element} (apart : root.Each HasTextsApart) :
    root.merged = root := by
  induction root with
  | element name attributes children ih =>
      obtain ⟨here, below⟩ := each_mk.mp apart
      rw [merged]
      congr 1
      rw [HasTextsApart] at here
      dsimp only at here
      clear apart
      induction children with
      | nil => rfl
      | cons child rest ih' =>
          have head : child.merged = child := by
            cases child with
            | element child =>
                rw [Node.merged, ih child List.mem_cons_self (below child List.mem_cons_self)]
            | text content => rfl
            | cdata content => rfl
            | comment content => rfl
          rw [List.isChain_cons] at here
          rw [Node.mergedAll, head, ih'
            (fun child member => ih child (List.mem_cons_of_mem _ member))
            here.2 fun child member => below child (List.mem_cons_of_mem _ member)]
          exact Node.joinText_of_isApart here.1

/-- Joining texts a second time changes nothing. -/
theorem merged_merged (root : Element) : root.merged.merged = root.merged :=
  merged_of_apart (each_hasTextsApart_merged root)

/-- Filling holes and joining texts do not touch each other. -/
theorem resolved_merged (params : Params) (root : Element) :
    root.merged.resolved params = (root.resolved params).merged := by
  induction root with
  | element name attributes children ih =>
      rw [merged, resolved_mk, resolved_mk, merged]
      congr 1
      induction children with
      | nil => rfl
      | cons child rest ih' =>
          have head : child.merged.resolved params = (child.resolved params).merged := by
            cases child with
            | element child =>
                rw [Node.merged, Node.resolved, ih child List.mem_cons_self]
                rfl
            | text content => rfl
            | cdata content => rfl
            | comment content => rfl
          rw [Node.mergedAll, Node.resolved_joinText, head,
            ih' fun child member => ih child (List.mem_cons_of_mem _ member),
            List.map_cons, Node.mergedAll]

end Element

end ThemedSvg

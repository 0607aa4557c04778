/-
# Parsing undoes serialization

The two halves of the round trip meet here. A tree that is well formed is what its
markup is parsed to; and what markup is parsed to is well formed, up to texts side by
side, which a second round joins without a trace in the markup.
-/

import ThemedSvg.Proofs.Accepted

namespace ThemedSvg

/-- An attribute without a hole is resolved already. -/
theorem Attribute.resolved_of_literal {slot : Attribute} (isLiteral : slot.value.literal?.isSome)
    (params : Params) : slot.resolved params = slot := by
  cases slot with
  | mk name value =>
      cases value with
      | literal text => rfl
      | lookup l => cases isLiteral
      | style hook => cases isLiteral

/-- A tree without holes is resolved already. -/
theorem Element.resolved_of_literals {root : Element} (literals : root.Each HasLiterals)
    (params : Params) : root.resolved params = root := by
  induction root with
  | element name attributes children ih =>
      obtain ⟨here, below⟩ := each_mk.mp literals
      have slots : attributes.map (Attribute.resolved params) = attributes := by
        apply Eq.trans (List.map_congr_left ?_) (List.map_id attributes)
        intro slot member
        exact Attribute.resolved_of_literal (here slot member) params
      have nodes : children.map (Node.resolved params) = children := by
        apply Eq.trans (List.map_congr_left ?_) (List.map_id children)
        intro node member
        cases node with
        | element child => rw [Node.resolved, ih child member (below child member)]; rfl
        | text content => rfl
        | cdata content => rfl
        | comment content => rfl
      rw [resolved_mk, slots, nodes]

/-- A document as a source with plain names can have it. -/
structure Element.IsSource (root : Element) : Prop where
  plain : root.Plain
  accepted : root.Each Element.IsAccepted

instance : DecidablePred Element.IsSource := fun root =>
  decidable_of_iff (root.Plain ∧ root.Each Element.IsAccepted)
    ⟨fun ⟨plain, accepted⟩ => ⟨plain, accepted⟩, fun source => ⟨source.plain, source.accepted⟩⟩

namespace Element.IsSource

variable {root : Element}

theorem ofParse {markup : String} (parsed : Markup.parse markup = .ok root)
    (plain : root.Plain) : root.IsSource :=
  ⟨plain, Markup.each_isAccepted_of_parse parsed⟩

theorem readable (source : root.IsSource) : root.Readable :=
  readable_iff.mpr ⟨source.plain, source.accepted.imp fun _ here => here.distinct,
    source.accepted.imp fun _ here => here.sound⟩

theorem literals (source : root.IsSource) : root.Each HasLiterals :=
  source.accepted.imp fun _ here => here.literals

theorem merged (source : root.IsSource) : root.merged.IsSource where
  plain := each_merged hasPlainNames_merged source.plain
  accepted := each_merged (fun element here =>
    ⟨hasLiterals_merged element here.literals, hasDistinctNames_merged element here.distinct,
      hasSoundContent_merged element here.sound⟩) source.accepted

end Element.IsSource

namespace Markup

theorem toString_evaluate_compile (root : Element) (params : Params) :
    (Template.compile root).evaluate params = String.ofList (root.written params) := by
  rw [← Template.toList_evaluate_compile, String.ofList_toList]

theorem serialize_merged (root : Element) : root.merged.serialize = root.serialize := by
  rw [← String.toList_inj, Element.toList_serialize, Element.toList_serialize,
    Element.written_merged]

/-- The markup of a document is parsed as the document with its texts joined. -/
theorem parse_serialize_of_isSource {root : Element} (source : root.IsSource) :
    parse root.serialize = .ok root.merged := by
  have reads := parse_written source.readable Params.empty
  rw [Element.resolved_of_literals source.literals] at reads
  rw [Element.serialize, toString_evaluate_compile]
  exact reads

theorem parse_serialize_of_apart {root : Element} (source : root.IsSource)
    (apart : root.Each Element.HasTextsApart) : parse root.serialize = .ok root := by
  rw [parse_serialize_of_isSource source, Element.merged_of_apart apart]

/-- A literal tree that markup can say is what its markup is parsed to, under any
parameters. Every plain document that is parsed is such a tree, except that its texts
need not be apart; its own markup does not change any more when it is parsed again. -/
theorem parse_serialize :
    (∀ root : Element, root.Plain → root.Each Element.HasLiterals →
      root.Each Element.HasDistinctNames → root.Each Element.HasSoundContent →
      root.Each Element.HasTextsApart →
        ∀ params, parse ((Template.compile root).evaluate params) = .ok root) ∧
    (∀ markup root, parse markup = .ok root → root.Plain →
      root.Each Element.HasLiterals ∧ root.Each Element.HasDistinctNames ∧
        root.Each Element.HasSoundContent ∧
        ∃ again, parse root.serialize = .ok again ∧ again.serialize = root.serialize) := by
  constructor
  · intro root plain literals distinct sound apart params
    have reads := parse_written (Element.readable_iff.mpr ⟨plain, distinct, sound⟩) params
    rw [Element.resolved_of_literals literals, Element.merged_of_apart apart] at reads
    rw [toString_evaluate_compile]
    exact reads
  · intro markup root parsed plain
    have source := Element.IsSource.ofParse parsed plain
    exact ⟨source.literals, source.accepted.imp fun _ here => here.distinct,
      source.accepted.imp fun _ here => here.sound, root.merged,
      parse_serialize_of_isSource source, serialize_merged root⟩

/-- A document with a node of each kind and a value that has to be escaped. -/
def everyKind : Element :=
  ⟨"svg", [.text "width" "8", .text "title" "a < \"b\" & 'c'"],
    [.comment " - > ", .element ⟨"rect", [.text "fill" "#ff0000"], []⟩, .text "x &amp; > y",
      .cdata "a < ]] b"]⟩

theorem parse_serialize_everyKind :
    everyKind.Plain ∧ everyKind.Each Element.HasLiterals ∧
      parse everyKind.serialize = .ok everyKind ∧
      ∃ again, parse everyKind.serialize = .ok again ∧
        again.serialize = everyKind.serialize := by
  have plain : everyKind.Plain := by decide
  have literals : everyKind.Each Element.HasLiterals := by decide
  have parsed := parse_serialize.1 everyKind plain literals (by decide) (by decide +kernel)
    (by decide) Params.empty
  have accepted := parse_serialize.2 everyKind.serialize everyKind parsed plain
  exact ⟨plain, literals, parsed, accepted.2.2.2⟩

end Markup

end ThemedSvg

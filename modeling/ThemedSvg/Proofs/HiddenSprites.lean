/-
# Hidden sprites

A style is a list of declarations, and `display:none` among them hides a symbol on its sheet.
What takes it out does not read declarations. It looks for the text `display:` with `none` behind
it, and where it finds that first it takes out everything up to the next semicolon. The other
declarations stay as they are, and the sprite is shown, if and only if what is found first is a
declaration that hides, and the only one, or nothing is found and nothing hides.
-/

import ThemedSvg.Proofs.Painting
import ThemedSvg.Proofs.SpriteWeight

namespace ThemedSvg

/-! ## Styles as declarations -/

namespace Style

/-- A name and, behind a colon, a value. -/
structure Declaration where
  name : List Char
  value : Option (List Char)
  deriving DecidableEq

/-- What a piece of a style between semicolons says. -/
def declaration (piece : List Char) : Declaration :=
  match Text.splitFirst ':' piece with
  | some (name, value) => ⟨Text.trim name, some (Text.trim value)⟩
  | none => ⟨Text.trim piece, none⟩

/-- Whether a value is `none`, with or without `!important`. -/
def isNone (value : List Char) : Bool :=
  Text.trimEnd ((Text.dropEnding? "!important".toList value).getD value) == "none".toList

/-- Whether a declaration hides what has it. -/
def Declaration.hides (declaration : Declaration) : Bool :=
  declaration.name == "display".toList && declaration.value.any isNone

/-- What stands between semicolons and is not blank. -/
def pieces (style : List Char) : List (List Char) :=
  (style.splitOn ';').filter (!Text.isBlank ·)

def declarations (style : List Char) : List Declaration :=
  (pieces style).map declaration

end Style

/-! ## Mentions -/

namespace Sprite

open Style

/-- Whether a text begins with what is looked for. -/
def startsMention (text : List Char) : Bool :=
  "display:".toList.isPrefixOf text &&
    "none".toList.isPrefixOf (Text.trimStart (text.drop "display:".toList.length))

/-- Whether what is looked for is anywhere in a text. -/
def mentions : List Char → Bool
  | [] => false
  | c :: rest => startsMention (c :: rest) || mentions rest

theorem withoutHidden_cons (c : Char) (rest : List Char) :
    withoutHidden (c :: rest) =
      if startsMention (c :: rest) then (c :: rest).dropWhile (· != ';')
      else c :: withoutHidden rest := by
  rw [withoutHidden]
  rfl

theorem startsMention_iff {text : List Char} :
    startsMention text = true ↔ ∃ gap rest, (∀ c ∈ gap, Text.isSpace c = true) ∧
      text = "display:".toList ++ gap ++ "none".toList ++ rest := by
  simp only [startsMention, Bool.and_eq_true, List.isPrefixOf_iff_prefix]
  constructor
  · rintro ⟨⟨behind, rfl⟩, ⟨rest, isRest⟩⟩
    rw [List.drop_left] at isRest
    refine ⟨behind.takeWhile Text.isSpace, rest, List.all_eq_true.mp List.all_takeWhile, ?_⟩
    rw [List.append_assoc, List.append_assoc, isRest, Text.trimStart,
      List.takeWhile_append_dropWhile]
  · rintro ⟨gap, rest, spaces, rfl⟩
    rw [List.append_assoc, List.append_assoc, List.drop_left, Text.trimStart,
      List.dropWhile_append_of_pos spaces]
    exact ⟨List.prefix_append _ _, List.prefix_append _ _⟩

section

variable {piece : List Char}

theorem dropWhile_piece (unbroken : ';' ∉ piece) (rest : List Char) :
    (piece ++ rest).dropWhile (· != ';') = rest.dropWhile (· != ';') := by
  apply List.dropWhile_append_of_pos
  intro c member
  rw [bne_iff_ne]
  rintro rfl
  exact unbroken member

/-- A mention does not go on behind a semicolon. -/
theorem startsMention_append (piece rest : List Char) :
    startsMention (piece ++ ';' :: rest) = startsMention piece := by
  rw [Bool.eq_iff_iff, startsMention_iff, startsMention_iff]
  constructor
  · rintro ⟨gap, behind, spaces, same⟩
    have noMark : ';' ∉ "display:".toList ++ gap ++ "none".toList := by
      simp only [List.mem_append, not_or]
      refine ⟨⟨by decide, fun member => ?_⟩, by decide⟩
      cases spaces _ member
    rcases List.append_eq_append_iff.mp same with ⟨more, longer, isRest⟩ | ⟨more, isPiece, -⟩
    · cases more with
      | nil => exact ⟨gap, [], spaces, by rw [longer, List.append_nil, List.append_nil]⟩
      | cons c others =>
          obtain ⟨rfl, -⟩ := List.cons.inj isRest
          rw [longer] at noMark
          exact absurd (by simp) noMark
    · exact ⟨gap, more, spaces, isPiece⟩
  · rintro ⟨gap, behind, spaces, rfl⟩
    exact ⟨gap, behind ++ ';' :: rest, spaces, by simp⟩

theorem withoutHidden_of_not_mentions (noMention : mentions piece = false) :
    withoutHidden piece = piece := by
  induction piece with
  | nil => rfl
  | cons c more ih =>
      rw [mentions, Bool.or_eq_false_iff] at noMention
      rw [withoutHidden_cons, noMention.1, if_neg Bool.false_ne_true, ih noMention.2]

/-- A piece without a mention is passed over. -/
theorem withoutHidden_append_of_not_mentions (noMention : mentions piece = false)
    (rest : List Char) :
    withoutHidden (piece ++ ';' :: rest) = piece ++ ';' :: withoutHidden rest := by
  induction piece with
  | nil =>
      have none : startsMention (';' :: rest) = false := startsMention_append [] rest
      rw [List.nil_append, withoutHidden_cons, none, if_neg Bool.false_ne_true, List.nil_append]
  | cons c more ih =>
      rw [mentions, Bool.or_eq_false_iff] at noMention
      have none : startsMention (c :: (more ++ ';' :: rest)) = false :=
        (startsMention_append (c :: more) rest).trans noMention.1
      rw [List.cons_append, withoutHidden_cons, none, if_neg Bool.false_ne_true,
        ih noMention.2, List.cons_append]

/-- Behind a piece with a mention everything stays. -/
theorem withoutHidden_append_of_mentions (unbroken : ';' ∉ piece)
    (isMention : mentions piece = true) (rest : List Char) :
    withoutHidden (piece ++ ';' :: rest) = withoutHidden piece ++ ';' :: rest := by
  induction piece with
  | nil => cases isMention
  | cons c more ih =>
      have same : startsMention (c :: (more ++ ';' :: rest)) = startsMention (c :: more) :=
        startsMention_append (c :: more) rest
      rw [List.cons_append, withoutHidden_cons, withoutHidden_cons, same]
      split
      · have all : (c :: more).dropWhile (· != ';') = [] := by
          simpa using dropWhile_piece unbroken []
        rw [← List.cons_append, dropWhile_piece unbroken, all,
          List.dropWhile_cons_of_neg (by simp), List.nil_append]
      · next notFirst =>
          rw [mentions, eq_false_of_ne_true notFirst, Bool.false_or] at isMention
          rw [ih (fun member => unbroken (List.mem_cons_of_mem _ member)) isMention,
            List.cons_append]

/-- What is left of a piece with a mention is what stands in front of the mention. -/
theorem exists_mention (unbroken : ';' ∉ piece) (isMention : mentions piece = true) :
    ∃ mention, startsMention mention = true ∧ piece = withoutHidden piece ++ mention := by
  induction piece with
  | nil => cases isMention
  | cons c more ih =>
      rw [withoutHidden_cons]
      split
      · next isFirst =>
          have all : (c :: more).dropWhile (· != ';') = [] := by
            simpa using dropWhile_piece unbroken []
          exact ⟨c :: more, isFirst, by rw [all, List.nil_append]⟩
      · next notFirst =>
          rw [mentions, eq_false_of_ne_true notFirst, Bool.false_or] at isMention
          obtain ⟨mention, starts, isPiece⟩ :=
            ih (fun member => unbroken (List.mem_cons_of_mem _ member)) isMention
          exact ⟨mention, starts, by rw [List.cons_append, ← isPiece]⟩

end

/-! ## Pieces -/

theorem join_cons {parts : List (List Char)} (more : parts ≠ []) (first : List Char) :
    [';'].intercalate (first :: parts) = first ++ ';' :: [';'].intercalate parts := by
  obtain ⟨second, rest, rfl⟩ := List.exists_cons_of_ne_nil more
  rw [List.intercalate_cons_cons, List.append_assoc, List.singleton_append]

theorem withoutHidden_join_of_not_mentions {parts : List (List Char)}
    (noMention : ∀ part ∈ parts, mentions part = false) :
    withoutHidden ([';'].intercalate parts) = [';'].intercalate parts := by
  induction parts with
  | nil => rfl
  | cons first rest ih =>
      obtain ⟨isFirst, others⟩ := List.forall_mem_cons.mp noMention
      by_cases last : rest = []
      · rw [last, List.intercalate_singleton]
        exact withoutHidden_of_not_mentions isFirst
      · rw [join_cons last, withoutHidden_append_of_not_mentions isFirst, ih others]

/-- Only the first piece with a mention changes. -/
theorem withoutHidden_join {before after : List (List Char)} {piece : List Char}
    (noMention : ∀ part ∈ before, mentions part = false) (unbroken : ';' ∉ piece)
    (isMention : mentions piece = true) :
    withoutHidden ([';'].intercalate (before ++ piece :: after)) =
      [';'].intercalate (before ++ withoutHidden piece :: after) := by
  induction before with
  | nil =>
      by_cases last : after = []
      · rw [last, List.nil_append, List.nil_append, List.intercalate_singleton,
          List.intercalate_singleton]
      · rw [List.nil_append, List.nil_append, join_cons last, join_cons last,
          withoutHidden_append_of_mentions unbroken isMention]
  | cons first rest ih =>
      obtain ⟨isFirst, others⟩ := List.forall_mem_cons.mp noMention
      rw [List.cons_append, List.cons_append, join_cons (by simp), join_cons (by simp),
        withoutHidden_append_of_not_mentions isFirst, ih others]

/-- A style without a mention stays, and in one with a mention nothing but the first piece that
has one. -/
theorem splitOn_withoutHidden (style : List Char) :
    (withoutHidden style = style ∧ ∀ part ∈ style.splitOn ';', mentions part = false) ∨
      ∃ before piece after, style.splitOn ';' = before ++ piece :: after ∧
        (∀ part ∈ before, mentions part = false) ∧ mentions piece = true ∧
        (withoutHidden style).splitOn ';' = before ++ withoutHidden piece :: after := by
  have isStyle : [';'].intercalate (style.splitOn ';') = style := List.intercalate_splitOn _
  cases found : (style.splitOn ';').find? mentions with
  | none =>
      have noMention : ∀ part ∈ style.splitOn ';', mentions part = false := by
        simpa using List.find?_eq_none.mp found
      have stays := withoutHidden_join_of_not_mentions noMention
      rw [isStyle] at stays
      exact .inl ⟨stays, noMention⟩
  | some piece =>
      obtain ⟨isMention, before, after, split, noMention⟩ :=
        List.find?_eq_some_iff_append.mp found
      have unbroken : ∀ part ∈ style.splitOn ';', ';' ∉ part :=
        fun _ member => (Text.of_mem_splitOn member).1
      have unbroken' : ∀ part ∈ before ++ withoutHidden piece :: after, ';' ∉ part := by
        rw [split] at unbroken
        simp only [List.forall_mem_append, List.forall_mem_cons] at unbroken ⊢
        refine ⟨unbroken.1, fun member => ?_, unbroken.2.2⟩
        exact unbroken.2.1 ((withoutHidden_sublist piece).subset member)
      have noMention' : ∀ part ∈ before, mentions part = false := by simpa using noMention
      refine .inr ⟨before, piece, after, split, noMention', isMention, ?_⟩
      have inPieces : piece ∈ style.splitOn ';' := by simp [split]
      rw [← isStyle, split, withoutHidden_join noMention' (unbroken piece inPieces) isMention,
        List.splitOn_intercalate _ unbroken' (by simp)]

/-! ## What pieces say -/

theorem declaration_of_colon {name : List Char} (absent : ':' ∉ name) (value : List Char) :
    declaration (name ++ ':' :: value) = ⟨Text.trim name, some (Text.trim value)⟩ := by
  rw [declaration, Text.splitFirst_append absent]

theorem declaration_of_no_colon {piece : List Char} (absent : ':' ∉ piece) :
    declaration piece = ⟨Text.trim piece, none⟩ := by
  rw [declaration, Text.splitFirst_eq_none_iff.mpr absent]

theorem not_isNone_of_colon {value : List Char} (member : ':' ∈ value) : isNone value = false := by
  have kept : ':' ∈ (Text.dropEnding? "!important".toList value).getD value := by
    cases dropped : Text.dropEnding? "!important".toList value with
    | none => exact member
    | some rest =>
        rw [Text.dropEnding?_eq_some dropped, List.mem_append] at member
        exact member.resolve_right (by decide)
  have inside := Text.mem_of_filter_eq (Text.visible_trimEnd _) (by decide) kept
  rw [isNone, beq_eq_false_iff_ne]
  intro same
  rw [same] at inside
  revert inside
  decide

section

variable {piece : List Char}

/-- A piece with a mention is what is left of it, and then a text with a colon. -/
theorem exists_colon (unbroken : ';' ∉ piece) (isMention : mentions piece = true) :
    ∃ rest, piece = withoutHidden piece ++ "display".toList ++ ':' :: rest := by
  obtain ⟨mention, starts, isPiece⟩ := exists_mention unbroken isMention
  obtain ⟨gap, rest, -, rfl⟩ := startsMention_iff.mp starts
  exact ⟨gap ++ "none".toList ++ rest, by rw [List.append_assoc]; simpa using isPiece⟩

/-- A piece that hides has nothing in front of its mention. -/
theorem isBlank_withoutHidden (unbroken : ';' ∉ piece) (isMention : mentions piece = true)
    (isHidden : (declaration piece).hides = true) : Text.isBlank (withoutHidden piece) = true := by
  obtain ⟨rest, isPiece⟩ := exists_colon unbroken isMention
  generalize withoutHidden piece = front at isPiece ⊢
  rw [Declaration.hides, Bool.and_eq_true, beq_iff_eq] at isHidden
  cases split : Text.splitFirst ':' front with
  | none =>
      -- the name of the piece ends with the mention and is `display`
      have absent : ':' ∉ front ++ "display".toList := by
        simpa using Text.splitFirst_eq_none_iff.mp split
      rw [isPiece, declaration_of_colon absent] at isHidden
      have isName : Text.trim (front ++ "display".toList) = "display".toList := isHidden.1
      have visible := Text.visible_trim (front ++ "display".toList)
      rw [isName, List.filter_append] at visible
      exact Text.visible_eq_nil_iff.mp (List.self_eq_append_left.mp visible)
  | some parts =>
      -- the mention is in the value, which is not `none` then
      obtain ⟨name, value⟩ := parts
      obtain ⟨rfl, absent⟩ := Text.splitFirst_eq_some split
      rw [isPiece, List.append_assoc, List.append_assoc, List.cons_append,
        declaration_of_colon absent] at isHidden
      have inside : ':' ∈ Text.trim (value ++ ("display".toList ++ ':' :: rest)) :=
        Text.mem_of_filter_eq (Text.visible_trim _) (by decide) (by simp)
      have isValue := isHidden.2
      rw [Option.any_some, not_isNone_of_colon inside] at isValue
      cases isValue

/-- What is left of a piece with a mention does not say what the piece says. -/
theorem declaration_withoutHidden_ne (unbroken : ';' ∉ piece) (isMention : mentions piece = true) :
    declaration (withoutHidden piece) ≠ declaration piece := by
  obtain ⟨rest, isPiece⟩ := exists_colon unbroken isMention
  generalize withoutHidden piece = front at isPiece ⊢
  rw [isPiece]
  cases split : Text.splitFirst ':' front with
  | none =>
      -- the colon of the mention is the first, and without it there is no value
      have absent : ':' ∉ front := Text.splitFirst_eq_none_iff.mp split
      rw [declaration_of_no_colon absent, declaration_of_colon (by simpa using absent)]
      rintro same
      cases (Declaration.mk.inj same).2
  | some parts =>
      -- the value loses the mention, which can be seen
      obtain ⟨name, value⟩ := parts
      obtain ⟨rfl, absent⟩ := Text.splitFirst_eq_some split
      rw [List.append_assoc, List.append_assoc, List.cons_append, declaration_of_colon absent,
        declaration_of_colon absent]
      intro same
      have sameValue := Option.some.inj (Declaration.mk.inj same).2
      have visible := Text.visible_trim (value ++ ("display".toList ++ ':' :: rest))
      rw [← sameValue, Text.visible_trim, List.filter_append, List.self_eq_append_right] at visible
      cases visible

theorem isBlank_of_mentions (unbroken : ';' ∉ piece) (isMention : mentions piece = true) :
    Text.isBlank piece = false := by
  obtain ⟨rest, isPiece⟩ := exists_colon unbroken isMention
  rw [isPiece, Text.isBlank, List.all_eq_false]
  exact ⟨':', by simp, by decide⟩

end

/-! ## Styles -/

/-- The piece that is found is the one that hides; where nothing is found, nothing hides. -/
def FindsHidden (style : List Char) : Prop :=
  (pieces style).filter (fun piece => (declaration piece).hides) =
    ((pieces style).find? mentions).toList

instance (style : List Char) : Decidable (FindsHidden style) :=
  inferInstanceAs (Decidable (_ = _))

theorem filter_eq_singleton_iff {α : Type} {holds : α → Bool} {front back : List α} {x : α} :
    (front ++ x :: back).filter holds = [x] ↔
      (∀ y ∈ front ++ back, holds y = false) ∧ holds x = true := by
  constructor
  · intro only
    have holdsOfIt : holds x = true := by
      have member : x ∈ [x] := List.mem_singleton_self x
      rw [← only] at member
      exact (List.mem_filter.mp member).2
    rw [List.filter_append, List.filter_cons_of_pos holdsOfIt, List.append_eq_singleton_iff] at only
    rcases only with ⟨inFront, others⟩ | ⟨-, none⟩
    · have inBack := (List.cons.inj others).2
      rw [List.filter_eq_nil_iff] at inFront inBack
      refine ⟨List.forall_mem_append.mpr ⟨?_, ?_⟩, holdsOfIt⟩
      · simpa using inFront
      · simpa using inBack
    · cases none
  · rintro ⟨others, holdsOfIt⟩
    obtain ⟨inFront, inBack⟩ := List.forall_mem_append.mp others
    have noneInFront : front.filter holds = [] := by simpa using inFront
    have noneInBack : back.filter holds = [] := by simpa using inBack
    rw [List.filter_append, List.filter_cons_of_pos holdsOfIt, noneInFront, noneInBack,
      List.nil_append]

/-- If a declaration is replaced by what is not the same, and by nothing if it hides, then what
hides is gone and all else is there if and only if it alone hides. -/
theorem replaced_eq_filter_iff {front left back : List Declaration} {hidden : Declaration}
    (gone : hidden.hides = true → left = []) (differs : left ≠ [hidden]) :
    front ++ (left ++ back) = (front ++ hidden :: back).filter (!·.hides) ↔
      (∀ declaration ∈ front ++ back, declaration.hides = false) ∧ hidden.hides = true := by
  constructor
  · intro same
    have shown : ∀ declaration ∈ front ++ (left ++ back), declaration.hides = false := by
      intro declaration member
      rw [same] at member
      simpa using (List.mem_filter.mp member).2
    simp only [List.forall_mem_append] at shown ⊢
    refine ⟨⟨shown.1, shown.2.2⟩, ?_⟩
    -- else nothing would be left out, and what was put in would be what was there
    by_contra visible
    have all : (front ++ hidden :: back).filter (!·.hides) = front ++ hidden :: back := by
      rw [List.filter_eq_self, List.forall_mem_append, List.forall_mem_cons]
      refine ⟨?_, by simpa using visible, ?_⟩
      · simpa using shown.1
      · simpa using shown.2.2
    rw [all, List.append_cancel_left_eq, ← List.singleton_append,
      List.append_cancel_right_eq] at same
    exact differs same
  · rintro ⟨shown, isHidden⟩
    have kept : (front ++ back).filter (!·.hides) = front ++ back := by
      rw [List.filter_eq_self]
      simpa using shown
    rw [gone isHidden, List.nil_append, List.filter_append,
      List.filter_cons_of_neg (by simp [isHidden]), ← List.filter_append, kept]

/-- Where a mention is found, what stands in front of it takes the place of its piece. -/
theorem pieces_withoutHidden (style : List Char) :
    (withoutHidden style = style ∧ (pieces style).find? mentions = none) ∨
      ∃ front piece back, ';' ∉ piece ∧ pieces style = front ++ piece :: back ∧
        (pieces style).find? mentions = some piece ∧
        pieces (withoutHidden style) =
          front ++ ([withoutHidden piece].filter (!Text.isBlank ·) ++ back) := by
  have notFound {parts : List (List Char)} (noMention : ∀ part ∈ parts, mentions part = false) :
      (parts.filter (!Text.isBlank ·)).find? mentions = none := by
    rw [List.find?_eq_none]
    intro part member
    rw [noMention part (List.mem_of_mem_filter member)]
    exact Bool.false_ne_true
  rcases splitOn_withoutHidden style with
    ⟨stays, noMention⟩ | ⟨before, piece, after, split, noMention, isMention, split'⟩
  · exact .inl ⟨stays, notFound noMention⟩
  · have unbroken : ';' ∉ piece := (Text.of_mem_splitOn (by rw [split]; simp)).1
    have arePieces : pieces style =
        before.filter (!Text.isBlank ·) ++ piece :: after.filter (!Text.isBlank ·) := by
      rw [pieces, split, List.filter_append, List.filter_cons_of_pos]
      rw [isBlank_of_mentions unbroken isMention]
      rfl
    refine .inr ⟨_, piece, _, unbroken, arePieces, ?_, ?_⟩
    · rw [arePieces, List.find?_append, notFound noMention, Option.none_or,
        List.find?_cons_of_pos isMention]
    · rw [pieces, split', List.filter_append, ← List.singleton_append, List.filter_append]

/-- The declarations that do not hide are what is left, and nothing else, if and only if what
is found is what hides. -/
theorem declarations_withoutHidden_iff (style : List Char) :
    declarations (withoutHidden style) = (declarations style).filter (!·.hides) ↔
      FindsHidden style := by
  rw [FindsHidden]
  rcases pieces_withoutHidden style with
    ⟨stays, notFound⟩ | ⟨front, piece, back, unbroken, arePieces, found, areLeft⟩
  · rw [stays, notFound, Option.toList_none, List.filter_eq_nil_iff, eq_comm,
      List.filter_eq_self, declarations, List.forall_mem_map]
    simp
  · have isMention : mentions piece = true := List.find?_some found
    rw [found, Option.toList_some, declarations, declarations, areLeft, arePieces,
      filter_eq_singleton_iff, List.map_append, List.map_append, List.map_append, List.map_cons,
      replaced_eq_filter_iff, ← List.map_append, List.forall_mem_map]
    · intro isHidden
      simp [isBlank_withoutHidden unbroken isMention isHidden]
    · rw [List.filter_singleton]
      cases Text.isBlank (withoutHidden piece) with
      | true => exact (List.cons_ne_nil _ _).symm
      | false =>
          intro same
          exact declaration_withoutHidden_ne unbroken isMention (List.singleton_inj.mp same)

/-! ## Sprites -/

end Sprite

/-- The style of an element, which is empty where there is none. -/
def Element.styleText (element : Element) : List Char :=
  ((element.literal? "style").getD "").toList

namespace Sprite

open Style

theorem filter_trimMark (mark : Char) (text : List Char) :
    (trimMark mark text).filter (!· == mark) = text.filter (!· == mark) := by
  rw [trimMark, List.filter_reverse, Text.filter_not_dropWhile, ← List.filter_reverse,
    List.reverse_reverse, Text.filter_not_dropWhile]

theorem declarations_of_saysNothing {style : List Char} (nothing : saysNothing style = true) :
    declarations style = [] := by
  have blank : ∀ part ∈ style.splitOn ';', Text.isBlank part = true := by
    intro part isPart
    obtain ⟨unbroken, inside⟩ := Text.of_mem_splitOn isPart
    rw [Text.isBlank_iff]
    intro c member
    by_contra visible
    have notMark : c ≠ ';' := fun same => unbroken (same ▸ member)
    have inTrimmed : c ∈ Text.trim style :=
      Text.mem_of_filter_eq (Text.visible_trim style) (by simpa using visible) (inside member)
    have kept : c ∈ trimMark ';' (Text.trim style) :=
      Text.mem_of_filter_eq (filter_trimMark ';' _) (by simpa using notMark) inTrimmed
    exact visible ((Text.isBlank_iff _).mp nothing c kept)
  rw [declarations, pieces, List.map_eq_nil_iff, List.filter_eq_nil_iff]
  intro part isPart
  simp [blank part isPart]

theorem declarations_shown (element : Element) :
    declarations (shown element).styleText = declarations (withoutHidden element.styleText) := by
  rw [shown]
  cases found : element.literal? "style" with
  | none => rw [Element.styleText, found]; rfl
  | some style =>
      have isStyle : element.styleText = style.toList := by rw [Element.styleText, found]; rfl
      dsimp only
      split
      · next nothing =>
          have noStyle : (element.attributes.filter (·.name != "style")).find?
              (·.name == "style") = none := by simp
          rw [isStyle, declarations_of_saysNothing nothing, Element.styleText, Element.literal?,
            noStyle]
          rfl
      · rw [Element.styleText, Element.literal?_setAttribute_self, isStyle]
        simp [AttributeValue.literal?]

/-- Whether an attribute is a style that can be inherited. -/
def givesStyle (entry : String × String) : Bool := entry.1 == "style" && entry.2 != ""

/-- The style that a symbol has itself, or else the first one that the root has and that is not
empty. -/
def ownStyle (symbol : Element) (rootAttributes : AttributeMap) : List Char :=
  if symbol.hasAttribute "style" then symbol.styleText
  else (((rootAttributes.find? givesStyle).map (·.2)).getD "").toList

/-- What an element has, it does not inherit. -/
theorem literal?_inherit_of_has {element : Element} {name : String}
    (has : element.hasAttribute name = true) (entry : String × String) :
    (inherit element entry).literal? name = element.literal? name := by
  rcases inherit_cases element entry with same | ⟨-, same⟩
  · rw [same]
  · rw [same, Element.literal?, Element.literal?, List.find?_append]
    cases found : element.attributes.find? (·.name == name) with
    | none => cases has.symm.trans (Element.find?_eq_none_iff.mp found)
    | some slot => rw [Option.some_or]

theorem hasAttribute_inherit (element : Element) (entry : String × String) :
    (inherit element entry).hasAttribute "style" =
      (element.hasAttribute "style" || givesStyle entry) := by
  obtain ⟨name, value⟩ := entry
  by_cases isName : name = "style"
  · subst isName
    rw [inherit]
    split
    · next skipped =>
        cases has : element.hasAttribute "style" <;> simp_all [givesStyle]
    · next inherits =>
        have nonempty : value ≠ "" := by
          rintro rfl
          simp at inherits
        simp [Element.hasAttribute, Attribute.text, givesStyle, nonempty]
  · have notGiven : givesStyle (name, value) = false := by simp [givesStyle, isName]
    rw [notGiven, Bool.or_false]
    rcases inherit_cases element (name, value) with same | ⟨-, same⟩
    · rw [same]
    · rw [same]
      simp [Element.hasAttribute, Attribute.text, isName]

theorem ownStyle_inherit (element : Element) (entry : String × String) (rest : AttributeMap) :
    ownStyle (inherit element entry) rest = ownStyle element (entry :: rest) := by
  rw [ownStyle, ownStyle, hasAttribute_inherit]
  cases has : element.hasAttribute "style" with
  | true =>
      rw [Bool.true_or, if_pos rfl, if_pos rfl, Element.styleText,
        literal?_inherit_of_has has, Element.styleText]
  | false =>
      rw [Bool.false_or, if_neg Bool.false_ne_true]
      by_cases given : givesStyle entry = true
      · obtain ⟨isName, nonempty⟩ : entry.1 = "style" ∧ entry.2 ≠ "" := by
          simpa [givesStyle] using given
        have inherits : inherit element entry = { element with
            attributes := element.attributes ++ [Attribute.text entry.1 entry.2] } :=
          if_neg (by simp [isName, nonempty, has])
        rw [if_pos given, List.find?_cons_of_pos given, inherits, isName, Element.styleText,
          Element.literal?, List.find?_append, Element.find?_eq_none_iff.mpr has]
        rfl
      · rw [if_neg given, List.find?_cons_of_neg given]

theorem styleText_foldl_inherit (element : Element) (rootAttributes : AttributeMap) :
    (rootAttributes.foldl inherit element).styleText = ownStyle element rootAttributes := by
  induction rootAttributes generalizing element with
  | nil =>
      rw [List.foldl_nil, ownStyle]
      split
      · rfl
      · next noStyle =>
          have notThere := Element.find?_eq_none_iff.mpr (eq_false_of_ne_true noStyle)
          rw [Element.styleText, Element.literal?, notThere]
          rfl
  | cons entry rest ih => rw [List.foldl_cons, ih, ownStyle_inherit]

/-- Of the declarations that a symbol has or inherits, its sprite has those that do not hide it,
and no others, if and only if what is found in them is what hides. -/
theorem declarations_standalone_iff (symbol : Element) (rootAttributes : AttributeMap) :
    declarations (standalone symbol rootAttributes).styleText =
        (declarations (ownStyle symbol rootAttributes)).filter (!·.hides) ↔
      FindsHidden (ownStyle symbol rootAttributes) := by
  rw [standalone, declarations_shown, styleText_foldl_inherit]
  exact declarations_withoutHidden_iff _

example : FindsHidden "opacity: 1;; display: none !important; x-display: block".toList := by decide

example : ¬ FindsHidden "display:none; display:none".toList := by decide

/-- A symbol with a property of its own in front of the declaration that hides it. -/
def veiled : Element := ⟨"symbol", [.text "style" "--display:none;display:none"], []⟩

/-- The property is cut off and the sprite stays hidden. -/
theorem hidden_veiled :
    (standalone veiled []).literal? "style" = some "--;display:none" ∧
      declarations (standalone veiled []).styleText ≠
        (declarations (ownStyle veiled [])).filter (!·.hides) ∧
      (declarations (standalone veiled []).styleText).any (·.hides) = true := by
  refine ⟨?_, ?_, ?_⟩ <;> decide +kernel

end Sprite

end ThemedSvg

/-
# The line that a report names

A position stands in a line once it is said what the position counts. Faults are placed by
bytes, and reports look their lines up by characters. Where all characters in front of the
fault are single bytes the two agree. Elsewhere the report can name a line too far down, or
none at all.
-/

import ThemedSvg.Markup.Report
import ThemedSvg.Proofs.FaultPlaces

namespace ThemedSvg

namespace Text

/-- The position is in the line with this number, which counts from one: the lines above take
no more than the position, and with the line itself they take more. The end of the text is in
the last line. -/
def IsInLine (measure : List Char → Nat) (text : List Char) (position number : Nat) : Prop :=
  ∃ before line after, splitLines text = before ++ line :: after ∧ number = before.length + 1 ∧
    measure before.flatten ≤ position ∧
    (position < measure (before.flatten ++ line) ∨ after = [] ∧ position = measure text)

theorem splitLines_ne_nil {text : List Char} (nonempty : text ≠ []) : splitLines text ≠ [] := by
  intro none
  have whole := flatten_splitLines text
  rw [none] at whole
  exact nonempty whole.symm

theorem eq_append_of_splitLines {text line : List Char} {before after : List (List Char)}
    (split : splitLines text = before ++ line :: after) :
    text = before.flatten ++ line ++ after.flatten := by
  rw [← flatten_splitLines text, split, List.flatten_append, List.flatten_cons,
    List.append_assoc]

section Lines

variable {measure : List Char → Nat} {text : List Char} {position number other : Nat}
  (additive : ∀ first second, measure (first ++ second) = measure first + measure second)

include additive

theorem measure_nil : measure [] = 0 := by
  have := additive [] []
  rw [List.append_nil] at this
  omega

/-- A position that lies within texts lies in one of them. -/
theorem exists_cut {lines : List (List Char)} (nonempty : lines ≠ [])
    (within : position ≤ measure lines.flatten) :
    ∃ before line after, lines = before ++ line :: after ∧ measure before.flatten ≤ position ∧
      (position < measure (before.flatten ++ line) ∨
        after = [] ∧ position = measure lines.flatten) := by
  -- From the last line upwards, to the first that starts at the position or in front of it.
  induction lines using List.reverseRecOn with
  | nil => exact absurd rfl nonempty
  | append_singleton above last ih =>
      by_cases starts : measure above.flatten ≤ position
      · refine ⟨above, last, [], rfl, starts, ?_⟩
        rw [List.flatten_append, List.flatten_singleton] at within ⊢
        exact (Nat.lt_or_eq_of_le within).imp_right fun atEnd => ⟨rfl, atEnd⟩
      · have isAbove : above ≠ [] := by
          rintro rfl
          exact starts (by simp [measure_nil additive])
        obtain ⟨before, line, after, rfl, starts', ends⟩ := ih isAbove (by omega)
        refine ⟨before, line, after ++ [last], by simp, starts', .inl ?_⟩
        exact ends.resolve_right fun atEnd => starts (Nat.le_of_eq atEnd.2.symm)

theorem exists_isInLine (nonempty : text ≠ []) (within : position ≤ measure text) :
    ∃ number, IsInLine measure text position number := by
  have whole := flatten_splitLines text
  obtain ⟨before, line, after, split, starts, ends⟩ :=
    exists_cut additive (splitLines_ne_nil nonempty) (whole.symm ▸ within)
  rw [whole] at ends
  exact ⟨_, before, line, after, split, rfl, starts, ends⟩

/-- A line that has a position stands above every line that starts behind the position. -/
theorem IsInLine.le (inLine : IsInLine measure text position number)
    (inOther : IsInLine measure text position other) : number ≤ other := by
  obtain ⟨before, line, after, split, rfl, starts, _⟩ := inLine
  obtain ⟨before', line', after', split', rfl, _, ends'⟩ := inOther
  rcases List.append_eq_append_iff.mp (split.symm.trans split') with
    ⟨more, rfl, _⟩ | ⟨more, rfl, rest⟩
  · simp
  · cases more with
    | nil => simp
    | cons found more =>
        obtain ⟨rfl, rfl⟩ := List.cons.inj rest
        rw [List.flatten_append, List.flatten_cons, ← List.append_assoc, additive] at starts
        rcases ends' with inside | ⟨isLast, _⟩
        · omega
        · simp at isLast

theorem IsInLine.unique (inLine : IsInLine measure text position number)
    (inOther : IsInLine measure text position other) : number = other :=
  Nat.le_antisymm (inLine.le additive inOther) (inOther.le additive inLine)

end Lines

/-! ## Looking a line up -/

theorem numberLines_append (index start : Nat) (before after : List (List Char)) :
    numberLines index start (before ++ after) =
      numberLines index start before ++
        numberLines (index + before.length) (start + before.flatten.length) after := by
  induction before generalizing index start with
  | nil => rfl
  | cons line rest ih =>
      rw [List.cons_append, numberLines, ih, numberLines, List.cons_append, List.length_cons,
        List.flatten_cons, List.length_append]
      congr 3 <;> omega

theorem start_of_mem_numberLines {index start : Nat} {lines : List (List Char)} {line : Line}
    (member : line ∈ numberLines index start lines) : start ≤ line.start := by
  induction lines generalizing index start with
  | nil => cases member
  | cons text rest ih =>
      rcases List.mem_cons.mp member with rfl | inRest
      · exact Nat.le_refl _
      · exact Nat.le_trans (Nat.le_add_right _ _) (ih inRest)

/-- Lines are looked up by characters. -/
theorem lineAt?_of_isInLine {text : List Char} {position number : Nat}
    (inLine : IsInLine List.length text position number) :
    ∃ line, lineAt? text position = some line ∧ line.index + 1 = number := by
  obtain ⟨before, content, after, split, rfl, starts, ends⟩ := inLine
  have within : position ≤ text.length := by
    rcases ends with inside | ⟨_, atEnd⟩
    · rw [eq_append_of_splitLines split, List.length_append]
      omega
    · exact Nat.le_of_eq atEnd
  refine ⟨⟨before.length, before.flatten.length, content⟩, ?_, rfl⟩
  have behind : (numberLines (before.length + 1)
      (before.flatten.length + content.length) after).filter (·.start ≤ position) = [] := by
    rw [List.filter_eq_nil_iff]
    intro line member
    have := start_of_mem_numberLines member
    rcases ends with inside | ⟨rfl, _⟩
    · rw [List.length_append] at inside
      simp only [decide_eq_true_eq]
      omega
    · cases member
  rw [lineAt?, if_pos within, split, numberLines_append, numberLines, Nat.zero_add, Nat.zero_add,
    List.filter_append, List.filter_cons_of_pos (by simpa using starts), behind,
    List.getLast?_concat]

theorem exists_lineAt?_iff {text : List Char} {position number : Nat} :
    (∃ line, lineAt? text position = some line ∧ line.index + 1 = number) ↔
      IsInLine List.length text position number := by
  constructor
  · rintro ⟨line, found, rfl⟩
    have nonempty : text ≠ [] := by
      rintro rfl
      simp [lineAt?, splitLines, numberLines] at found
    have within : position ≤ text.length := by
      by_contra beyond
      rw [lineAt?, if_neg beyond] at found
      cases found
    obtain ⟨number, inLine⟩ := exists_isInLine (fun _ _ => List.length_append) nonempty within
    obtain ⟨other, found', rfl⟩ := lineAt?_of_isInLine inLine
    cases found.symm.trans found'
    exact inLine
  · exact lineAt?_of_isInLine

theorem byteLength_eq_length {text : List Char} (ascii : ∀ c ∈ text, c.utf8Size = 1) :
    byteLength text = text.length := by
  induction text with
  | nil => rfl
  | cons c rest ih =>
      obtain ⟨single, ascii⟩ := List.forall_mem_cons.mp ascii
      rw [byteLength, single, ih ascii, List.length_cons, Nat.add_comm]

/-- Behind single bytes, a position is in the same line by bytes and by characters. -/
theorem IsInLine.of_ascii {text : List Char} {position number : Nat}
    (ascii : ∀ c ∈ text.take position, c.utf8Size = 1)
    (inLine : IsInLine byteLength text position number) :
    IsInLine List.length text position number := by
  have single {head rest : List Char} (whole : text = head ++ rest)
      (reached : head.length ≤ position) : byteLength head = head.length := by
    refine byteLength_eq_length fun c member => ascii c ?_
    rw [whole, List.take_append, List.take_of_length_le reached]
    exact List.mem_append_left _ member
  obtain ⟨before, line, after, split, rfl, starts, ends⟩ := inLine
  refine ⟨before, line, after, split, rfl, Nat.le_trans (length_le_byteLength _) starts, ?_⟩
  rcases ends with inside | ⟨isLast, rfl⟩
  · refine .inl (Nat.lt_of_not_le fun reached => ?_)
    have := single (eq_append_of_splitLines split) reached
    omega
  · exact .inr ⟨isLast, single (List.append_nil text).symm (length_le_byteLength text)⟩

/-- The first mark cuts a text at one place. -/
theorem eq_of_append_cons {mark : Char} {before before' after after' : List Char}
    (absent : mark ∉ before) (absent' : mark ∉ before')
    (same : before ++ mark :: after = before' ++ mark :: after') :
    before = before' ∧ after = after' := by
  have cut := splitFirst_append absent after
  rw [same, splitFirst_append absent'] at cut
  cases cut
  exact ⟨rfl, rfl⟩

end Text

namespace Markup

namespace Report

/-- The first line of a report. -/
def title (fault : ParseFault) : String := Ink.fault.paint "Error:" ++ " " ++ fault.message

/-- The header that says where in a file the fault is. -/
def location (filename : String) (indent number column : Nat) : String :=
  spaces indent ++ Ink.margin.paint "╭" ++ Ink.margin.paint "─" ++ Ink.margin.paint "[" ++
    s!"{filename}:{number}:{column}" ++ Ink.margin.paint "]"

/-- A report that has a header below its first line, with the number of a line in it. -/
def Locates (report : String) (fault : ParseFault) (filename : String) (number : Nat) : Prop :=
  ∃ indent column rest,
    report = title fault ++ "\n" ++ (location filename indent number column ++ rest)

/-- A header is spaces up to an escape, and later the number of the line up to a colon. -/
theorem toList_location_append (filename rest : String) (indent number column : Nat) :
    (location filename indent number column ++ rest).toList =
      List.replicate indent ' ' ++ '\x1b' ::
        ("[38;5;246m╭\x1b[0m\x1b[38;5;246m─\x1b[0m\x1b[38;5;246m[\x1b[0m".toList ++
          (filename.toList ++ ':' :: (Text.decimal number ++ ':' :: (Text.decimal column ++
            ((Ink.margin.paint "]").toList ++ rest.toList))))) := by
  simp [location, spaces, Ink.paint, Ink.code]
  rfl

/-- A header has one line number. -/
theorem number_of_location {filename rest rest' : String}
    {indent number column indent' number' column' : Nat}
    (same : location filename indent number column ++ rest =
      location filename indent' number' column' ++ rest') : number = number' := by
  have noEscape (n : Nat) : '\x1b' ∉ List.replicate n ' ' :=
    fun member => absurd (List.eq_of_mem_replicate member) (by decide)
  have noColon (n : Nat) : ':' ∉ Text.decimal n :=
    fun member => absurd (Text.isDigit_of_mem_decimal member) (by decide)
  have texts := congrArg String.toList same
  rw [toList_location_append, toList_location_append] at texts
  obtain ⟨_, texts⟩ := Text.eq_of_append_cons (noEscape indent) (noEscape indent') texts
  obtain ⟨_, texts⟩ := List.cons.inj (List.append_cancel_left (List.append_cancel_left texts))
  obtain ⟨digits, _⟩ := Text.eq_of_append_cons (noColon number) (noColon number') texts
  calc number
    _ = Nat.ofDigitChars 10 (Text.decimal number) 0 := Nat.ofDigitChars_ten_toDigits.symm
    _ = Nat.ofDigitChars 10 (Text.decimal number') 0 := by rw [digits]
    _ = number' := Nat.ofDigitChars_ten_toDigits

theorem framed_eq_cons (picture : Picture) (filename message : String) :
    ∃ below, picture.framed filename message =
      location filename (picture.numberWidth + 2) picture.number (picture.start + 1) :: below :=
  ⟨_, rfl⟩

theorem report_of_some {fault : ParseFault} {source : String} {line : Text.Line}
    (shown : line? fault source = some line) (filename : String) :
    ∃ indent column rest, report fault source filename =
      title fault ++ "\n" ++ (location filename indent (line.index + 1) column ++ rest) := by
  let picture : Picture :=
    ⟨line, (fault.span source).1 - line.start, (fault.span source).2 - line.start⟩
  obtain ⟨below, framed⟩ := framed_eq_cons picture filename fault.message
  have isPicture : picture? fault source = some picture := by
    rw [picture?, shown]
    rfl
  refine ⟨picture.numberWidth + 2, picture.start + 1,
    "\n" ++ String.join (below.map (· ++ "\n")), ?_⟩
  rw [report, isPicture, Option.map_some, Option.getD_some, framed, List.map_cons, List.map_cons,
    String.join_cons, String.join_cons, title]
  simp only [String.append_assoc]
  rfl

theorem report_of_none {fault : ParseFault} {source : String} (hidden : line? fault source = none)
    (filename : String) : report fault source filename = title fault ++ "\n" ++ "" := by
  have noPicture : picture? fault source = none := by
    rw [picture?, hidden]
    rfl
  rw [report, noPicture, Option.map_none, Option.getD_none, List.map_singleton, String.join_cons,
    String.join_nil, title]

/-- A report has the number of the line that is looked up for it, if there is one. -/
theorem locates_report_iff {fault : ParseFault} {source filename : String} {number : Nat} :
    Locates (report fault source filename) fault filename number ↔
      ∃ line, line? fault source = some line ∧ line.index + 1 = number := by
  constructor
  · rintro ⟨indent, column, rest, same⟩
    cases shown : line? fault source with
    | none =>
        rw [report_of_none shown, String.append_right_inj] at same
        have nothing := congrArg String.toList same
        rw [toList_location_append] at nothing
        simp at nothing
    | some line =>
        obtain ⟨_, _, _, whole⟩ := report_of_some shown filename
        rw [whole, String.append_right_inj] at same
        exact ⟨line, rfl, number_of_location same⟩
  · rintro ⟨line, shown, rfl⟩
    exact report_of_some shown filename

end Report

variable {fault : ParseFault} {source : String} {position : Nat}

theorem line?_of_parse (fails : parse source = .error fault)
    (isPlace : position ∈ fault.position?) :
    Report.line? fault source = Text.lineAt? source.toList position := by
  have start : (fault.span source).1 = position := by
    rw [ParseFault.span, Option.mem_def.mp isPlace]
    exact Nat.min_eq_left (position_le_of_parse fails isPlace)
  rw [Report.line?, start]

/-- Markup in which a fault has a place is not empty. -/
theorem ne_nil_of_parse (fails : parse source = .error fault)
    (isPlace : position ∈ fault.position?) : source.toList ≠ [] := by
  intro isEmpty
  have parsed : parse source = Progress.start.finish source.utf8ByteSize :=
    parse_of_run (by rw [isEmpty]; exact .refl _)
  rw [fails] at parsed
  cases parsed
  cases isPlace

/-- Reports count the position of a fault in characters. -/
theorem locates_iff_of_parse (fails : parse source = .error fault)
    (isPlace : position ∈ fault.position?) {filename : String} {number : Nat} :
    Report.Locates (report fault source filename) fault filename number ↔
      Text.IsInLine List.length source.toList position number := by
  rw [Report.locates_report_iff, line?_of_parse fails isPlace]
  exact Text.exists_lineAt?_iff

/-- A fault is in one line, by bytes. Its report has the number of the line that the fault is
in by characters, if there is one. Where only single bytes are in front of the fault that is
the number of its line and no other. -/
theorem report_names_line (fails : parse source = .error fault)
    (isPlace : position ∈ fault.position?) (filename : String) :
    ∃ number, Text.IsInLine Text.byteLength source.toList position number ∧
      (∀ other, Text.IsInLine Text.byteLength source.toList position other → other = number) ∧
      (∀ named, Report.Locates (report fault source filename) fault filename named ↔
        Text.IsInLine List.length source.toList position named) ∧
      ((∀ c ∈ source.toList.take position, c.utf8Size = 1) →
        ∀ named, Report.Locates (report fault source filename) fault filename named ↔
          named = number) := by
  have within : position ≤ Text.byteLength source.toList := by
    rw [← Text.utf8ByteSize_eq]
    exact position_le_of_parse fails isPlace
  have locates := @locates_iff_of_parse fault source position fails isPlace filename
  obtain ⟨number, inLine⟩ := Text.exists_isInLine Text.byteLength_append
    (ne_nil_of_parse fails isPlace) within
  refine ⟨number, inLine, fun other inOther => ?_, fun _ => locates, fun ascii named => ?_⟩
  · exact inOther.unique Text.byteLength_append inLine
  · have byCharacters := inLine.of_ascii ascii
    rw [locates]
    constructor
    · intro inNamed
      exact inNamed.unique (fun _ _ => List.length_append) byCharacters
    · rintro rfl
      exact byCharacters

theorem parse_open_in_open : parse "<a>\n<b>" = .error (.unclosed "b" 7) := by
  let within (children : List Node) : OpenElement := ⟨"a", [], children⟩
  have outer := @openElement_of_tagName ['a'] (by decide) 0
  have inner := @openElement_of_tagName ['b'] (by decide) 0
  have first : Reading.Step ⟨[], .start, '<' :: "a>\n<b>".toList⟩
      ⟨[['a']], ⟨[within []], none⟩, "\n<b>".toList⟩ :=
    .markup (rfl : takeMarkup 0 _ = .ok (.opening ['a'], 3, _)) rfl
      (Progress.step_eq_ok_iff.mpr (.opening outer (.inl rfl)))
  have space : Reading.Step ⟨[['a']], ⟨[within []], none⟩, ['\n'] ++ "<b>".toList⟩
      ⟨[['a']], ⟨[within [.text "\n"]], none⟩, "<b>".toList⟩ :=
    .text (by decide) (by decide) (fun _ starts => (Option.some.inj starts).symm)
      (Progress.step_eq_ok_iff.mpr (.text rfl) : Progress.step _ ⟨0, _⟩ = .ok _)
  have second : Reading.Step ⟨[['a']], ⟨[within [.text "\n"]], none⟩, '<' :: "b>".toList⟩
      ⟨[['b'], ['a']], ⟨[⟨"b", [], []⟩, within [.text "\n"]], none⟩, []⟩ :=
    .markup (rfl : takeMarkup 0 _ = .ok (.opening ['b'], 3, _)) rfl
      (Progress.step_eq_ok_iff.mpr (.opening inner (.inl rfl)))
  have run : Reading.Run ⟨[], .start, withoutMark "<a>\n<b>".toList⟩ _ :=
    .head first (.head space (.single second))
  exact parse_of_run run

/-- At its end, markup is in its last line. -/
theorem report_names_last_line :
    ∃ fault, parse "<a>\n<b>" = .error fault ∧ 7 ∈ fault.position? ∧
      Text.IsInLine Text.byteLength "<a>\n<b>".toList 7 2 ∧
      Report.Locates (report fault "<a>\n<b>" "icon.svg") fault "icon.svg" 2 := by
  have split : Text.splitLines "<a>\n<b>".toList = ["<a>\n".toList, "<b>".toList] := by decide
  have inLast : Text.IsInLine Text.byteLength "<a>\n<b>".toList 7 2 :=
    ⟨["<a>\n".toList], "<b>".toList, [], split, rfl, by decide, .inr ⟨rfl, rfl⟩⟩
  obtain ⟨number, _, unique, _, ascii⟩ := report_names_line parse_open_in_open rfl "icon.svg"
  obtain rfl := unique 2 inLast
  have single : ("<a>\n<b>".toList.take 7).all (·.utf8Size == 1) := by decide
  have names := ascii fun c member => beq_iff_eq.mp (List.all_eq_true.mp single c member)
  exact ⟨_, parse_open_in_open, rfl, inLast, (names 2).mpr rfl⟩

/-- Two roots in the first line, and a report that names the second. -/
theorem report_names_other_line :
    ∃ fault, parse "<ééééé/><a/>\n\n" = .error fault ∧ 13 ∈ fault.position? ∧
      Text.IsInLine Text.byteLength "<ééééé/><a/>\n\n".toList 13 1 ∧
      Report.Locates (report fault "<ééééé/><a/>\n\n" "icon.svg") fault "icon.svg" 2 ∧
      ¬ Report.Locates (report fault "<ééééé/><a/>\n\n" "icon.svg") fault "icon.svg" 1 := by
  have fails : parse "<ééééé/><a/>\n\n" = .error (.malformed 13 .secondRoot) :=
    parse_secondRoot rfl rfl (by decide) rfl (by decide)
  have locates := @locates_iff_of_parse _ _ 13 fails rfl "icon.svg"
  have split : Text.splitLines "<ééééé/><a/>\n\n".toList = ["<ééééé/><a/>\n".toList, ['\n']] := by
    decide
  have isSecond : Text.IsInLine List.length "<ééééé/><a/>\n\n".toList 13 2 :=
    ⟨["<ééééé/><a/>\n".toList], ['\n'], [], split, rfl, by decide, .inl (by decide)⟩
  have isFirst : Text.IsInLine Text.byteLength "<ééééé/><a/>\n\n".toList 13 1 :=
    ⟨[], "<ééééé/><a/>\n".toList, [['\n']], split, rfl, by decide, .inl (by decide)⟩
  refine ⟨_, fails, rfl, isFirst, locates.mpr isSecond, fun first => ?_⟩
  exact absurd ((locates.mp first).unique (fun _ _ => List.length_append) isSecond) (by decide)

end Markup

end ThemedSvg

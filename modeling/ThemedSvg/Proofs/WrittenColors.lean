/-
# Written colors

A functional notation may be written in many ways. It has two names, there may be white space
around it and in front of its parenthesis, and any commas, slashes and white space may stand
between its words and at both ends of them. Its letters may be of either case. The color depends
on none of this but on the words alone.
-/

import ThemedSvg.Paint.Notation

namespace ThemedSvg.Paint

/-! ## Notations and their words -/

/-- What can be an argument: some characters, none of which separates arguments. -/
def IsArgument (text : List Char) : Prop :=
  text ≠ [] ∧ ∀ c ∈ text, isSeparator c = false

instance (text : List Char) : Decidable (IsArgument text) :=
  @instDecidableAnd _ _ inferInstance (List.decidableBAll _ _)

/-- The functional notations: for red, green and blue, and for hue, saturation and lightness. -/
inductive Family
  | rgb
  | hsl

namespace Family

/-- A notation goes by a second name too, with or without an alpha. -/
def names : Family → List String
  | rgb => ["rgb", "rgba"]
  | hsl => ["hsl", "hsla"]

def channels? : Family → List Char → List Char → List Char → Option Channels
  | rgb => rgbChannels?
  | hsl => hslChannels?

/-- The color of some words, whatever the case of their letters. -/
def ofWords? (family : Family) (words : List (List Char)) : Option Rgba :=
  ofArguments? family.channels? (words.map Text.lowerAscii)

end Family

/-! ## Notations as they are written -/

/-- White space, or nothing. -/
structure Spaces where
  text : List Char
  blank : Text.isBlank text = true

/-- Commas, slashes and white space, or nothing. -/
structure Separators where
  text : List Char
  separate : text.all isSeparator = true

/-- A word with what separates it from the word in front of it or from the parenthesis. -/
structure Argument where
  run : Separators
  word : List Char
  isArgument : IsArgument word

def Argument.written (argument : Argument) : List Char := argument.run.text ++ argument.word

/-- A functional notation as it is written. -/
structure Spelling (family : Family) where
  before : Spaces
  name : String
  isName : name ∈ family.names
  beforeOpening : Spaces
  arguments : List Argument
  apart : ∀ argument ∈ arguments.tail, argument.run.text ≠ []
  beforeClosing : Separators
  after : Spaces

namespace Spelling

variable {family : Family}

def words (spelling : Spelling family) : List (List Char) :=
  spelling.arguments.map (·.word)

/-- What stands between the parentheses. -/
def inside (spelling : Spelling family) : List Char :=
  spelling.arguments.flatMap Argument.written ++ spelling.beforeClosing.text

/-- The notation without the white space around it. -/
def core (spelling : Spelling family) : List Char :=
  spelling.name.toList ++ spelling.beforeOpening.text ++ '(' :: (spelling.inside ++ [')'])

def written (spelling : Spelling family) : List Char :=
  spelling.before.text ++ spelling.core ++ spelling.after.text

end Spelling

theorem Spaces.isSpace (run : Spaces) : ∀ c ∈ run.text, Text.isSpace c = true :=
  (Text.isBlank_iff _).mp run.blank

theorem Separators.isSeparator (run : Separators) : ∀ c ∈ run.text, isSeparator c = true :=
  List.all_eq_true.mp run.separate

/-! ## Letters of either case -/

/-- The same text, but for the case of its letters. -/
def SameLetters (text other : List Char) : Prop := Text.lowerAscii text = Text.lowerAscii other

instance (text other : List Char) : Decidable (SameLetters text other) :=
  inferInstanceAs (Decidable (_ = _))

/-- What separates arguments is the same in letters of either case. -/
theorem isSeparator_toLower (c : Char) : isSeparator c.toLower = isSeparator c := by
  rw [isSeparator, isSeparator, Text.isSpace_toLower]
  rcases Text.toLower_cases c with same | ⟨low, high, moved⟩
  · rw [same]
  · have noMark (mark : Char) (small : mark.toNat < 65) :
        (c.toLower == mark) = false ∧ (c == mark) = false := by
      constructor <;>
        · rw [beq_eq_false_iff_ne]
          rintro rfl
          omega
    rw [(noMark ',' (by decide)).1, (noMark '/' (by decide)).1, (noMark ',' (by decide)).2,
      (noMark '/' (by decide)).2]

theorem isArgument_lowerAscii_iff {text : List Char} :
    IsArgument (Text.lowerAscii text) ↔ IsArgument text := by
  simp [IsArgument, Text.lowerAscii, isSeparator_toLower]

def Spaces.inLowerCase (run : Spaces) : Spaces where
  text := Text.lowerAscii run.text
  blank := by
    simpa [Text.isBlank, Text.lowerAscii, Text.isSpace_toLower] using run.blank

def Separators.inLowerCase (run : Separators) : Separators where
  text := Text.lowerAscii run.text
  separate := by simpa [Text.lowerAscii, isSeparator_toLower] using run.separate

def Argument.inLowerCase (argument : Argument) : Argument where
  run := argument.run.inLowerCase
  word := Text.lowerAscii argument.word
  isArgument := isArgument_lowerAscii_iff.mpr argument.isArgument

namespace Spelling

variable {family : Family} (spelling : Spelling family)

def inLowerCase : Spelling family where
  before := spelling.before.inLowerCase
  name := spelling.name
  isName := spelling.isName
  beforeOpening := spelling.beforeOpening.inLowerCase
  arguments := spelling.arguments.map Argument.inLowerCase
  apart := by
    simpa [← List.map_tail, Argument.inLowerCase, Separators.inLowerCase, Text.lowerAscii] using
      spelling.apart
  beforeClosing := spelling.beforeClosing.inLowerCase
  after := spelling.after.inLowerCase

/-- A notation in lower case has the words of the notation, in lower case. -/
theorem words_inLowerCase : spelling.inLowerCase.words = spelling.words.map Text.lowerAscii := by
  simp [words, inLowerCase, Argument.inLowerCase]

theorem lowerAscii_name : Text.lowerAscii spelling.name.toList = spelling.name.toList := by
  have each : ∀ name ∈ family.names, Text.lowerAscii name.toList = name.toList := by
    cases family <;> decide
  exact each _ spelling.isName

/-- It is written as the notation is, in lower case as well. -/
theorem written_inLowerCase : spelling.inLowerCase.written = Text.lowerAscii spelling.written := by
  have sameName : spelling.name.toList.map Char.toLower = spelling.name.toList :=
    spelling.lowerAscii_name
  simp [written, core, inside, inLowerCase, Spaces.inLowerCase, Separators.inLowerCase,
    Argument.inLowerCase, Argument.written, Text.lowerAscii, List.flatMap_map, List.map_flatMap,
    sameName]

end Spelling

/-! ## Reading -/

/-- A color has three arguments, or four with its alpha. -/
theorem ofArguments?_of_length {channels? : List Char → List Char → List Char → Option Channels}
    {arguments : List (List Char)} (notThree : arguments.length ≠ 3)
    (notFour : arguments.length ≠ 4) : ofArguments? channels? arguments = none := by
  unfold ofArguments?
  split
  · exact absurd rfl notThree
  · exact absurd rfl notFour
  · rfl

namespace Family

/-- The letters by which a notation is told from other paints. -/
def start : Family → List Char
  | rgb => "rgb".toList
  | hsl => "hsl".toList

theorem start_prefix (family : Family) :
    ∀ name ∈ family.names, family.start <+: name.toList := by
  cases family <;> decide

/-- A paint that starts like a notation is read as one, under either name. -/
theorem color?_start (family : Family) (rest : List Char) :
    color? (family.start ++ rest) =
      (arguments? family.names (family.start ++ rest)).bind (ofArguments? family.channels?) := by
  cases family with
  | rgb =>
      rw [color?, if_neg (by simp [start]), if_neg (by simp [start]), if_neg (by simp [start]),
        if_pos (by simp [start])]
      rfl
  | hsl =>
      rw [color?, if_neg (by simp [start]), if_neg (by simp [start]), if_neg (by simp [start]),
        if_neg (by simp [start]), if_pos (by simp [start])]
      rfl

end Family

section

variable {word run rest : List Char}

/-- What separates words makes no word itself. -/
theorem fields_separators (separate : ∀ c ∈ run, isSeparator c = true) :
    Text.fields isSeparator (run ++ rest) = Text.fields isSeparator rest := by
  induction run with
  | nil => rfl
  | cons c more ih =>
      obtain ⟨separates, others⟩ := List.forall_mem_cons.mp separate
      rw [List.cons_append, Text.fields_cons separates, ih others]

/-- A word ends at a separator or with the text. -/
theorem fields_word_append (isArgument : IsArgument word)
    (ends : ∀ c ∈ rest.head?, isSeparator c = true) :
    Text.fields isSeparator (word ++ rest) = word :: Text.fields isSeparator rest := by
  obtain ⟨nonempty, unbroken⟩ := isArgument
  have own := Text.fields_word nonempty unbroken
  cases rest with
  | nil => rw [List.append_nil, own]; rfl
  | cons c more =>
      have separates : isSeparator c = true := ends c rfl
      rw [Text.fields_append_cons separates, own, Text.fields_cons separates, List.singleton_append]

end

namespace Spelling

variable {family : Family} (spelling : Spelling family)

/-- Between the parentheses there are the words, and nothing else is read there. -/
theorem fields_inside : Text.fields isSeparator spelling.inside = spelling.words := by
  obtain ⟨_, _, _, _, arguments, apart, closing, _⟩ := spelling
  simp only [inside, words]
  induction arguments with
  | nil =>
      have nothing := @fields_separators closing.text [] closing.isSeparator
      rw [List.append_nil] at nothing
      exact nothing
  | cons first rest ih =>
      -- the first word ends where the run in front of the next one begins
      have ends : ∀ c ∈ (rest.flatMap Argument.written ++ closing.text).head?,
          isSeparator c = true := by
        intro c isHead
        cases rest with
        | nil => exact closing.isSeparator c (List.mem_of_mem_head? isHead)
        | cons second more =>
            have nonempty : second.run.text ≠ [] := apart second List.mem_cons_self
            obtain ⟨d, run, isRun⟩ := List.exists_cons_of_ne_nil nonempty
            rw [List.flatMap_cons, Argument.written, isRun] at isHead
            cases Option.mem_some.mp isHead
            exact second.run.isSeparator _ (by simp [isRun])
      have later := ih fun argument member => apart argument (List.mem_of_mem_tail member)
      rw [List.flatMap_cons, List.append_assoc, Argument.written, List.append_assoc,
        fields_separators first.run.isSeparator, fields_word_append first.isArgument ends, later,
        List.map_cons]

theorem trim_core : Text.trim spelling.core = spelling.core := by
  have visible : ∀ name ∈ family.names, ∃ c rest, name.toList = c :: rest ∧
      Text.isSpace c = false := by
    cases family <;> simp [Family.names, show Text.isSpace 'r' = false by decide,
      show Text.isSpace 'h' = false by decide]
  obtain ⟨c, rest, isName, notSpace⟩ := visible _ spelling.isName
  have split : spelling.core =
      c :: ((rest ++ spelling.beforeOpening.text ++ '(' :: spelling.inside) ++ [')']) := by
    simp [core, isName]
  rw [split, Text.trim_of_visible notSpace (by decide)]

/-- The arguments of a notation are its words. -/
theorem arguments?_core : arguments? family.names spelling.core = some spelling.words := by
  have plain : ∀ name ∈ family.names, '(' ∉ name.toList ∧ Text.trim name.toList = name.toList := by
    cases family <;> decide
  obtain ⟨noMark, trimmed⟩ := plain _ spelling.isName
  have absent : '(' ∉ spelling.name.toList ++ spelling.beforeOpening.text := by
    intro member
    rcases List.mem_append.mp member with inName | inSpaces
    · exact noMark inName
    · cases spelling.beforeOpening.isSpace _ inSpaces
  have isName : Text.trim (spelling.name.toList ++ spelling.beforeOpening.text) =
      spelling.name.toList := by
    have noSpaces : ∀ c ∈ [], Text.isSpace c = true := List.forall_mem_nil _
    have outer := Text.trim_append noSpaces spelling.beforeOpening.isSpace spelling.name.toList
    rwa [List.nil_append, trimmed] at outer
  have accepted : family.names.any (fun name => name.toList == spelling.name.toList) = true :=
    List.any_eq_true.mpr ⟨_, spelling.isName, beq_self_eq_true _⟩
  rw [arguments?, core, Text.splitFirst_append absent]
  simp only [Option.bind_eq_bind, Option.bind_some, isName, accepted, if_true]
  rw [Text.dropEnding?_append, Option.bind_some, fields_inside]
  rfl

theorem color?_core :
    color? spelling.core = ofArguments? family.channels? spelling.words := by
  obtain ⟨more, isName⟩ := family.start_prefix _ spelling.isName
  have told := family.color?_start
    (more ++ spelling.beforeOpening.text ++ '(' :: (spelling.inside ++ [')']))
  have isCore : spelling.core = family.start ++
      (more ++ spelling.beforeOpening.text ++ '(' :: (spelling.inside ++ [')'])) := by
    simp [core, ← isName]
  rw [← isCore, arguments?_core, Option.bind_some] at told
  exact told

/-- A functional notation is read word by word. -/
theorem read?_written {value : String} (sameLetters : SameLetters value.toList spelling.written) :
    Rgba.read? value = family.ofWords? spelling.words := by
  rw [SameLetters] at sameLetters
  rw [Rgba.read?, Text.lowerAscii_trim, sameLetters, ← written_inLowerCase, written,
    Text.trim_append spelling.inLowerCase.before.isSpace spelling.inLowerCase.after.isSpace,
    trim_core, color?_core, words_inLowerCase, Family.ofWords?]

/-- Notations of the same words spell the same color or none, by either name, with whatever
stands between the words and around them, and in letters of whatever case; and none unless there
are three words or four. -/
theorem sameWords_read? {other : Spelling family} (sameWords : spelling.words = other.words)
    {value value' : String} (sameLetters : SameLetters value.toList spelling.written)
    (sameLetters' : SameLetters value'.toList other.written) :
    Rgba.read? value = Rgba.read? value' ∧ Rgba.read? value = family.ofWords? spelling.words ∧
      (spelling.words.length ≠ 3 → spelling.words.length ≠ 4 → Rgba.read? value = none) := by
  have isRead := spelling.read?_written sameLetters
  have isRead' := other.read?_written sameLetters'
  refine ⟨?_, isRead, ?_⟩
  · rw [isRead, isRead', sameWords]
  · intro notThree notFour
    rw [isRead, Family.ofWords?]
    exact ofArguments?_of_length (by simpa using notThree) (by simpa using notFour)

/-- A turn of the hue to green, with marks and white space wherever they may stand. -/
def crooked : Spelling .hsl where
  before := ⟨['\t'], by decide⟩
  name := "hsla"
  isName := by decide
  beforeOpening := ⟨['\u00a0', ' '], by decide⟩
  arguments := [⟨⟨['/'], by decide⟩, "120deg".toList, by decide⟩,
    ⟨⟨[' ', ','], by decide⟩, "1e2%".toList, by decide⟩,
    ⟨⟨['\n'], by decide⟩, "50%".toList, by decide⟩]
  apart := by decide
  beforeClosing := ⟨[',', ','], by decide⟩
  after := ⟨[' '], by decide⟩

/-- The same words with spaces between them. -/
def straight : Spelling .hsl where
  before := ⟨[], by decide⟩
  name := "hsl"
  isName := by decide
  beforeOpening := ⟨[], by decide⟩
  arguments := [⟨⟨[], by decide⟩, "120deg".toList, by decide⟩,
    ⟨⟨[' '], by decide⟩, "1e2%".toList, by decide⟩,
    ⟨⟨[' '], by decide⟩, "50%".toList, by decide⟩]
  apart := by decide
  beforeClosing := ⟨[], by decide⟩
  after := ⟨[], by decide⟩

theorem sameWords_read?_crooked :
    Rgba.read? "\tHSLa\u00a0 (/120Deg ,1E2%\n50%,,) " = Rgba.read? "hsl(120deg 1e2% 50%)" ∧
      Rgba.read? "hsl(120deg 1e2% 50%)" = some ⟨0, 255, 0, 1⟩ := by
  have same := crooked.sameWords_read? (show crooked.words = straight.words by decide)
    (show SameLetters "\tHSLa\u00a0 (/120Deg ,1E2%\n50%,,) ".toList crooked.written by decide)
    (show SameLetters "hsl(120deg 1e2% 50%)".toList straight.written by decide)
  exact ⟨same.1, by decide +kernel⟩

end Spelling

/-! ## One way to write it -/

/-- A functional notation with a comma and a space between its arguments. -/
def call (name : String) (words : List (List Char)) : List Char :=
  name.toList ++ '(' :: ([',', ' '].intercalate words ++ [')'])

/-- Words with a comma and a space in front of each but the first. -/
def listed : (words : List (List Char)) → (∀ word ∈ words, IsArgument word) → List Argument
  | [], _ => []
  | first :: rest, each =>
      ⟨⟨[], rfl⟩, first, each first List.mem_cons_self⟩ ::
        rest.pmap (fun word isArgument => ⟨⟨[',', ' '], by decide⟩, word, isArgument⟩)
          fun word member => each word (List.mem_cons_of_mem _ member)

section

variable {words : List (List Char)} (each : ∀ word ∈ words, IsArgument word)

theorem map_word_listed : (listed words each).map (·.word) = words := by
  cases words with
  | nil => rfl
  | cons first rest => simp [listed, List.map_pmap]

theorem apart_listed : ∀ argument ∈ (listed words each).tail, argument.run.text ≠ [] := by
  cases words with
  | nil => exact List.forall_mem_nil _
  | cons first rest =>
      intro argument member
      obtain ⟨word, -, rfl⟩ := List.mem_pmap.mp member
      exact List.cons_ne_nil _ _

theorem flatMap_written_listed :
    (listed words each).flatMap Argument.written = [',', ' '].intercalate words := by
  cases words with
  | nil => rfl
  | cons first rest =>
      induction rest generalizing first with
      | nil => simp [listed, Argument.written]
      | cons second more ih =>
          have later := ih second fun word member => each word (List.mem_cons_of_mem _ member)
          rw [List.intercalate_cons_cons, ← later]
          simp [listed, Argument.written]

end

/-- The notation that the canonical texts of colors have. -/
def Spelling.plain {family : Family} {name : String} (isName : name ∈ family.names)
    {words : List (List Char)} (each : ∀ word ∈ words, IsArgument word) : Spelling family where
  before := ⟨[], rfl⟩
  name := name
  isName := isName
  beforeOpening := ⟨[], rfl⟩
  arguments := listed words each
  apart := apart_listed each
  beforeClosing := ⟨[], rfl⟩
  after := ⟨[], rfl⟩

/-- What is written in this one way is read word by word as well. -/
theorem read?_call {family : Family} {name : String} (isName : name ∈ family.names)
    {words : List (List Char)} (each : ∀ word ∈ words, IsArgument word) :
    Rgba.read? (String.ofList (call name words)) = family.ofWords? words := by
  have isWritten : (Spelling.plain isName each).written = call name words := by
    simp [Spelling.written, Spelling.core, Spelling.inside, Spelling.plain, call,
      flatMap_written_listed]
  have sameLetters : SameLetters (String.ofList (call name words)).toList
      (Spelling.plain isName each).written := by
    rw [isWritten, String.toList_ofList]
    rfl
  rw [Spelling.read?_written _ sameLetters, Spelling.words, Spelling.plain, map_word_listed]

end ThemedSvg.Paint

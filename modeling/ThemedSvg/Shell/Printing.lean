/-
# Printing of shells

Two builtins write their arguments: `echo` as they are and `printf` as a format says.
Both know characters that are spelled with backslashes. A format is written again until
all arguments have been taken.
-/

import ThemedSvg.Number.Binary64
import ThemedSvg.Shell.Arithmetic

namespace ThemedSvg.Shell

open Tool (Octets digitsOf octalDigit?)

namespace Printing

/-- The value of octal digits at the front, at most so many, and what is behind them. -/
def octal : Nat → Nat → Octets → Nat × Octets
  | 0, value, text => (value, text)
  | _ + 1, value, [] => (value, [])
  | count + 1, value, c :: rest =>
      match octalDigit? c with
      | some digit => octal count (8 * value + digit) rest
      | none => (value, c :: rest)

/-- The character behind a backslash, and what is behind it. Where there is no meaning the
backslash stays. -/
def escaped (text : Octets) : Char × Octets :=
  match text with
  | [] => ('\\', [])
  | c :: rest =>
      match c with
      | '\\' => ('\\', rest)
      | 'a' => ('\x07', rest)
      | 'b' => ('\x08', rest)
      | 'e' => ('\x1b', rest)
      | 'f' => ('\x0c', rest)
      | 'n' => ('\n', rest)
      | 'r' => ('\r', rest)
      | 't' => ('\t', rest)
      | 'v' => ('\x0b', rest)
      | c =>
          if (octalDigit? c).isSome then
            let (value, rest) := octal 3 0 (c :: rest)
            (Char.ofNat (value % 256), rest)
          else ('\\', c :: rest)

/-- A text with its escapes replaced, and whether one of them ends all writing. `fuel`
bounds the characters. -/
def unescape : Nat → Octets → Octets × Bool
  | 0, _ => ([], false)
  | _ + 1, [] => ([], false)
  | _ + 1, '\\' :: 'c' :: _ => ([], true)
  | fuel + 1, '\\' :: '0' :: rest =>
      let (value, rest) := octal 3 0 rest
      let (text, ends) := unescape fuel rest
      (Char.ofNat (value % 256) :: text, ends)
  | fuel + 1, '\\' :: rest =>
      let (c, rest) := escaped rest
      let (text, ends) := unescape fuel rest
      (c :: text, ends)
  | fuel + 1, c :: rest =>
      let (text, ends) := unescape fuel rest
      (c :: text, ends)

/-- What `echo` writes. -/
def echo (args : List Octets) : Octets :=
  let (words, ending) :=
    match args with
    | ['-', 'n'] :: words => (words, [])
    | words => (words, ['\n'])
  let joined := List.intercalate [' '] words
  let (text, ends) := unescape (joined.length + 1) joined
  if ends then text else text ++ ending

/-- How a value is written: the signs that ask for something, the least width, and the
precision. -/
structure Layout where
  flags : Octets
  width : Nat
  precision : Option Nat
  deriving DecidableEq, Repr

namespace Layout

def has (layout : Layout) (flag : Char) : Bool := layout.flags.contains flag

/-- Fills a text up to the width with blanks. -/
def fill (layout : Layout) (text : Octets) : Octets :=
  let blanks := List.replicate (layout.width - text.length) ' '
  if layout.has '-' then text ++ blanks else blanks ++ text

/-- Cuts a text to the precision. -/
def cut (layout : Layout) (text : Octets) : Octets :=
  match layout.precision with
  | some count => text.take count
  | none => text

/-- A number from its sign, what stands in front of its digits, and its digits. -/
def number (layout : Layout) (sign front digits : Octets) : Octets :=
  let digits :=
    match layout.precision with
    | some 0 => if digits = ['0'] then [] else digits
    | some count => List.replicate (count - digits.length) '0' ++ digits
    | none => digits
  let zeros :=
    if layout.has '0' && !layout.has '-' && layout.precision.isNone then
      List.replicate (layout.width - sign.length - front.length - digits.length) '0'
    else []
  layout.fill (sign ++ front ++ zeros ++ digits)

/-- A number with a sign. -/
def signed (layout : Layout) (value : Int) : Octets :=
  let sign :=
    if value < 0 then ['-'] else if layout.has '+' then ['+']
    else if layout.has ' ' then [' '] else []
  layout.number sign [] (digitsOf value.natAbs)

/-- A number without a sign, by the letter that asks for it. -/
def unsigned (layout : Layout) (letter : Char) (value : Nat) : Octets :=
  match letter with
  | 'o' =>
      let digits := Nat.toDigits 8 value
      let digits := if layout.has '#' && value ≠ 0 then '0' :: digits else digits
      let precision :=
        if layout.has '#' && layout.precision = some 0 then some 1 else layout.precision
      { layout with precision := precision }.number [] [] digits
  | 'x' =>
      let front := if layout.has '#' && value ≠ 0 then ['0', 'x'] else []
      layout.number [] front (Nat.toDigits 16 value)
  | 'X' =>
      let front := if layout.has '#' && value ≠ 0 then ['0', 'X'] else []
      layout.number [] front ((Nat.toDigits 16 value).map Char.toUpper)
  | _ => layout.number [] [] (digitsOf value)

/-- A number that need not be whole, by the letter that asks for its form. -/
def real (layout : Layout) (letter : Char) (negative : Bool) (value : Binary64) : Octets :=
  let sign :=
    if negative then ['-'] else if layout.has '+' then ['+']
    else if layout.has ' ' then [' '] else []
  let text := value.text letter.toLower (layout.precision.getD 6) (layout.has '#')
  let text := if letter.isUpper then text.map Char.toUpper else text
  let isFinite := text.any Char.isDigit
  let zeros :=
    if isFinite && layout.has '0' && !layout.has '-' then
      List.replicate (layout.width - sign.length - text.length) '0'
    else []
  layout.fill (sign ++ zeros ++ text)

end Layout

/-- Why writing ends early: an escape asks for it, or the format is wrong. -/
inductive Stop
  | asked
  | refused (message : Octets)
  deriving DecidableEq, Repr

/-- Where writing stands: the arguments that are left, what has been written, and what
there was to complain about. -/
structure Printer where
  args : List Octets
  output : Octets
  complaints : List Octets
  deriving DecidableEq, Repr

/-- Writes until it is done or ends early. -/
abbrev Print := ExceptT Stop (StateM Printer)

/-- The next argument. -/
def next? : Print (Option Octets) := do
  let printer ← get
  match printer.args with
  | [] => return none
  | first :: rest =>
      set { printer with args := rest }
      return some first

def put (text : Octets) : Print Unit :=
  modify fun printer => { printer with output := printer.output ++ text }

def complain (message : Octets) : Print Unit :=
  modify fun printer => { printer with complaints := printer.complaints ++ [message] }

/-- The number at the front of a text, unless there is none, with what is behind it. -/
def numberAt? (text : Octets) : Option (Int × Octets) :=
  let start := text.dropWhile Term.isBlank
  let (negative, digits) :=
    match start with
    | '-' :: rest => (true, rest)
    | '+' :: rest => (false, rest)
    | rest => (false, rest)
  let (value, rest) := Term.readNumber digits
  if rest.length = digits.length then none
  else some (if negative then -Int.ofNat value else Int.ofNat value, rest)

/-- The next argument as a number in the given range. A quote in front asks for the number
of the character behind it. -/
def nextNumber (least greatest : Int) : Print Int := do
  match ← next? with
  | none => return 0
  | some text =>
      match text with
      | '"' :: rest | '\'' :: rest => return Int.ofNat ((rest.head?.getD '\x00').toNat)
      | text =>
          match numberAt? text with
          | none =>
              if !text.isEmpty then complain (text ++ ": expected numeric value".toList)
              return 0
          | some (value, rest) =>
              let kept := max least (min greatest value)
              if !rest.isEmpty then complain (text ++ ": not completely converted".toList)
              else if kept ≠ value then
                complain (text ++ ": Numerical result out of range".toList)
              return kept

/-- The next argument as a number with a sign. -/
def nextSigned : Print Int :=
  nextNumber (-Int.ofNat (Term.greatest + 1)) (Int.ofNat Term.greatest)

/-- The next argument as a number without a sign. A negative one counts from the end. -/
def nextUnsigned : Print Nat := do
  let greatest := Int.ofNat (2 * Term.greatest + 1)
  return Term.bits (← nextNumber (-greatest) greatest)

/-- The next argument as a number that need not be whole, with its sign. -/
def nextReal : Print (Bool × Binary64) := do
  let zero := Binary64.finite 0 Binary64.leastExponent
  match ← next? with
  | none => return (false, zero)
  | some text =>
      match text with
      | '"' :: rest | '\'' :: rest =>
          return (false, Binary64.nearest (rest.head?.getD '\x00').toNat 1)
      | text =>
          let (negative, digits) := Binary32.readSign (text.dropWhile Term.isBlank)
          match Binary64.read? digits with
          | none =>
              if !text.isEmpty then complain (text ++ ": expected numeric value".toList)
              return (false, zero)
          | some (value, rest) =>
              let read := digits.take (digits.length - rest.length)
              let isWord := read.head?.any Char.isAlpha
              let isNonzero := (read.takeWhile fun c => c.isDigit || c == '.').any fun c =>
                c.isDigit && c != '0'
              if !rest.isEmpty then complain (text ++ ": not completely converted".toList)
              else if !isWord && isNonzero && !value.isOrdinary then
                complain (text ++ ": Numerical result out of range".toList)
              return (negative, value)

/-- A format without the characters at its front that belong to a class. -/
def span (isMember : Char → Bool) (format : Octets) : Octets × Octets :=
  (format.takeWhile isMember, format.dropWhile isMember)

/-- A width or a precision: digits, or a star that takes it from the arguments. It has 32
bits. -/
def measure (format : Octets) : Print (Int × Octets) := do
  match format with
  | '*' :: rest => return ((← nextSigned).bmod (Nat.pow 2 32), rest)
  | format =>
      let (digits, rest) := span (fun c => c.isDigit || c == '*') format
      return (Int.ofNat (Term.valueOf 10 (digits.takeWhile Char.isDigit)), rest)

/-- Writes what a directive asks for, and tells what is behind it in the format. -/
def directive (format : Octets) : Print Octets := do
  let (flags, rest) := span "#-+ 0".toList.contains format
  let (width, rest) ← measure rest
  let (precision, rest) ←
    match rest with
    | '.' :: rest => do
        let (precision, rest) ← measure rest
        pure (some precision, rest)
    | rest => pure (none, rest)
  let flags := if width < 0 then '-' :: flags else flags
  let precision := (precision.filter (0 ≤ ·)).map Int.toNat
  let layout : Layout := ⟨flags, width.natAbs, precision⟩
  match rest with
  | [] => throw (.refused "missing format character".toList)
  | letter :: rest' =>
      match letter with
      | 'b' =>
          let text := (← next?).getD []
          let (text, ends) := unescape (text.length + 1) text
          put (layout.fill (layout.cut text))
          if ends then throw .asked
      | 'c' => put (layout.fill [((← next?).getD []).head?.getD '\x00'])
      | 's' => put (layout.fill (layout.cut ((← next?).getD [])))
      | 'd' | 'i' => put (layout.signed (← nextSigned))
      | 'e' | 'E' | 'f' | 'F' | 'g' | 'G' => do
          let (negative, value) ← nextReal
          put (layout.real letter negative value)
      | 'o' | 'u' | 'x' | 'X' => put (layout.unsigned letter (← nextUnsigned))
      | _ =>
          let spelled := '%' :: format.take (format.length - rest'.length)
          throw (.refused (spelled ++ ": invalid directive".toList))
      return rest'

/-- Writes a format once. `fuel` bounds its characters. -/
def once : Nat → Octets → Print Unit
  | 0, _ => pure ()
  | fuel + 1, format => do
      match format with
      | [] => pure ()
      | '\\' :: rest =>
          let (c, rest) := escaped rest
          put [c]
          once fuel rest
      | '%' :: '%' :: rest =>
          put ['%']
          once fuel rest
      | '%' :: rest => once fuel (← directive rest)
      | c :: rest =>
          put [c]
          once fuel rest

/-- Writes a format until all arguments are taken, if it takes any. `fuel` bounds how
often. -/
def repeated (format : Octets) : Nat → Print Unit
  | 0 => pure ()
  | fuel + 1 => do
      let before := (← get).args.length
      once (format.length + 1) format
      let after := (← get).args.length
      if 0 < after && after < before then repeated format fuel

/-- What `printf` writes and complains about, and what is wrong with its format. -/
def printf (format : Octets) (args : List Octets) : Printer × Option Octets :=
  let (result, printer) :=
    Id.run (StateT.run (ExceptT.run (repeated format (args.length + 1))) ⟨args, [], []⟩)
  match result with
  | .error (.refused message) => (printer, some message)
  | _ => (printer, none)

end Printing

end ThemedSvg.Shell

/-
# Single-precision numbers

Color components are scaled and rounded in the 32-bit binary format of IEEE 754.
A finite number is held as sign, significand and exponent; every operation takes
the exact rational result and rounds it once, to the nearest number of the format
and to the even one of two that are equally near. Signed zeros, infinities and
NaN follow the standard, because each of them can be spelled in a color.
-/

namespace ThemedSvg

/-- A number of the format. `finite s m e` stands for `m · 2 ^ e`, negated when
`s`; the significand has at most 24 bits, and 24 unless `e = -149`. -/
inductive Binary32
  | nan
  | infinite (negative : Bool)
  | finite (negative : Bool) (significand : Nat) (exponent : Int)
  deriving DecidableEq, Repr

namespace Binary32

/-- The significands below this one are those of the numbers nearest to zero. -/
def fullSignificand : Nat := Nat.pow 2 23

/-- The smallest exponent of a finite number. -/
def leastExponent : Int := -149

/-- The largest exponent of a finite number. -/
def greatestExponent : Int := 104

/-- Zero of either sign. -/
def zero (negative : Bool) : Binary32 := finite negative 0 leastExponent

/-- `2 ^ e`, or one when `e` is negative. -/
def powerAbove (e : Int) : Nat := Nat.pow 2 e.toNat

/-- The greatest `k` with `2 ^ k ≤ num / den`, for positive `num` and `den`. -/
def binaryOrder (num den : Nat) : Int :=
  let guess : Int := (num.log2 : Int) - den.log2
  if den * powerAbove guess ≤ num * powerAbove (-guess) then guess else guess - 1

/-- The nearest integer to `num / den`; a half goes to the even neighbour. -/
def nearestEven (num den : Nat) : Nat :=
  let below := num / den
  let twice := 2 * (num % den)
  if twice < den then below
  else if den < twice then below + 1
  else if below % 2 = 0 then below else below + 1

/-- The number of the format nearest to `num / den`, with the given sign. -/
def nearest (negative : Bool) (num den : Nat) : Binary32 :=
  if num = 0 then zero negative
  else
    let exponent := max (binaryOrder num den - 23) leastExponent
    let significand := nearestEven (num * powerAbove (-exponent)) (den * powerAbove exponent)
    let (significand, exponent) :=
      if significand = 2 * fullSignificand then (fullSignificand, exponent + 1)
      else (significand, exponent)
    if greatestExponent < exponent then infinite negative
    else finite negative significand exponent

/-- The number nearest to `m · 2 ^ e`, with the given sign. -/
def scaled (negative : Bool) (m : Nat) (e : Int) : Binary32 :=
  nearest negative (m * powerAbove e) (powerAbove (-e))

/-- A natural number, rounded if it needs more than 24 bits. -/
def ofNat (n : Nat) : Binary32 := nearest false n 1

instance (n : Nat) : OfNat Binary32 n := ⟨ofNat n⟩

/-- Negates a magnitude. -/
def withSign (negative : Bool) (n : Nat) : Int := if negative then -n else n

def isNan : Binary32 → Bool
  | nan => true
  | _ => false

def neg : Binary32 → Binary32
  | nan => nan
  | infinite s => infinite !s
  | finite s m e => finite (!s) m e

def abs : Binary32 → Binary32
  | nan => nan
  | infinite _ => infinite false
  | finite _ m e => finite false m e

/-- Adds exactly and rounds. A sum of zero is negative only if both terms are. -/
def add : Binary32 → Binary32 → Binary32
  | nan, _ | _, nan => nan
  | infinite s, infinite t => if s = t then infinite s else nan
  | infinite s, finite .. => infinite s
  | finite .., infinite t => infinite t
  | finite s m e, finite t n f =>
      let unit := min e f
      let sum := withSign s (m * powerAbove (e - unit)) + withSign t (n * powerAbove (f - unit))
      if sum = 0 then zero (s && t) else scaled (decide (sum < 0)) sum.natAbs unit

def sub (a b : Binary32) : Binary32 := add a (neg b)

def mul : Binary32 → Binary32 → Binary32
  | nan, _ | _, nan => nan
  | infinite s, infinite t => infinite (s != t)
  | infinite s, finite t m _ | finite s m _, infinite t =>
      if m = 0 then nan else infinite (s != t)
  | finite s m e, finite t n f => scaled (s != t) (m * n) (e + f)

def div : Binary32 → Binary32 → Binary32
  | nan, _ | _, nan => nan
  | infinite _, infinite _ => nan
  | infinite s, finite t _ _ => infinite (s != t)
  | finite s _ _, infinite t => zero (s != t)
  | finite s m e, finite t n f =>
      if n = 0 then if m = 0 then nan else infinite (s != t)
      else nearest (s != t) (m * powerAbove (e - f)) (n * powerAbove (f - e))

instance : Add Binary32 := ⟨add⟩
instance : Sub Binary32 := ⟨sub⟩
instance : Mul Binary32 := ⟨mul⟩
instance : Div Binary32 := ⟨div⟩

/-- The largest integer not above. -/
def floor : Binary32 → Binary32
  | finite s m e =>
      let unit := powerAbove (-e)
      let m := m * powerAbove e
      let below := m / unit
      scaled s (if s && m % unit != 0 then below + 1 else below) 0
  | x => x

/-- The nearest integer; a half goes away from zero. -/
def round : Binary32 → Binary32
  | finite s m e =>
      let unit := powerAbove (-e)
      scaled s ((2 * (m * powerAbove e) + unit) / (2 * unit)) 0
  | x => x

/-- Less than; NaN is not less than anything, nor anything less than it. -/
def lt : Binary32 → Binary32 → Bool
  | nan, _ | _, nan => false
  | infinite s, infinite t => s && !t
  | infinite s, finite .. => s
  | finite .., infinite t => !t
  | finite s m e, finite t n f =>
      let unit := min e f
      withSign s (m * powerAbove (e - unit)) < withSign t (n * powerAbove (f - unit))

/-- Less than or equal, false if NaN takes part. -/
def le (a b : Binary32) : Bool := !a.isNan && !b.isNan && !lt b a

/-- Equal as numbers: the zeros are equal, NaN is equal to nothing. -/
def sameNumber (a b : Binary32) : Bool := le a b && le b a

/-- Moves a number into a range. NaN and a zero of either sign at a bound stay. -/
def clamp (low high x : Binary32) : Binary32 :=
  if lt x low then low else if lt high x then high else x

/-- The smaller number; NaN gives way to the other. -/
def smaller (a b : Binary32) : Binary32 :=
  if a.isNan then b else if b.isNan || lt a b then a else b

/-- The integer part as a byte: 0 below the range and for NaN, 255 above it. -/
def toByte : Binary32 → Nat
  | nan => 0
  | infinite s => if s then 0 else 255
  | finite s m e => if s then 0 else min 255 (m * powerAbove e / powerAbove (-e))

/-- The nearest integer of a number's magnitude; a half goes to the even one. -/
def toNatEven : Binary32 → Nat
  | finite _ m e => nearestEven (m * powerAbove e) (powerAbove (-e))
  | _ => 0

/-- The bits of a sign: the highest of 32. -/
def signBits (negative : Bool) : Nat := if negative then 256 * fullSignificand else 0

/-- The 32 bits of a number; NaN has no unique ones. -/
def bits? : Binary32 → Option Nat
  | nan => none
  | infinite s => some (signBits s + 255 * fullSignificand)
  | finite s m e =>
      if m < fullSignificand then some (signBits s + m)
      else some (signBits s + (e + 150).toNat * fullSignificand + (m - fullSignificand))

end Binary32

end ThemedSvg

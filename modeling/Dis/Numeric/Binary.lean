/-! Powers and sums of numbers are those of the core library, whatever else is in view. -/

namespace Dis

attribute [scoped instance (high)] instPowNat Zero.ofOfNat0
attribute [default_instance (high + 1)] instPowNat

/-! Rounding a quotient of naturals to the nearest integer. -/

/-- The integer nearest to `num / den`; a tie goes to the even neighbour. -/
def roundHalfEven (num den : Nat) : Nat :=
  let low := num / den
  let twice := 2 * (num % den)
  if twice < den then low
  else if den < twice then low + 1
  else low + low % 2

/-- The signed form: the magnitude is rounded and keeps its sign. -/
def roundHalfEvenInt (num : Int) (den : Nat) : Int :=
  if num < 0 then -(roundHalfEven num.natAbs den : Int) else roundHalfEven num.natAbs den

end Dis

/-! Words of so many bits in two's complement. -/

namespace Dis.Word

def least (bits : Nat) : Int := -(2 ^ (bits - 1))
def greatest (bits : Nat) : Int := 2 ^ (bits - 1) - 1

def fits (bits : Nat) (n : Int) : Bool := least bits ≤ n && n ≤ greatest bits

end Dis.Word

/-! Binary interchange formats, taken as exact numbers.
A magnitude word is the encoding without its sign bit. Every finite magnitude
is a whole number of `2 ^ -scale`, so arithmetic on the values is arithmetic on
naturals. Words at or above `infinity` stand for infinity and for NaN. -/

namespace Dis

structure BinaryFormat where
  fractionBits : Nat
  exponentBits : Nat

namespace BinaryFormat

def double : BinaryFormat := ⟨52, 11⟩
def single : BinaryFormat := ⟨23, 8⟩

variable (format : BinaryFormat)

-- The least positive magnitude is `2 ^ -scale`.
def scale : Nat := 2 ^ (format.exponentBits - 1) - 2 + format.fractionBits

def infinity : Nat := (2 ^ format.exponentBits - 1) * 2 ^ format.fractionBits

def quietBit : Nat := 2 ^ (format.fractionBits - 1)

/-- A finite magnitude in units of `2 ^ -scale`. -/
def units (word : Nat) : Nat :=
  let exponent := word / 2 ^ format.fractionBits
  let fraction := word % 2 ^ format.fractionBits
  if exponent = 0 then fraction
  else (2 ^ format.fractionBits + fraction) * 2 ^ (exponent - 1)

/-- The magnitude nearest to `num / den`, ties to even; past the largest finite
one it is `infinity`. The last `shift` bits of the value in units fall away, and a
carry out of the fraction lands in the exponent by itself. -/
def nearest (num den : Nat) : Nat :=
  let value := num * 2 ^ format.scale
  let shift := Nat.log2 (value / den) - format.fractionBits
  min format.infinity
    (shift * 2 ^ format.fractionBits + roundHalfEven value (den * 2 ^ shift))

end BinaryFormat

/-! Double-precision numbers as 64-bit words, with exact arithmetic on their values. -/

structure Binary64 where
  bits : UInt64
  deriving DecidableEq, Inhabited

namespace Binary64

open BinaryFormat (double)

def ofMagnitude (negative : Bool) (word : Nat) : Binary64 :=
  ⟨UInt64.ofNat (word + if negative then 2 ^ 63 else 0)⟩

def zero : Binary64 := ⟨0⟩
def one : Binary64 := ⟨0x3FF0000000000000⟩
def nan : Binary64 := ⟨0x7FF8000000000000⟩

variable (x y : Binary64)

def isNegative : Bool := 2 ^ 63 ≤ x.bits.toNat
def magnitude : Nat := x.bits.toNat % 2 ^ 63
def isFinite : Bool := x.magnitude < double.infinity
def isInfinite : Bool := x.magnitude = double.infinity
def isNaN : Bool := double.infinity < x.magnitude

/-- A finite number in units of `2 ^ -1074`. -/
def units : Int :=
  if x.isNegative then -(double.units x.magnitude : Int) else double.units x.magnitude

def nearest (negative : Bool) (num den : Nat) : Binary64 :=
  ofMagnitude negative (double.nearest num den)

def infinity (negative : Bool) : Binary64 := ofMagnitude negative double.infinity

/-- An exact value, given in units of `1 / den`, rounded once. -/
def nearestInt (num : Int) (den : Nat) : Binary64 :=
  nearest (num < 0) num.natAbs den

/-- Equality of values: the two zeros agree and NaN agrees with nothing. -/
def sameValue : Bool :=
  !x.isNaN && !y.isNaN && (x.bits == y.bits || (x.magnitude == 0 && y.magnitude == 0))

def truncate : Int := x.units.tdiv (2 ^ double.scale : Nat)

def mul : Binary64 :=
  let negative := x.isNegative != y.isNegative
  if x.isNaN || y.isNaN then nan
  else if x.isInfinite || y.isInfinite then
    if x.magnitude = 0 || y.magnitude = 0 then nan else infinity negative
  else nearest negative (double.units x.magnitude * double.units y.magnitude)
    (2 ^ (2 * double.scale))

/-- Sum with a single rounding; an exact zero is negative only if both terms are. -/
def add : Binary64 :=
  if x.isNaN || y.isNaN then nan
  else if x.isInfinite then
    if y.isInfinite && x.isNegative != y.isNegative then nan else x
  else if y.isInfinite then y
  else
    let sum := x.units + y.units
    if sum = 0 then ofMagnitude (x.isNegative && y.isNegative) 0
    else nearestInt sum (2 ^ double.scale)

def divNat (n : Nat) : Binary64 := nearestInt x.units (n * 2 ^ double.scale)

def ofInt? (n : Int) : Option Binary64 :=
  let x := nearestInt n 1
  if x.isFinite then some x else none

end Binary64

/-! Single-precision words and the two conversions between them and doubles.
A NaN keeps its sign and its leading payload bits and becomes quiet. -/

structure Binary32 where
  bits : UInt32
  deriving DecidableEq

namespace Binary32

open BinaryFormat (single double)

def ofMagnitude (negative : Bool) (word : Nat) : Binary32 :=
  ⟨UInt32.ofNat (word + if negative then 2 ^ 31 else 0)⟩

variable (x : Binary32)

def isNegative : Bool := 2 ^ 31 ≤ x.bits.toNat
def magnitude : Nat := x.bits.toNat % 2 ^ 31

-- Bits of a double's fraction that a single has no room for.
def spareBits : Nat := double.fractionBits - single.fractionBits

/-- Every single is a double: nothing is rounded here. -/
def widen : Binary64 :=
  if single.infinity < x.magnitude then
    let payload := (x.magnitude - single.infinity) * 2 ^ spareBits
    .ofMagnitude x.isNegative (double.infinity + (payload ||| double.quietBit))
  else if x.magnitude = single.infinity then .infinity x.isNegative
  else .nearest x.isNegative (single.units x.magnitude) (2 ^ single.scale)

/-- The nearest single, ties to even. A finite number that would become
infinite has none. -/
def narrow? (x : Binary64) : Option Binary32 :=
  if x.isNaN then
    let payload := (x.magnitude - double.infinity) / 2 ^ spareBits
    some (ofMagnitude x.isNegative (single.infinity + (payload ||| single.quietBit)))
  else if x.isInfinite then some (ofMagnitude x.isNegative single.infinity)
  else
    let word := single.nearest (double.units x.magnitude) (2 ^ double.scale)
    if word = single.infinity then none else some (ofMagnitude x.isNegative word)

end Binary32
end Dis

/-! Signed 16-bit fixed point in eighths: a word `n` stands for `n / 8`. -/

namespace Dis.FixedPoint

open BinaryFormat (double)

def scale : Nat := 8
def least : Int := -(2 ^ 15)
def greatest : Int := 2 ^ 15 - 1

/-- The exact value of a word. -/
def toBinary64 (word : Int) : Binary64 := .nearestInt word scale

inductive Refusal where
  | nan
  | infinite
  | outside
  deriving DecidableEq

/-- The nearest word, ties to even. The range is checked after rounding. A
number whose eightfold exceeds every finite double counts as infinite. -/
def ofBinary64 (x : Binary64) : Except Refusal Int :=
  if x.isNaN then .error .nan
  else if x.isInfinite || 2 ^ (1024 + double.scale) ≤ scale * double.units x.magnitude then
    .error .infinite
  else
    let word := roundHalfEvenInt (x.units * scale) (2 ^ double.scale)
    if least ≤ word ∧ word ≤ greatest then .ok word else .error .outside

end Dis.FixedPoint

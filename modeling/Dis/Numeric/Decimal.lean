import Dis.Text

/-! Decimal numerals `±digits * 10 ^ exponent` and the doubles they denote. -/

namespace Dis

structure Decimal where
  negative : Bool
  digits : Nat
  exponent : Int
  deriving DecidableEq

namespace Decimal

def length (n : Nat) : Nat :=
  if h : n = 0 then 0 else length (n / 10) + 1
termination_by n
decreasing_by omega

def padded (width n : Nat) : String :=
  let digits := toString n
  "".pushn '0' (width - digits.length) ++ digits

/-- The double nearest to a decimal numeral, ties to even. Numerals far outside
the range of doubles are answered from their order of magnitude alone. -/
def toBinary64 (x : Decimal) : Binary64 :=
  let order := x.exponent + length x.digits
  if x.digits = 0 ∨ order < -330 then .ofMagnitude x.negative 0
  else if 310 < order then .infinity x.negative
  else if x.exponent < 0 then .nearest x.negative x.digits (10 ^ x.exponent.natAbs)
  else .nearest x.negative (x.digits * 10 ^ x.exponent.natAbs) 1

end Decimal
end Dis

/-! The shortest decimal numeral that reads back as a given double, and its layout.
The reals that round to a magnitude form an interval between the midpoints to
its neighbours, ends included when the word is even. The search tries one digit,
then two, and so on; of two hits on one grid the nearer wins. -/

namespace Dis.Shortest

open BinaryFormat (double)

/-- Everything is measured in units of `2 ^ -1075`, half a unit of the format. -/
def unit : Nat := 2 ^ (double.scale + 1)

def interval (word : Nat) : Nat × Nat :=
  (double.units (word - 1) + double.units word, double.units word + double.units (word + 1))

def readsBack (word num den : Nat) : Bool :=
  let (low, high) := interval word
  if word % 2 = 0 then low * den ≤ num * unit && num * unit ≤ high * den
  else low * den < num * unit && num * unit < high * den

/-- The exponent `k` with `10 ^ (k - 1) ≤ num / den < 10 ^ k`, for a positive quotient. -/
def decimalPoint (num den : Nat) : Int :=
  if den ≤ num then Decimal.length (num / den)
  else 1 - (Decimal.length ((den + num - 1) / num - 1) : Int)

def quotient (digits : Nat) (exponent : Int) : Nat × Nat :=
  if exponent < 0 then (digits, 10 ^ exponent.natAbs) else (digits * 10 ^ exponent.natAbs, 1)

/-- The grid point of spacing `10 ^ exponent` that stands for the magnitude, if one does. -/
def onGrid? (word : Nat) (exponent : Int) : Option Nat :=
  let (num, den) := (2 * double.units word, unit)
  let (num, den) :=
    if exponent < 0 then (num * 10 ^ exponent.natAbs, den) else (num, den * 10 ^ exponent.natAbs)
  let low := num / den
  let hit := fun digits => let (n, d) := quotient digits exponent; readsBack word n d
  match hit low, hit (low + 1) with
  | true, true => some (roundHalfEven num den)
  | true, false => some low
  | false, true => some (low + 1)
  | false, false => none

def normalise (fuel digits : Nat) (exponent : Int) : Nat × Int :=
  match fuel with
  | 0 => (digits, exponent)
  | fuel + 1 =>
    if digits % 10 = 0 ∧ digits ≠ 0 then normalise fuel (digits / 10) (exponent + 1)
    else (digits, exponent)

def ofMagnitude (word : Nat) : Nat × Int :=
  let point := decimalPoint (double.units word) (2 ^ double.scale)
  let found := (List.range 17).findSome? fun shorter =>
    let exponent := point - (shorter + 1 : Nat)
    (onGrid? word exponent).map (·, exponent)
  let (digits, exponent) := found.getD (double.units word, 0)
  normalise 17 digits exponent

end Shortest

/-- How a numeral is laid out. The point stands after digit number `point`; it is
written in place while `leastPoint ≤ point ≤ greatestPoint`, else as an exponent. -/
structure DecimalStyle where
  leastPoint : Int
  greatestPoint : Int
  plusSign : Bool
  exponentDigits : Nat
  infinity : String
  nan : String

namespace DecimalStyle

variable (style : DecimalStyle)

def exponentText (exponent : Int) : String :=
  let sign := if exponent < 0 then "-" else if style.plusSign then "+" else ""
  sign ++ Decimal.padded style.exponentDigits exponent.natAbs

def positional (digits : String) (point : Int) : String :=
  let count : Int := digits.length
  if point ≤ 0 then "0." ++ "".pushn '0' point.natAbs ++ digits
  else if count ≤ point then digits ++ "".pushn '0' (point - count).toNat ++ ".0"
  else String.ofList (digits.toList.take point.toNat) ++ "." ++
    String.ofList (digits.toList.drop point.toNat)

def scientific (digits : String) (point : Int) : String :=
  let (first, others) := (digits.toList.take 1, digits.toList.drop 1)
  String.ofList first ++ (if others.isEmpty then "" else "." ++ String.ofList others) ++
    "e" ++ style.exponentText (point - 1)

/-- The shortest text in this style that reads back as the number. -/
def render (x : Binary64) : String :=
  if x.isNaN then style.nan
  else
    let sign := if x.isNegative then "-" else ""
    if x.isInfinite then sign ++ style.infinity
    else if x.magnitude = 0 then sign ++ "0.0"
    else
      let (digits, exponent) := Shortest.ofMagnitude x.magnitude
      let text := toString digits
      let point := exponent + text.length
      sign ++ if style.leastPoint ≤ point ∧ point ≤ style.greatestPoint
        then positional text point else style.scientific text point

end DecimalStyle
end Dis

/-! Doubles rounded to a number of decimal digits, ties to even. Three texts of a finite
magnitude: with so many places, with an exponent, and the shorter of the two. Where
`pointed` is set, a point stands even if no digit follows it, and zeros at the end stay.
Digits behind the last one that a double can have are zeros, which are only counted. -/

namespace Dis.Rounded

open BinaryFormat (double)

/-- The magnitude as a whole number of tenth parts of that order. -/
def scaled (x : Binary64) (places : Int) : Nat :=
  let (num, den) := (double.units x.magnitude, 2 ^ double.scale)
  if places < 0 then roundHalfEven num (den * 10 ^ places.natAbs)
  else roundHalfEven (num * 10 ^ places.natAbs) den

def significant (x : Binary64) (count : Nat) : Nat × Int :=
  if x.magnitude = 0 then (0, 0)
  else
    let exponent := Shortest.decimalPoint (double.units x.magnitude) (2 ^ double.scale) - 1
    let digits := scaled x (count - 1 - exponent)
    if digits = 10 ^ count then (10 ^ (count - 1), exponent + 1) else (digits, exponent)

def join (pointed : Bool) (front back : Runs) : Runs :=
  if back.isEmpty && !pointed then front else front ++ .ofChars ['.'] ++ back

def dropZeros (digits : List Char) : List Char := (digits.reverse.dropWhile (· == '0')).reverse

def exponentText (exponent : Int) : Runs :=
  .ofChars <|
    'e' :: (if exponent < 0 then '-' else '+') :: (Decimal.padded 2 exponent.natAbs).toList

def mostDigits : Nat := 767

/-- Doubles are whole multiples of a power of a half, which has as many places. -/
def mostPlaces : Nat := double.scale

def fixed (pointed : Bool) (places : Nat) (x : Binary64) : Runs :=
  let told := min places mostPlaces
  let digits := (Decimal.padded (told + 1) (scaled x told)).toList
  let (front, back) := digits.splitAt (digits.length - told)
  join pointed (.ofChars front) (.ofChars back ++ .repeated (places - told) '0')

def scientific (pointed : Bool) (places : Nat) (x : Binary64) : Runs :=
  let told := min (places + 1) mostDigits
  let (digits, exponent) := significant x told
  let (front, back) := (Decimal.padded told digits).toList.splitAt 1
  join pointed (.ofChars front) (.ofChars back ++ .repeated (places + 1 - told) '0') ++
    exponentText exponent

/-- At least one digit; an exponent is written below the fourth place and where the
digits do not reach the point. -/
def general (pointed : Bool) (count : Nat) (x : Binary64) : Runs :=
  let count := max 1 count
  let told := min count mostDigits
  let (digits, exponent) := significant x told
  let digits := (Decimal.padded told digits).toList
  let kept := fun (back : List Char) =>
    if pointed then .ofChars back ++ .repeated (count - told) '0' else Runs.ofChars (dropZeros back)
  if exponent < -4 ∨ count ≤ exponent then
    join pointed (.ofChars (digits.take 1)) (kept (digits.drop 1)) ++ exponentText exponent
  else if exponent < 0 then
    join pointed (.ofChars ['0']) (kept (List.replicate (exponent.natAbs - 1) '0' ++ digits))
  else
    let (front, back) := digits.splitAt (exponent.toNat + 1)
    join pointed (.ofChars front) (kept back)

end Dis.Rounded

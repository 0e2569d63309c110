import Dis.Proofs.Numeric.Exact

/-! Rounding gives a nearest number: no other number of the format is nearer, and where
another one is as near, the even word is taken. -/

namespace Dis

/-- Half a step either way, and an even number where it is half a step. -/
structure IsRounded (num den r : Nat) : Prop where
  above : 2 * (r * den) ≤ 2 * num + den
  below : 2 * num ≤ 2 * (r * den) + den
  even : 2 * (r * den) = 2 * num + den ∨ 2 * num = 2 * (r * den) + den → r % 2 = 0

theorem isRounded (num den : Nat) (positive : 0 < den) :
    IsRounded num den (roundHalfEven num den) := by
  have split := Nat.div_add_mod num den
  have low := Nat.mod_lt num positive
  rw [Nat.mul_comm] at split
  simp only [roundHalfEven]
  generalize num / den = q at split
  generalize num % den = left at split low
  have next : (q + 1) * den = q * den + den := Nat.add_one_mul q den
  split
  · constructor <;> omega
  · split
    · constructor <;> omega
    · -- A tie: the quotient stays if it is even and goes up if it is odd.
      rcases Nat.mod_two_eq_zero_or_one q with even | odd
      · rw [even, Nat.add_zero]
        exact ⟨by omega, by omega, fun _ => even⟩
      · rw [odd]
        constructor <;> omega

theorem isRounded_int (num : Int) (den : Nat) (positive : 0 < den) :
    2 * (num - roundHalfEvenInt num den * den).natAbs ≤ den ∧
      (2 * (num - roundHalfEvenInt num den * den).natAbs = den → roundHalfEvenInt num den % 2 = 0) := by
  obtain ⟨above, below, even⟩ := isRounded num.natAbs den positive
  simp only [roundHalfEvenInt]
  generalize roundHalfEven num.natAbs den = r at above below even
  have product : (r : Int) * den = (r * den : Nat) := (Int.natCast_mul r den).symm
  split
  · rw [Int.neg_mul, product]
    omega
  · rw [product]
    omega

namespace IsRounded

variable {num den r : Nat}

theorem apart (step m : Nat) (other : m ≠ r) :
    m * step + step ≤ r * step ∨ r * step + step ≤ m * step := by
  rw [← Nat.add_one_mul, ← Nat.add_one_mul]
  rcases Nat.lt_or_gt_of_ne other with below | above
  · exact Or.inl (Nat.mul_le_mul_right step below)
  · exact Or.inr (Nat.mul_le_mul_right step above)

theorem nearest (rounded : IsRounded num den r) (m : Nat) :
    ((num : Int) - (r * den : Nat)).natAbs ≤ ((num : Int) - (m * den : Nat)).natAbs := by
  by_cases same : m = r
  · rw [same]
  · have := rounded.above
    have := rounded.below
    have := apart den m same
    omega

theorem even_of_tie (rounded : IsRounded num den r) (m : Nat) (other : m ≠ r)
    (tie : ((num : Int) - (r * den : Nat)).natAbs = ((num : Int) - (m * den : Nat)).natAbs) :
    r % 2 = 0 := by
  have := rounded.above
  have := rounded.below
  have := apart den m other
  exact rounded.even (by omega)

theorem le_of_mul_le (rounded : IsRounded num den r) (positive : 0 < den) (least : Nat)
    (bound : least * den ≤ num) : least ≤ r := by
  refine Nat.le_of_not_lt fun less => ?_
  have step : (r + 1) * den ≤ least * den := Nat.mul_le_mul_right den less
  have := rounded.below
  rw [Nat.add_one_mul] at step
  omega

theorem le_of_le_mul (rounded : IsRounded num den r) (positive : 0 < den) (most : Nat)
    (bound : num ≤ most * den) : r ≤ most := by
  refine Nat.le_of_not_lt fun more => ?_
  have step : (most + 1) * den ≤ r * den := Nat.mul_le_mul_right den more
  have := rounded.above
  rw [Nat.add_one_mul] at step
  omega

theorem le_iff_of_even (rounded : IsRounded num den r) (positive : 0 < den) (least : Nat)
    (even : least % 2 = 0) :
    least ≤ r ↔ 2 * (least * den) ≤ 2 * num + den := by
  have above := rounded.above
  have below := rounded.below
  constructor
  · intro reached
    have step : least * den ≤ r * den := Nat.mul_le_mul_right den reached
    omega
  · intro bound
    refine Nat.le_of_not_lt fun short => ?_
    -- One less is the midpoint at best, where rounding would leave an even number.
    have step : (r + 1) * den ≤ least * den := Nat.mul_le_mul_right den short
    rw [Nat.add_one_mul] at step
    have tie := rounded.even (Or.inr (by omega))
    have same : (r + 1) * den = least * den := by
      rw [Nat.add_one_mul]
      omega
    have next := Nat.eq_of_mul_eq_mul_right positive same
    omega

end IsRounded

namespace BinaryFormat

variable (format : BinaryFormat)

/-- A word of `s` digits that fall away and a fraction that is full, or carries into the
exponent. -/
theorem units_add (s r : Nat) (normal : s = 0 ∨ 2 ^ format.fractionBits ≤ r)
    (carried : r ≤ 2 ^ (format.fractionBits + 1)) :
    format.units (s * 2 ^ format.fractionBits + r) = r * 2 ^ s := by
  have double : 2 ^ (format.fractionBits + 1) = 2 * 2 ^ format.fractionBits := Nat.pow_succ'
  have positive := Nat.two_pow_pos format.fractionBits
  rcases Nat.lt_or_ge r (2 ^ (format.fractionBits + 1)) with short | full
  · have exact : format.Holds (r * 2 ^ s) := format.holds_of_factor r s short
    have word : format.ofUnits (r * 2 ^ s) = s * 2 ^ format.fractionBits + r := by
      rcases normal with rfl | least
      · rw [Nat.pow_zero, Nat.mul_one, ofUnits, format.shift_of_lt r short]
        simp
      · exact format.ofUnits_normal r s least short
    rw [← word, format.units_ofUnits _ exact]
  · -- The carry: the fraction is zero, and the exponent is one more.
    have whole : r = 2 * 2 ^ format.fractionBits := by omega
    have exact := format.holds_of_factor (2 ^ format.fractionBits) (s + 1) (by omega)
    have word := format.ofUnits_normal (2 ^ format.fractionBits) (s + 1) (by omega) (by omega)
    have same : (s + 1) * 2 ^ format.fractionBits + 2 ^ format.fractionBits =
        s * 2 ^ format.fractionBits + r := by
      rw [whole, Nat.add_one_mul]
      omega
    rw [← same, ← word, format.units_ofUnits _ exact, whole, Nat.pow_succ, Nat.mul_comm 2,
      Nat.mul_assoc, Nat.mul_comm 2]

/-- A magnitude is a multiple of any power of two, or too small to have so many digits
behind its fraction. -/
theorem units_cases (word s : Nat) :
    (∃ m, format.units word = m * 2 ^ s) ∨
      s ≠ 0 ∧ format.units word < 2 ^ (format.fractionBits + s) := by
  obtain ⟨k, j, factored, short⟩ := format.units_eq_factor word
  rw [factored]
  rcases Nat.lt_or_ge j s with fewer | more
  · refine Or.inr ⟨by omega, Nat.lt_of_lt_of_le (mul_two_pow_lt k _ j short) ?_⟩
    exact Nat.pow_le_pow_right (by decide) (by omega)
  · refine Or.inl ⟨k * 2 ^ (j - s), ?_⟩
    rw [Nat.mul_assoc, ← Nat.pow_add, Nat.sub_add_cancel more]

/-- The word of a magnitude before it is cut off at infinity: the digits that fall away, and the
fraction that is left. -/
theorem nearest_digits (num den : Nat) (positive : 0 < den) :
    ∃ s r, format.nearest num den = min format.infinity (s * 2 ^ format.fractionBits + r) ∧
      IsRounded (num * 2 ^ format.scale) (den * 2 ^ s) r ∧
      (s = 0 ∨ 2 ^ format.fractionBits * (den * 2 ^ s) ≤ num * 2 ^ format.scale) ∧
      num * 2 ^ format.scale < 2 ^ (format.fractionBits + 1) * (den * 2 ^ s) := by
  generalize value : num * 2 ^ format.scale = v
  generalize digits : Nat.log2 (v / den) = n
  refine ⟨n - format.fractionBits, _, ?_,
    isRounded v _ (Nat.mul_pos positive (Nat.two_pow_pos (n - format.fractionBits))), ?_, ?_⟩
  · simp only [nearest, value, digits]
  · refine Classical.or_iff_not_imp_left.mpr fun some => ?_
    have nonzero : v / den ≠ 0 := by
      intro zero
      rw [zero, Nat.log2_zero] at digits
      omega
    have bound := Nat.log2_self_le nonzero
    rw [digits] at bound
    rw [Nat.mul_left_comm, ← Nat.pow_add, Nat.add_sub_cancel' (by omega), Nat.mul_comm]
    exact (Nat.le_div_iff_mul_le positive).mp bound
  · have bound : v / den < 2 ^ (n + 1) := digits ▸ Nat.lt_log2_self
    have wider : 2 ^ (n + 1) ≤ 2 ^ (format.fractionBits + 1 + (n - format.fractionBits)) :=
      Nat.pow_le_pow_right (by decide) (by omega)
    have below := (Nat.div_lt_iff_lt_mul positive).mp (Nat.lt_of_lt_of_le bound wider)
    rwa [Nat.pow_add, Nat.mul_assoc, Nat.mul_comm (2 ^ (n - format.fractionBits))] at below

theorem nearest_spec (num den : Nat) (positive : 0 < den)
    (finite : format.nearest num den < format.infinity) :
    ∃ s r, format.nearest num den = s * 2 ^ format.fractionBits + r ∧
      format.units (format.nearest num den) = r * 2 ^ s ∧
      IsRounded (num * 2 ^ format.scale) (den * 2 ^ s) r ∧
      (s = 0 ∨ 2 ^ (format.fractionBits + s) * den ≤ num * 2 ^ format.scale) := by
  obtain ⟨s, r, found, rounded, least, most⟩ := format.nearest_digits num den positive
  have word : format.nearest num den = s * 2 ^ format.fractionBits + r := by omega
  have unit : 0 < den * 2 ^ s := Nat.mul_pos positive (Nat.two_pow_pos s)
  have carried := rounded.le_of_le_mul unit _ most.le
  have normal : s = 0 ∨ 2 ^ format.fractionBits ≤ r :=
    least.imp_right fun bound => rounded.le_of_mul_le unit _ bound
  refine ⟨s, r, word, by rw [word, format.units_add s r normal carried], rounded, ?_⟩
  refine least.imp_right fun bound => ?_
  rwa [Nat.pow_add, Nat.mul_assoc, Nat.mul_comm (2 ^ s)]

/-- How far a magnitude is from `num / den`, in units of `1 / den`. -/
def gap (num den word : Nat) : Nat :=
  ((num * 2 ^ format.scale : Nat) - (format.units word * den : Nat) : Int).natAbs

/-- No other magnitude is nearer, and one that is as near leaves the even word. -/
structure IsNearest (num den word : Nat) : Prop where
  nearest : ∀ other, format.gap num den word ≤ format.gap num den other
  even : ∀ other, format.units other ≠ format.units word →
    format.gap num den word = format.gap num den other → word % 2 = 0

theorem isNearest_nearest (wide : 0 < format.fractionBits) (num den : Nat) (positive : 0 < den)
    (finite : format.nearest num den < format.infinity) :
    format.IsNearest num den (format.nearest num den) := by
  obtain ⟨s, r, word, units, rounded, least⟩ := format.nearest_spec num den positive finite
  have kept : ∀ m, m * 2 ^ s * den = m * (den * 2 ^ s) := fun m => by
    rw [Nat.mul_assoc, Nat.mul_comm den]
  -- Below the last full fraction the digits are finer, but all of it is farther away.
  have farther : ∀ other, s ≠ 0 → format.units other < 2 ^ (format.fractionBits + s) →
      format.gap num den (format.nearest num den) < format.gap num den other := by
    intro other some below
    have front := rounded.nearest (2 ^ format.fractionBits)
    have inside := least.resolve_left some
    have less := Nat.mul_lt_mul_of_pos_right below positive
    rw [Nat.pow_add, kept] at inside less
    rw [gap, gap, units, kept]
    omega
  have multiples : ∀ other m, format.units other = m * 2 ^ s →
      format.gap num den other =
        ((num * 2 ^ format.scale : Nat) - (m * (den * 2 ^ s) : Nat) : Int).natAbs := by
    intro other m multiple
    rw [gap, multiple, kept]
  constructor
  · intro other
    rcases format.units_cases other s with ⟨m, multiple⟩ | ⟨some, below⟩
    · rw [multiples _ _ units, multiples _ _ multiple]
      exact rounded.nearest m
    · exact (farther other some below).le
  · intro other differs tie
    rcases format.units_cases other s with ⟨m, multiple⟩ | ⟨some, below⟩
    · have apart : m ≠ r := by
        rintro rfl
        exact differs (multiple.trans units.symm)
      rw [multiples _ _ units, multiples _ _ multiple] at tie
      have even := rounded.even_of_tie m apart tie
      obtain ⟨p, digits⟩ := Nat.exists_eq_add_one_of_ne_zero wide.ne'
      rw [word, digits, Nat.pow_succ, ← Nat.mul_assoc]
      omega
    · exact absurd tie (farther other some below).ne

end BinaryFormat

namespace Binary32

open BinaryFormat (single double)

/-- A finite single with the sign of a double: no other single is nearer, and one that is
as near leaves the even word. -/
structure IsNearest (x : Binary64) (word : Binary32) : Prop where
  finite : word.magnitude < single.infinity
  sign : word.isNegative = x.isNegative
  nearest : ∀ other : Binary32, other.magnitude < single.infinity →
    (x.units - word.widen.units).natAbs ≤ (x.units - other.widen.units).natAbs
  even : ∀ other : Binary32, other.magnitude < single.infinity →
    other.widen.units ≠ word.widen.units →
    (x.units - word.widen.units).natAbs = (x.units - other.widen.units).natAbs →
      word.magnitude % 2 = 0

def unitsOf (word : Nat) : Nat := single.units word * 2 ^ unitShift

theorem unitsOf_zero : unitsOf 0 = 0 := by
  have none : single.units 0 = 0 := by decide
  rw [unitsOf, none, Nat.zero_mul]

theorem units_widen (x : Binary32) (finite : x.magnitude < single.infinity) :
    x.widen.units =
      if x.isNegative then -(unitsOf x.magnitude : Int) else (unitsOf x.magnitude : Int) := by
  obtain ⟨word, below, widened, units⟩ := x.widen_finite finite
  have small := Nat.lt_trans below Binary64.infinity_lt
  rw [widened, Binary64.units, Binary64.magnitude_ofMagnitude _ _ small,
    Binary64.isNegative_ofMagnitude _ _ small, units, unitsOf]

theorem gap_eq (u word : Nat) :
    single.gap u (2 ^ double.scale) word = ((u : Int) - unitsOf word).natAbs * 2 ^ single.scale := by
  rw [BinaryFormat.gap, scale_eq_add, Nat.pow_add, ← Nat.mul_assoc, ← unitsOf, Int.natCast_mul,
    Int.natCast_mul, ← Int.sub_mul, Int.natAbs_mul, Int.natAbs_natCast]

theorem isNearest_magnitude (u : Nat)
    (finite : single.nearest u (2 ^ double.scale) < single.infinity) (other : Nat) :
    ((u : Int) - unitsOf (single.nearest u (2 ^ double.scale))).natAbs ≤
        ((u : Int) - unitsOf other).natAbs ∧
      (unitsOf other ≠ unitsOf (single.nearest u (2 ^ double.scale)) →
        ((u : Int) - unitsOf (single.nearest u (2 ^ double.scale))).natAbs =
          ((u : Int) - unitsOf other).natAbs →
        single.nearest u (2 ^ double.scale) % 2 = 0) := by
  have found := single.isNearest_nearest (by decide) u _ (Nat.two_pow_pos double.scale) finite
  generalize single.nearest u (2 ^ double.scale) = word at found
  have closest := found.nearest other
  have even := found.even other
  rw [gap_eq, gap_eq] at closest even
  refine ⟨Nat.le_of_mul_le_mul_right closest (Nat.two_pow_pos _), fun differs tie => ?_⟩
  refine even (fun same => differs ?_) (by rw [tie])
  rw [unitsOf, same, unitsOf]

theorem isNearest_of_narrow {x : Binary64} {word : Binary32} (finite : x.isFinite)
    (narrowed : narrow? x = some word) : IsNearest x word := by
  have below : x.magnitude < double.infinity := by simpa [Binary64.isFinite] using finite
  have number : x.isNaN = false := decide_eq_false (by omega)
  have inside : x.isInfinite = false := decide_eq_false (by omega)
  simp only [narrow?, number, inside, Bool.false_eq_true, if_false] at narrowed
  have closest := isNearest_magnitude (double.units x.magnitude)
  have most : single.nearest (double.units x.magnitude) (2 ^ double.scale) ≤ single.infinity :=
    Nat.min_le_left ..
  generalize single.nearest (double.units x.magnitude) (2 ^ double.scale) = w at *
  split at narrowed
  · cases narrowed
  · next differs =>
    cases narrowed
    have fits : w < single.infinity := by omega
    have short : w < 2 ^ 31 := Nat.lt_trans fits (by decide)
    have magnitude := magnitude_ofMagnitude x.isNegative w short
    have sign := isNegative_ofMagnitude x.isNegative w short
    have units := units_widen (ofMagnitude x.isNegative w) (by rwa [magnitude])
    rw [magnitude, sign] at units
    have value : x.units = if x.isNegative then -(double.units x.magnitude : Int)
      else (double.units x.magnitude : Int) := rfl
    -- A number of the other sign is no nearer than zero is.
    have zero := closest fits 0
    rw [unitsOf_zero] at zero
    generalize double.units x.magnitude = u at *
    generalize unitsOf w = a at *
    constructor
    · rwa [magnitude]
    · exact sign
    · intro other small
      have chosen := (closest fits other.magnitude).1
      rw [value, units, units_widen other small]
      generalize unitsOf other.magnitude = b at *
      split <;> split <;> omega
    · intro other small
      have chosen := closest fits other.magnitude
      rw [value, units, units_widen other small, magnitude]
      generalize unitsOf other.magnitude = b at *
      split <;> split <;> omega

theorem widen_of_infinite {x : Binary64} {word : Binary32} (infinite : x.isInfinite)
    (narrowed : narrow? x = some word) : word.widen = x := by
  have top : x.magnitude = double.infinity := by simpa [Binary64.isInfinite] using infinite
  have number : x.isNaN = false := decide_eq_false (by omega)
  have fits : single.infinity < 2 ^ 31 := by decide
  simp only [narrow?, number, infinite, Bool.false_eq_true, if_false, if_true] at narrowed
  cases narrowed
  rw [widen, magnitude_ofMagnitude _ _ fits, isNegative_ofMagnitude _ _ fits, if_neg (by omega),
    if_pos rfl, Binary64.infinity, ← top, Binary64.ofMagnitude_magnitude]

theorem widen_of_nan {x : Binary64} {word : Binary32} (nan : x.isNaN)
    (narrowed : narrow? x = some word) :
    word.widen.isNaN ∧ word.widen.isNegative = x.isNegative := by
  simp only [narrow?, nan, if_true] at narrowed
  cases narrowed
  have small : x.magnitude < 2 ^ 63 := Nat.mod_lt _ (by decide)
  have top : double.infinity + 2 ^ double.fractionBits = 2 ^ 63 := by decide
  have room : 2 ^ double.fractionBits = 2 ^ single.fractionBits * 2 ^ spareBits := by decide
  have payload : (x.magnitude - double.infinity) / 2 ^ spareBits < 2 ^ single.fractionBits := by
    apply Nat.div_lt_of_lt_mul
    rw [Nat.mul_comm, ← room]
    have := Nat.two_pow_pos double.fractionBits
    omega
  generalize (x.magnitude - double.infinity) / 2 ^ spareBits = p at payload
  have fits := infinity_add_quiet_lt p payload
  have quiet : single.quietBit ≤ p ||| single.quietBit := Nat.right_le_or
  have positive : 0 < single.quietBit := by decide
  have magnitude := magnitude_ofMagnitude x.isNegative _ fits
  have signaled : single.infinity <
      (ofMagnitude x.isNegative (single.infinity + (p ||| single.quietBit))).magnitude := by
    rw [magnitude]
    omega
  exact ⟨isNaN_widen _ signaled,
    (magnitude_widen_nan _ signaled).2.trans (isNegative_ofMagnitude _ _ fits)⟩

end Binary32

namespace FixedPoint

open BinaryFormat (double)

/-- A word of eighths at most half an eighth away, and an even one where it is half an
eighth. -/
structure IsNearest (x : Binary64) (word : Int) : Prop where
  holds : least ≤ word ∧ word ≤ greatest
  nearest : 2 * (x.units * scale - word * (2 ^ double.scale : Nat)).natAbs ≤ 2 ^ double.scale
  even : 2 * (x.units * scale - word * (2 ^ double.scale : Nat)).natAbs = 2 ^ double.scale →
    word % 2 = 0

theorem isNearest_of_ofBinary64 {x : Binary64} {word : Int} (rounded : ofBinary64 x = .ok word) :
    IsNearest x word := by
  simp only [ofBinary64] at rounded
  split at rounded
  · cases rounded
  · split at rounded
    · cases rounded
    · split at rounded
      · next inside =>
        cases rounded
        obtain ⟨near, even⟩ := isRounded_int (x.units * scale) _ (Nat.two_pow_pos double.scale)
        exact ⟨inside, near, even⟩
      · cases rounded

end FixedPoint
end Dis

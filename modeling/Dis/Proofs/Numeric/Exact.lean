import Dis.Numeric.Binary
import Mathlib.Algebra.Order.Ring.Nat

/-! Numbers that a binary format holds are found exactly: rounding a value in units to
a word and taking the word's units again gives the value. -/

namespace Dis

theorem roundHalfEven_mul (n den : Nat) (positive : 0 < den) : roundHalfEven (n * den) den = n := by
  simp [roundHalfEven, Nat.mul_div_cancel n positive, positive]

theorem mul_two_pow_lt (n digits shift : Nat) (small : n < 2 ^ digits) :
    n * 2 ^ shift < 2 ^ (digits + shift) := by
  rw [Nat.pow_add]
  exact Nat.mul_lt_mul_of_pos_right small (Nat.two_pow_pos _)

theorem log2_mul_two_pow (n shift : Nat) (nonzero : n ≠ 0) :
    Nat.log2 (n * 2 ^ shift) = Nat.log2 n + shift := by
  have positive := Nat.two_pow_pos shift
  apply (Nat.log2_eq_iff (Nat.mul_ne_zero nonzero positive.ne')).mpr
  constructor
  · rw [Nat.pow_add]
    exact Nat.mul_le_mul_right _ (Nat.log2_self_le nonzero)
  · rw [Nat.add_right_comm]
    exact mul_two_pow_lt n _ shift Nat.lt_log2_self

namespace BinaryFormat

variable (format : BinaryFormat)

/-- How many binary digits of a magnitude in units fall away. -/
def shift (u : Nat) : Nat := Nat.log2 u - format.fractionBits

def ofUnits (u : Nat) : Nat := format.shift u * 2 ^ format.fractionBits + u / 2 ^ format.shift u

/-- Are the digits that fall away all zero? -/
def Holds (u : Nat) : Prop := 2 ^ format.shift u ∣ u

theorem holds_of_factor (k j : Nat) (short : k < 2 ^ (format.fractionBits + 1)) :
    format.Holds (k * 2 ^ j) := by
  by_cases zero : k = 0
  · simp [zero, Holds]
  · have digits := (Nat.log2_lt zero).mpr short
    have fewer : format.shift (k * 2 ^ j) ≤ j := by
      rw [shift, log2_mul_two_pow k j zero]
      omega
    exact Dvd.dvd.mul_left (Nat.pow_dvd_pow 2 fewer) k

theorem shift_of_lt (u : Nat) (small : u < 2 ^ (format.fractionBits + 1)) : format.shift u = 0 := by
  by_cases zero : u = 0
  · simp [shift, zero]
  · have digits := (Nat.log2_lt zero).mpr small
    rw [shift]
    omega

theorem shift_normal (q s : Nat) (least : 2 ^ format.fractionBits ≤ q)
    (most : q < 2 ^ (format.fractionBits + 1)) : format.shift (q * 2 ^ s) = s := by
  have nonzero : q ≠ 0 := by have := Nat.two_pow_pos format.fractionBits; omega
  have digits : Nat.log2 q = format.fractionBits := (Nat.log2_eq_iff nonzero).mpr ⟨least, most⟩
  rw [shift, log2_mul_two_pow q s nonzero, digits]
  omega

theorem ofUnits_normal (q s : Nat) (least : 2 ^ format.fractionBits ≤ q)
    (most : q < 2 ^ (format.fractionBits + 1)) :
    format.ofUnits (q * 2 ^ s) = s * 2 ^ format.fractionBits + q := by
  rw [ofUnits, format.shift_normal q s least most, Nat.mul_div_cancel _ (Nat.two_pow_pos s)]

theorem ofUnits_units (word : Nat) : format.ofUnits (format.units word) = word := by
  have split := Nat.div_add_mod word (2 ^ format.fractionBits)
  have low := Nat.mod_lt word (Nat.two_pow_pos format.fractionBits)
  have double : 2 ^ (format.fractionBits + 1) = 2 * 2 ^ format.fractionBits := Nat.pow_succ'
  by_cases subnormal : word / 2 ^ format.fractionBits = 0
  · have small : word < 2 ^ (format.fractionBits + 1) := by
      rw [subnormal] at split
      omega
    have self : format.units word = word := by
      simp only [units, subnormal, if_true]
      rw [subnormal] at split
      omega
    rw [self, ofUnits, format.shift_of_lt word small]
    simp
  · obtain ⟨s, exponent⟩ := Nat.exists_eq_add_one_of_ne_zero subnormal
    have normal : format.units word =
        (2 ^ format.fractionBits + word % 2 ^ format.fractionBits) * 2 ^ s := by
      simp only [units, exponent, Nat.succ_ne_zero, if_false, Nat.add_sub_cancel]
    rw [normal, format.ofUnits_normal _ _ (by omega) (by omega)]
    rw [exponent, Nat.mul_succ, Nat.mul_comm] at split
    omega

theorem normal_of_holds (u : Nat) (holds : format.Holds u) (large : 2 ^ format.fractionBits ≤ u) :
    ∃ q, u = q * 2 ^ format.shift u ∧ 2 ^ format.fractionBits ≤ q ∧
      q < 2 ^ (format.fractionBits + 1) := by
  have nonzero : u ≠ 0 := by have := Nat.two_pow_pos format.fractionBits; omega
  have digits : Nat.log2 u = format.fractionBits + format.shift u := by
    have := (Nat.le_log2 nonzero).mpr large
    rw [shift]
    omega
  obtain ⟨least, most⟩ := (Nat.log2_eq_iff nonzero).mp digits
  obtain ⟨q, factored⟩ := holds
  rw [Nat.mul_comm] at factored
  have positive := Nat.two_pow_pos (format.shift u)
  refine ⟨q, factored, ?_, ?_⟩
  · have bound : 2 ^ format.fractionBits * 2 ^ format.shift u ≤ q * 2 ^ format.shift u := by
      rw [← factored, ← Nat.pow_add]
      exact least
    exact Nat.le_of_mul_le_mul_right bound positive
  · have bound : q * 2 ^ format.shift u < 2 ^ (format.fractionBits + 1) * 2 ^ format.shift u := by
      rw [← factored, ← Nat.pow_add, Nat.add_right_comm]
      exact most
    exact Nat.lt_of_mul_lt_mul_right bound

theorem units_ofUnits (u : Nat) (holds : format.Holds u) : format.units (format.ofUnits u) = u := by
  have double : 2 ^ (format.fractionBits + 1) = 2 * 2 ^ format.fractionBits := Nat.pow_succ'
  have positive := Nat.two_pow_pos format.fractionBits
  by_cases small : u < 2 ^ format.fractionBits
  · have self : format.ofUnits u = u := by
      rw [ofUnits, format.shift_of_lt u (by omega)]
      simp
    rw [self]
    simp only [units, Nat.div_eq_of_lt small, if_true, Nat.mod_eq_of_lt small]
  · obtain ⟨q, factored, least, most⟩ := format.normal_of_holds u holds (Nat.le_of_not_lt small)
    generalize format.shift u = s at factored
    have regrouped : s * 2 ^ format.fractionBits + q =
        (q - 2 ^ format.fractionBits) + (s + 1) * 2 ^ format.fractionBits := by
      rw [Nat.succ_mul]
      omega
    have exponent : (s * 2 ^ format.fractionBits + q) / 2 ^ format.fractionBits = s + 1 := by
      rw [regrouped, Nat.add_mul_div_right _ _ positive, Nat.div_eq_of_lt (by omega)]
      omega
    have fraction : (s * 2 ^ format.fractionBits + q) % 2 ^ format.fractionBits =
        q - 2 ^ format.fractionBits := by
      rw [regrouped, Nat.add_mul_mod_self_right, Nat.mod_eq_of_lt (by omega)]
    rw [factored, format.ofUnits_normal q s least most]
    simp only [units, exponent, fraction, Nat.succ_ne_zero, if_false, Nat.add_sub_cancel,
      Nat.add_sub_cancel' least]

theorem shift_lt (u digits : Nat) (some : 0 < digits) (small : u < 2 ^ digits) :
    format.shift u < digits := by
  by_cases zero : u = 0
  · simpa [shift, zero] using some
  · have bound := (Nat.log2_lt zero).mpr small
    rw [shift]
    omega

theorem units_lt (word : Nat) (finite : word < format.infinity) :
    format.units word < 2 ^ (format.fractionBits + 2 ^ format.exponentBits) := by
  have low := Nat.mod_lt word (Nat.two_pow_pos format.fractionBits)
  have double : 2 ^ (format.fractionBits + 1) = 2 * 2 ^ format.fractionBits := Nat.pow_succ'
  have exponent : word / 2 ^ format.fractionBits < 2 ^ format.exponentBits := by
    have bound : word < 2 ^ format.exponentBits * 2 ^ format.fractionBits :=
      Nat.lt_of_lt_of_le finite (Nat.mul_le_mul_right _ (Nat.sub_le _ 1))
    exact Nat.div_lt_of_lt_mul (by rwa [Nat.mul_comm])
  unfold units
  generalize word / 2 ^ format.fractionBits = e at exponent
  simp only
  split
  · exact Nat.lt_of_lt_of_le low (Nat.pow_le_pow_right (by decide) (Nat.le_add_right _ _))
  · calc (2 ^ format.fractionBits + word % 2 ^ format.fractionBits) * 2 ^ (e - 1)
      _ < 2 ^ (format.fractionBits + 1 + (e - 1)) := mul_two_pow_lt _ _ _ (by omega)
      _ ≤ 2 ^ (format.fractionBits + 2 ^ format.exponentBits) :=
          Nat.pow_le_pow_right (by decide) (by omega)

theorem ofUnits_lt (u : Nat) (holds : format.Holds u)
    (finite : format.shift u + 3 ≤ 2 ^ format.exponentBits) :
    format.ofUnits u < format.infinity := by
  have double : 2 ^ (format.fractionBits + 1) = 2 * 2 ^ format.fractionBits := Nat.pow_succ'
  have top : format.infinity + 2 ^ format.fractionBits =
      2 ^ format.exponentBits * 2 ^ format.fractionBits := by
    rw [infinity, ← Nat.succ_mul, Nat.succ_eq_add_one, Nat.sub_add_cancel (by omega)]
  have room : (format.shift u + 3) * 2 ^ format.fractionBits ≤
      2 ^ format.exponentBits * 2 ^ format.fractionBits := Nat.mul_le_mul_right _ finite
  rw [Nat.add_mul] at room
  have below : u / 2 ^ format.shift u < 2 * 2 ^ format.fractionBits := by
    by_cases small : u < 2 ^ (format.fractionBits + 1)
    · rw [format.shift_of_lt u small]
      omega
    · obtain ⟨q, factored, -, most⟩ := format.normal_of_holds u holds (by omega)
      rw [Nat.div_eq_of_eq_mul_left (Nat.two_pow_pos _) factored]
      omega
  rw [ofUnits]
  omega

theorem nearest_of_holds (num den u : Nat) (positive : 0 < den) (holds : format.Holds u)
    (value : num * 2 ^ format.scale = u * den) (finite : format.ofUnits u ≤ format.infinity) :
    format.nearest num den = format.ofUnits u := by
  have divides : u / 2 ^ format.shift u * 2 ^ format.shift u = u := Nat.div_mul_cancel holds
  have regrouped : u * den = u / 2 ^ format.shift u * (den * 2 ^ format.shift u) := by
    rw [Nat.mul_comm den, ← Nat.mul_assoc, divides]
  have kept : roundHalfEven (u * den) (den * 2 ^ format.shift u) = u / 2 ^ format.shift u := by
    rw [regrouped, roundHalfEven_mul _ _ (Nat.mul_pos positive (Nat.two_pow_pos _))]
  rw [nearest, value, Nat.mul_div_cancel u positive]
  change min format.infinity (format.shift u * 2 ^ format.fractionBits +
    roundHalfEven (u * den) (den * 2 ^ format.shift u)) = format.ofUnits u
  rw [kept]
  exact Nat.min_eq_right finite

theorem units_eq_factor (word : Nat) :
    ∃ k j, format.units word = k * 2 ^ j ∧ k < 2 ^ (format.fractionBits + 1) := by
  have low := Nat.mod_lt word (Nat.two_pow_pos format.fractionBits)
  have double : 2 ^ (format.fractionBits + 1) = 2 * 2 ^ format.fractionBits := Nat.pow_succ'
  unfold units
  simp only
  split
  · exact ⟨word % 2 ^ format.fractionBits, 0, by simp, by omega⟩
  · exact ⟨_, _, rfl, by omega⟩

theorem holds_units (word : Nat) : format.Holds (format.units word) := by
  obtain ⟨k, j, factored, short⟩ := format.units_eq_factor word
  rw [factored]
  exact format.holds_of_factor k j short

theorem nearest_units (num den word : Nat) (positive : 0 < den) (finite : word ≤ format.infinity)
    (value : num * 2 ^ format.scale = format.units word * den) : format.nearest num den = word := by
  rw [format.nearest_of_holds num den _ positive (format.holds_units word) value
    (by rw [ofUnits_units]; exact finite), ofUnits_units]

/-- A quotient by a power of two is a double if it needs no more digits than one has. -/
theorem double_nearest (k j : Nat) (short : k < 2 ^ 53) (fine : j ≤ double.scale) :
    double.nearest k (2 ^ j) < double.infinity ∧
      double.units (double.nearest k (2 ^ j)) = k * 2 ^ (double.scale - j) := by
  have exact : double.Holds (k * 2 ^ (double.scale - j)) := double.holds_of_factor _ _ short
  have digits : 53 + double.scale + 3 ≤ 2 ^ double.exponentBits := by decide
  have shifted := double.shift_lt _ _ (by omega) (mul_two_pow_lt k 53 (double.scale - j) short)
  have finite := double.ofUnits_lt _ exact (by omega)
  have units : k * 2 ^ double.scale = k * 2 ^ (double.scale - j) * 2 ^ j := by
    rw [Nat.mul_assoc, ← Nat.pow_add, Nat.sub_add_cancel fine]
  rw [double.nearest_of_holds k (2 ^ j) _ (Nat.two_pow_pos j) exact units finite.le]
  exact ⟨finite, double.units_ofUnits _ exact⟩

end BinaryFormat

namespace Binary64

open BinaryFormat (double)

theorem infinity_lt : double.infinity < 2 ^ 63 := by decide

variable (negative : Bool) (word : Nat)

theorem toNat_ofMagnitude (small : word < 2 ^ 63) :
    (ofMagnitude negative word).bits.toNat = word + if negative then 2 ^ 63 else 0 := by
  rw [ofMagnitude, UInt64.toNat_ofNat']
  cases negative
  · simp only [Bool.false_eq_true, if_false]
    omega
  · simp only [if_true]
    omega

theorem magnitude_ofMagnitude (small : word < 2 ^ 63) :
    (ofMagnitude negative word).magnitude = word := by
  rw [magnitude, toNat_ofMagnitude negative word small]
  cases negative
  · simpa using small
  · simp only [if_true]
    omega

theorem isNegative_ofMagnitude (small : word < 2 ^ 63) :
    (ofMagnitude negative word).isNegative = negative := by
  rw [isNegative, toNat_ofMagnitude negative word small]
  cases negative
  · simpa using small
  · simp

theorem ofMagnitude_magnitude (x : Binary64) : ofMagnitude x.isNegative x.magnitude = x := by
  have small := x.bits.toNat_lt
  obtain ⟨bits⟩ := x
  simp only [ofMagnitude, isNegative, magnitude, Binary64.mk.injEq, ← UInt64.toNat_inj,
    UInt64.toNat_ofNat', decide_eq_true_eq] at small ⊢
  split <;> omega

end Binary64
end Dis

/-! A word of eighths is a double without rounding, and comes back from it. -/

namespace Dis.FixedPoint

open BinaryFormat (double)

def eighthShift : Nat := double.scale - 3

theorem scale_eq_two_pow : scale = 2 ^ 3 := rfl

theorem scale_eq_add : double.scale = 3 + eighthShift := by decide

theorem roundHalfEvenInt_mul (n : Int) (den : Nat) (positive : 0 < den) :
    roundHalfEvenInt (n * den) den = n := by
  have magnitude : (n * den).natAbs = n.natAbs * den := by rw [Int.natAbs_mul, Int.natAbs_natCast]
  have sign : n * den < 0 ↔ n < 0 :=
    ⟨fun negative => Int.neg_of_mul_neg_left negative (by omega),
      fun negative => Int.mul_neg_of_neg_of_pos negative (by omega)⟩
  rw [roundHalfEvenInt, magnitude, roundHalfEven_mul _ _ positive]
  simp only [sign]
  split <;> omega

variable (word : Int)

def unitsOf : Nat := word.natAbs * 2 ^ eighthShift

theorem toBinary64_eq (holds : least ≤ word ∧ word ≤ greatest) :
    ∃ magnitude, magnitude < double.infinity ∧ double.units magnitude = unitsOf word ∧
      toBinary64 word = .ofMagnitude (word < 0) magnitude := by
  simp only [least, greatest] at holds
  obtain ⟨finite, units⟩ := BinaryFormat.double_nearest word.natAbs 3 (by omega) (by decide)
  refine ⟨_, finite, ?_, ?_⟩
  · rw [units, unitsOf, eighthShift]
  · rw [toBinary64, Binary64.nearestInt, Binary64.nearest, scale_eq_two_pow]

theorem unitsOf_lt (holds : least ≤ word ∧ word ≤ greatest) :
    scale * unitsOf word < 2 ^ (1024 + double.scale) := by
  simp only [least, greatest] at holds
  have short : word.natAbs < 2 ^ 16 := by omega
  have small := mul_two_pow_lt _ _ double.scale short
  have digits : 16 + double.scale ≤ 1024 + double.scale := by omega
  rw [scale_eq_two_pow, unitsOf, Nat.mul_left_comm, ← Nat.pow_add, ← scale_eq_add]
  exact Nat.lt_of_lt_of_le small (Nat.pow_le_pow_right (by decide) digits)

theorem units_toBinary64 (holds : least ≤ word ∧ word ≤ greatest) :
    (toBinary64 word).isFinite ∧
      (toBinary64 word).units * scale = word * (2 ^ double.scale : Nat) := by
  obtain ⟨magnitude, finite, units, widened⟩ := toBinary64_eq word holds
  have small := Nat.lt_trans finite Binary64.infinity_lt
  have kept := Binary64.magnitude_ofMagnitude (word < 0) magnitude small
  have sign := Binary64.isNegative_ofMagnitude (word < 0) magnitude small
  have eighths : unitsOf word * scale = word.natAbs * 2 ^ double.scale := by
    rw [unitsOf, scale_eq_add, Nat.add_comm, Nat.pow_add, ← Nat.mul_assoc, scale_eq_two_pow]
  refine ⟨by rw [widened, Binary64.isFinite, kept]; exact decide_eq_true finite, ?_⟩
  generalize 2 ^ double.scale = one at eighths
  rw [widened, Binary64.units, kept, sign, units]
  by_cases negative : word < 0
  · have flipped : word = -(word.natAbs : Int) := by omega
    rw [if_pos (by simpa using negative), Int.neg_mul, ← Int.natCast_mul, eighths,
      Int.natCast_mul, ← Int.neg_mul, ← flipped]
  · have plain : word = (word.natAbs : Int) := by omega
    rw [if_neg (by simpa using negative), ← Int.natCast_mul, eighths, Int.natCast_mul, ← plain]

theorem ofBinary64_toBinary64 (holds : least ≤ word ∧ word ≤ greatest) :
    ofBinary64 (toBinary64 word) = .ok word := by
  obtain ⟨magnitude, finite, units, widened⟩ := toBinary64_eq word holds
  have small := Nat.lt_trans finite Binary64.infinity_lt
  have kept := Binary64.magnitude_ofMagnitude (word < 0) magnitude small
  have inside : (toBinary64 word).isInfinite = false := by
    rw [widened, Binary64.isInfinite, kept]
    exact decide_eq_false finite.ne
  have number : (toBinary64 word).isNaN = false := by
    rw [widened, Binary64.isNaN, kept]
    exact decide_eq_false (by omega)
  have range : ¬ 2 ^ (1024 + double.scale) ≤ scale * double.units (toBinary64 word).magnitude := by
    rw [widened, kept, units]
    exact Nat.not_le_of_lt (unitsOf_lt word holds)
  simp only [ofBinary64, number, inside, range, (units_toBinary64 word holds).2, decide_false,
    Bool.or_false, Bool.false_eq_true, if_false, roundHalfEvenInt_mul _ _ (Nat.two_pow_pos _),
    if_pos holds]

end Dis.FixedPoint

/-! A single survives the way to a double and back; a NaN comes back quiet. -/

namespace Dis.Binary32

open BinaryFormat (single double)

/-- How far the units of the two formats stand apart, in binary digits. -/
def unitShift : Nat := double.scale - single.scale

theorem scale_eq_add : double.scale = unitShift + single.scale := by decide

variable (x : Binary32)

def payload : Nat := x.magnitude - single.infinity

/-- The word with the quiet bit set, if it is a NaN. -/
def quiet : Binary32 :=
  if single.infinity < x.magnitude then
    ofMagnitude x.isNegative (single.infinity + (x.payload ||| single.quietBit))
  else x

theorem magnitude_lt : x.magnitude < 2 ^ 31 := Nat.mod_lt _ (by decide)

theorem ofMagnitude_magnitude : ofMagnitude x.isNegative x.magnitude = x := by
  have small := x.bits.toNat_lt
  obtain ⟨bits⟩ := x
  simp only [ofMagnitude, isNegative, magnitude, Binary32.mk.injEq, ← UInt32.toNat_inj,
    UInt32.toNat_ofNat', decide_eq_true_eq] at small ⊢
  split <;> omega

section Magnitudes

variable (negative : Bool) (word : Nat)

theorem toNat_ofMagnitude (small : word < 2 ^ 31) :
    (ofMagnitude negative word).bits.toNat = word + if negative then 2 ^ 31 else 0 := by
  rw [ofMagnitude, UInt32.toNat_ofNat']
  cases negative
  · simp only [Bool.false_eq_true, if_false]
    omega
  · simp only [if_true]
    omega

theorem magnitude_ofMagnitude (small : word < 2 ^ 31) :
    (ofMagnitude negative word).magnitude = word := by
  rw [magnitude, toNat_ofMagnitude negative word small]
  cases negative
  · simpa using small
  · simp only [if_true]
    omega

theorem isNegative_ofMagnitude (small : word < 2 ^ 31) :
    (ofMagnitude negative word).isNegative = negative := by
  rw [isNegative, toNat_ofMagnitude negative word small]
  cases negative
  · simpa using small
  · simp

end Magnitudes

theorem widen_finite (finite : x.magnitude < single.infinity) :
    ∃ word, word < double.infinity ∧ x.widen = .ofMagnitude x.isNegative word ∧
      double.units word = single.units x.magnitude * 2 ^ unitShift := by
  have holds : double.Holds (single.units x.magnitude * 2 ^ unitShift) := by
    obtain ⟨k, j, factored, short⟩ := single.units_eq_factor x.magnitude
    rw [factored, Nat.mul_assoc, ← Nat.pow_add]
    exact double.holds_of_factor k _ (Nat.lt_of_lt_of_le short (by decide))
  have small : single.units x.magnitude * 2 ^ unitShift <
      2 ^ (single.fractionBits + 2 ^ single.exponentBits + unitShift) :=
    mul_two_pow_lt _ _ _ (single.units_lt _ finite)
  have digits : single.fractionBits + 2 ^ single.exponentBits + unitShift = 1204 := by decide
  rw [digits] at small
  have shifted := double.shift_lt _ _ (by decide) small
  have exponents : 2 ^ double.exponentBits = 2048 := by decide
  have below := double.ofUnits_lt _ holds (by rw [exponents]; omega)
  have rounded : double.nearest (single.units x.magnitude) (2 ^ single.scale) =
      double.ofUnits (single.units x.magnitude * 2 ^ unitShift) := by
    apply double.nearest_of_holds _ _ _ (Nat.two_pow_pos _) holds _ below.le
    rw [scale_eq_add, Nat.pow_add, Nat.mul_assoc]
  refine ⟨_, below, ?_, double.units_ofUnits _ holds⟩
  rw [widen, if_neg (by omega), if_neg (by omega), Binary64.nearest, rounded]

theorem narrow_finite (finite : x.magnitude < single.infinity) : narrow? x.widen = some x := by
  obtain ⟨word, below, widened, units⟩ := x.widen_finite finite
  have small := Nat.lt_trans below Binary64.infinity_lt
  have magnitude := Binary64.magnitude_ofMagnitude x.isNegative word small
  have back : single.nearest (double.units word) (2 ^ double.scale) = x.magnitude := by
    apply single.nearest_units _ _ _ (Nat.two_pow_pos _) finite.le
    rw [units, scale_eq_add, Nat.pow_add, Nat.mul_assoc]
  rw [narrow?, widened, Binary64.isNaN, Binary64.isInfinite, magnitude, back,
    if_neg (by simpa using below.le), if_neg (by simpa using below.ne), if_neg finite.ne,
    Binary64.isNegative_ofMagnitude _ _ small, ofMagnitude_magnitude]

theorem narrow_infinite (infinite : x.magnitude = single.infinity) :
    narrow? x.widen = some x := by
  have widened : x.widen = .ofMagnitude x.isNegative double.infinity := by
    rw [widen, if_neg (by omega), if_pos infinite, Binary64.infinity]
  have magnitude := Binary64.magnitude_ofMagnitude x.isNegative _ Binary64.infinity_lt
  rw [narrow?, widened, Binary64.isNaN, Binary64.isInfinite, magnitude, if_neg (by simp),
    if_pos (by simp), Binary64.isNegative_ofMagnitude _ _ Binary64.infinity_lt, ← infinite,
    ofMagnitude_magnitude]

theorem payload_lt : x.payload < 2 ^ single.fractionBits := by
  have small := x.magnitude_lt
  have top : single.infinity + 2 ^ single.fractionBits = 2 ^ 31 := by decide
  rw [payload]
  have positive := Nat.two_pow_pos single.fractionBits
  omega

theorem infinity_add_quiet_lt (payload : Nat) (small : payload < 2 ^ single.fractionBits) :
    single.infinity + (payload ||| single.quietBit) < 2 ^ 31 := by
  have fits : payload ||| single.quietBit < 2 ^ single.fractionBits :=
    Nat.or_lt_two_pow small (by decide)
  have top : single.infinity + 2 ^ single.fractionBits = 2 ^ 31 := by decide
  omega

theorem widen_payload_lt (payload : Nat) (small : payload < 2 ^ single.fractionBits) :
    payload * 2 ^ spareBits ||| double.quietBit < 2 ^ double.fractionBits := by
  apply Nat.or_lt_two_pow
  · have split : 2 ^ double.fractionBits = 2 ^ single.fractionBits * 2 ^ spareBits := by decide
    rw [split]
    exact Nat.mul_lt_mul_of_pos_right small (Nat.two_pow_pos _)
  · decide

theorem narrow_payload (payload : Nat) :
    (payload * 2 ^ spareBits ||| double.quietBit) / 2 ^ spareBits =
      payload ||| single.quietBit := by
  rw [← Nat.shiftRight_eq_div_pow, ← Nat.shiftLeft_eq, Nat.shiftRight_or_distrib,
    Nat.shiftLeft_shiftRight]
  rfl

/-- The double of a NaN: its payload, quiet, in front of the spare bits. -/
theorem widen_nan (nan : single.infinity < x.magnitude) :
    x.widen = .ofMagnitude x.isNegative
      (double.infinity + (x.payload * 2 ^ spareBits ||| double.quietBit)) := by
  rw [widen, if_pos nan, payload]

theorem magnitude_widen_nan (nan : single.infinity < x.magnitude) :
    x.widen.magnitude = double.infinity + (x.payload * 2 ^ spareBits ||| double.quietBit) ∧
      x.widen.isNegative = x.isNegative := by
  have fits := widen_payload_lt x.payload x.payload_lt
  have top : double.infinity + 2 ^ double.fractionBits = 2 ^ 63 := by decide
  have small : double.infinity + (x.payload * 2 ^ spareBits ||| double.quietBit) < 2 ^ 63 := by
    omega
  rw [x.widen_nan nan]
  exact ⟨Binary64.magnitude_ofMagnitude _ _ small, Binary64.isNegative_ofMagnitude _ _ small⟩

theorem isNaN_widen (nan : single.infinity < x.magnitude) : x.widen.isNaN = true := by
  have positive : 0 < double.quietBit := by decide
  have quiet : double.quietBit ≤ x.payload * 2 ^ spareBits ||| double.quietBit := Nat.right_le_or
  rw [Binary64.isNaN, (x.magnitude_widen_nan nan).1]
  exact decide_eq_true (by omega)

theorem quiet_of_number (number : x.widen.isNaN = false) : x.quiet = x := by
  refine if_neg fun nan => ?_
  rw [x.isNaN_widen nan] at number
  exact absurd number (by decide)

theorem narrow_nan (nan : single.infinity < x.magnitude) : narrow? x.widen = some x.quiet := by
  obtain ⟨magnitude, negative⟩ := x.magnitude_widen_nan nan
  rw [narrow?, if_pos (x.isNaN_widen nan), magnitude, negative, Nat.add_sub_cancel_left,
    narrow_payload, quiet, if_pos nan]
  simp only [Nat.or_assoc, Nat.or_self]

theorem narrow_widen : narrow? x.widen = some x.quiet := by
  rcases Nat.lt_trichotomy x.magnitude single.infinity with finite | infinite | nan
  · rw [quiet, if_neg (by omega)]
    exact x.narrow_finite finite
  · rw [quiet, if_neg (by omega)]
    exact x.narrow_infinite infinite
  · exact x.narrow_nan nan

theorem widen_quiet : x.quiet.widen = x.widen := by
  by_cases nan : single.infinity < x.magnitude
  · have small := infinity_add_quiet_lt x.payload x.payload_lt
    have positive : 0 < single.quietBit := by decide
    have some : single.quietBit ≤ x.payload ||| single.quietBit := Nat.right_le_or
    have quieted : x.quiet =
        ofMagnitude x.isNegative (single.infinity + (x.payload ||| single.quietBit)) := by
      rw [quiet, if_pos nan]
    have magnitude := magnitude_ofMagnitude x.isNegative _ small
    have spread : (x.payload ||| single.quietBit) * 2 ^ spareBits =
        x.payload * 2 ^ spareBits ||| double.quietBit := by
      rw [← Nat.shiftLeft_eq, Nat.shiftLeft_or_distrib, Nat.shiftLeft_eq]
      rfl
    have payload : x.quiet.payload = x.payload ||| single.quietBit := by
      rw [quieted, Binary32.payload, magnitude, Nat.add_sub_cancel_left]
    have negative : x.quiet.isNegative = x.isNegative := by
      rw [quieted, isNegative_ofMagnitude _ _ small]
    rw [widen_nan _ (by rw [quieted, magnitude]; omega), x.widen_nan nan, payload, negative, spread,
      Nat.or_assoc, Nat.or_self]
  · rw [quiet, if_neg nan]

end Dis.Binary32

import Dis.Proofs.Numeric.Nearest
import Mathlib.Algebra.Order.Field.Rat
import Mathlib.Algebra.Order.Ring.Abs
import Mathlib.Tactic.FieldSimp
import Mathlib.Tactic.Linarith
import Mathlib.Tactic.NormNum

/-! Where a format ends. A single has room up to halfway to the power of two behind its
largest number, and a word of eighths up to half an eighth behind its last one; what falls
on the midpoint itself goes to the even neighbour. -/

namespace Dis

theorem Binary64.kind_cases (x : Binary64) :
    (x.isFinite ∧ x.isInfinite = false ∧ x.isNaN = false) ∨
      (x.isFinite = false ∧ x.isInfinite ∧ x.isNaN = false) ∨
      (x.isFinite = false ∧ x.isInfinite = false ∧ x.isNaN) := by
  simp only [isFinite, isInfinite, isNaN, decide_eq_true_eq, decide_eq_false_iff_not]
  omega

namespace BinaryFormat

variable (format : BinaryFormat)

/-- Rounding leaves the format from half a digit below the power of two that would be next. -/
theorem nearest_eq_infinity (room : 2 ≤ format.exponentBits) (num den : Nat) (positive : 0 < den) :
    format.nearest num den = format.infinity ↔
      2 * (2 ^ (format.fractionBits + 1) * (den * 2 ^ (2 ^ format.exponentBits - 3))) ≤
        2 * (num * 2 ^ format.scale) + den * 2 ^ (2 ^ format.exponentBits - 3) := by
  obtain ⟨s, r, word, rounded, least, most⟩ := format.nearest_digits num den positive
  have exponents : 2 ^ 2 ≤ 2 ^ format.exponentBits := Nat.pow_le_pow_right (by decide) room
  have unit : 0 < den * 2 ^ s := Nat.mul_pos positive (Nat.two_pow_pos s)
  have double : 2 ^ (format.fractionBits + 1) = 2 * 2 ^ format.fractionBits := Nat.pow_succ'
  have full := Nat.two_pow_pos format.fractionBits
  have fits := rounded.le_of_le_mul unit _ most.le
  generalize top : 2 ^ format.exponentBits - 3 = t
  have infinity : format.infinity = (t + 2) * 2 ^ format.fractionBits := by
    rw [BinaryFormat.infinity, show 2 ^ format.exponentBits - 1 = t + 2 by omega]
  rw [word, infinity, min_eq_left_iff, Nat.add_mul]
  rcases Nat.lt_trichotomy s t with fewer | rfl | more
  · -- Fewer digits fall away than at the top exponent, and a carry reaches no farther than it.
    have words : s * 2 ^ format.fractionBits + 2 ^ format.fractionBits ≤
        t * 2 ^ format.fractionBits := by
      rw [← Nat.add_one_mul]
      exact Nat.mul_le_mul_right _ fewer
    have steps : 2 * (den * 2 ^ s) ≤ den * 2 ^ t := by
      rw [Nat.mul_left_comm, ← Nat.pow_succ']
      exact Nat.mul_le_mul_left den (Nat.pow_le_pow_right (by decide) fewer)
    have values := Nat.mul_le_mul_left (2 ^ format.fractionBits) steps
    have smaller := Nat.le_mul_of_pos_left (den * 2 ^ t) full
    rw [Nat.mul_left_comm] at values
    rw [double, Nat.mul_assoc] at most ⊢
    omega
  · have reached := rounded.le_iff_of_even unit (2 ^ (format.fractionBits + 1)) (by omega)
    rw [← reached, double]
    omega
  · have words : t * 2 ^ format.fractionBits + 2 ^ format.fractionBits ≤
        s * 2 ^ format.fractionBits := by
      rw [← Nat.add_one_mul]
      exact Nat.mul_le_mul_right _ more
    have steps : 2 * (den * 2 ^ t) ≤ den * 2 ^ s := by
      rw [Nat.mul_left_comm, ← Nat.pow_succ']
      exact Nat.mul_le_mul_left den (Nat.pow_le_pow_right (by decide) more)
    have values := Nat.mul_le_mul_left (2 ^ format.fractionBits) steps
    have inside := least.resolve_left (by omega)
    have reached := rounded.le_of_mul_le unit _ inside
    rw [Nat.mul_left_comm] at values
    rw [double, Nat.mul_assoc]
    omega

end BinaryFormat

namespace Binary32

open BinaryFormat (single double)

/-- In units of a double: half a digit below `2 ^ 128`. -/
def ceiling : Nat := (2 ^ 25 - 1) * 2 ^ (103 + double.scale)

theorem nearest_eq_infinity (u : Nat) :
    single.nearest u (2 ^ double.scale) = single.infinity ↔ ceiling ≤ u := by
  have exponents : double.scale + (2 ^ single.exponentBits - 3) =
      103 + double.scale + (single.scale + 1) := by decide
  have step : 2 ^ double.scale * 2 ^ (2 ^ single.exponentBits - 3) =
      2 ^ (103 + double.scale) * 2 ^ (single.scale + 1) := by
    rw [← Nat.pow_add, ← Nat.pow_add, exponents]
  have value : 2 * (u * 2 ^ single.scale) = u * 2 ^ (single.scale + 1) := by
    rw [Nat.mul_left_comm, Nat.pow_succ']
  rw [single.nearest_eq_infinity (by decide) u _ (Nat.two_pow_pos double.scale), step, value,
    ← Nat.mul_assoc, ← Nat.mul_assoc, ← Nat.add_mul, Nat.mul_le_mul_right_iff (Nat.two_pow_pos _),
    ceiling]
  generalize 2 ^ (103 + double.scale) = unit
  simp only [single]
  omega

theorem narrow?_eq_none {x : Binary64} :
    narrow? x = none ↔ x.isFinite ∧ ceiling ≤ double.units x.magnitude := by
  rcases x.kind_cases with ⟨finite, inside, number⟩ | ⟨other, infinite, number⟩ | ⟨other, -, nan⟩
  · simp [narrow?, finite, inside, number, nearest_eq_infinity]
  · simp [narrow?, other, infinite, number]
  · simp [narrow?, other, nan]

end Binary32

namespace FixedPoint

open BinaryFormat (double)

/-- Rounded to a word, the number is in range up to half a word behind either end. The lower
end is even, so the midpoint behind it still counts; the upper end is odd. -/
theorem roundHalfEvenInt_inside (num : Int) (den : Nat) (positive : 0 < den) :
    (least ≤ roundHalfEvenInt num den ∧ roundHalfEvenInt num den ≤ greatest) ↔
      -(2 ^ 16 + 1) * (den : Int) ≤ 2 * num ∧ 2 * num < (2 ^ 16 - 1) * (den : Int) := by
  obtain ⟨near, even⟩ := isRounded_int num den positive
  generalize roundHalfEvenInt num den = r at near even
  simp only [least, greatest]
  constructor
  · rintro ⟨above, below⟩
    have low : -2 ^ 15 * (den : Int) ≤ r * den := Int.mul_le_mul_of_nonneg_right above (by omega)
    have high : r * (den : Int) ≤ (2 ^ 15 - 1) * den := Int.mul_le_mul_of_nonneg_right below (by omega)
    refine ⟨by omega, ?_⟩
    by_contra past
    have tie : r * (den : Int) = (2 ^ 15 - 1) * den := by omega
    have last := Int.eq_of_mul_eq_mul_right (by omega) tie
    have := even (by omega)
    omega
  · rintro ⟨above, below⟩
    constructor
    · by_contra short
      have step : r * (den : Int) ≤ (-2 ^ 15 - 1) * den :=
        Int.mul_le_mul_of_nonneg_right (by omega) (by omega)
      have tie : r * (den : Int) = (-2 ^ 15 - 1) * den := by omega
      have next := Int.eq_of_mul_eq_mul_right (by omega) tie
      have := even (by omega)
      omega
    · by_contra past
      have step : 2 ^ 15 * (den : Int) ≤ r * den :=
        Int.mul_le_mul_of_nonneg_right (by omega) (by omega)
      omega

theorem not_overflow {x : Binary64}
    (inside : least ≤ roundHalfEvenInt (x.units * scale) (2 ^ double.scale) ∧
      roundHalfEvenInt (x.units * scale) (2 ^ double.scale) ≤ greatest) :
    ¬ 2 ^ (1024 + double.scale) ≤ scale * double.units x.magnitude := by
  have positive := Nat.two_pow_pos double.scale
  obtain ⟨above, below⟩ := (roundHalfEvenInt_inside _ _ positive).mp inside
  have room : 2 ^ 17 * 2 ^ double.scale ≤ 2 ^ (1024 + double.scale) := by
    rw [← Nat.pow_add]
    exact Nat.pow_le_pow_right (by decide) (by omega)
  have value : (x.units * scale).natAbs = scale * double.units x.magnitude := by
    rw [Int.natAbs_mul, Int.natAbs_natCast, Nat.mul_comm, Binary64.units]
    split <;> simp
  generalize 2 ^ double.scale = unit at *
  generalize 2 ^ (1024 + double.scale) = top at *
  omega

theorem ofBinary64_eq_ok {x : Binary64} {word : Int} :
    ofBinary64 x = .ok word ↔
      x.isFinite ∧ word = roundHalfEvenInt (x.units * scale) (2 ^ double.scale) ∧
        least ≤ word ∧ word ≤ greatest := by
  rcases x.kind_cases with ⟨finite, within, number⟩ | ⟨other, infinite, number⟩ | ⟨other, -, nan⟩
  · simp only [ofBinary64, finite, within, number, Bool.false_eq_true, if_false, Bool.false_or,
      decide_eq_true_eq, true_and]
    constructor
    · intro rounded
      split at rounded
      · cases rounded
      · split at rounded
        · next inside =>
          cases rounded
          exact ⟨rfl, inside⟩
        · cases rounded
    · rintro ⟨rfl, inside⟩
      rw [if_neg (not_overflow inside), if_pos inside]
  · simp [ofBinary64, other, infinite, number]
  · simp [ofBinary64, other, nan]

/-- Is the eightfold of a number out of the range of doubles, and so taken for infinite? -/
def Overflows (x : Binary64) : Prop :=
  x.isInfinite ∨ x.isFinite ∧ 2 ^ (1024 + double.scale) ≤ scale * double.units x.magnitude

instance (x : Binary64) : Decidable (Overflows x) := inferInstanceAs (Decidable (_ ∨ _ ∧ _))

theorem ofBinary64_eq_nan {x : Binary64} : ofBinary64 x = .error .nan ↔ x.isNaN := by
  unfold ofBinary64
  split
  · next nan => simp [nan]
  · next number =>
    simp only [number, Bool.false_eq_true, iff_false]
    split
    · simp
    · split <;> simp

theorem ofBinary64_eq_infinite {x : Binary64} : ofBinary64 x = .error .infinite ↔ Overflows x := by
  rcases x.kind_cases with ⟨finite, within, number⟩ | ⟨other, infinite, number⟩ | ⟨other, within, nan⟩
  · simp only [ofBinary64, Overflows, finite, within, number, Bool.false_eq_true, if_false,
      Bool.false_or, decide_eq_true_eq, false_or, true_and]
    split
    · next above => simp [above]
    · next short =>
      simp only [short, iff_false]
      split <;> simp
  · simp [ofBinary64, Overflows, infinite, number]
  · simp [ofBinary64, Overflows, other, within, nan]

end FixedPoint
end Dis

/-! The exact value of a double as a rational number, and what doubles hold exactly. -/

namespace Dis.Binary64

open BinaryFormat (double)

/-- The exact value of a finite number. -/
def value (x : Binary64) : ℚ := x.units / (2 ^ double.scale : Nat)

theorem unit_pos : (0 : ℚ) < (2 ^ double.scale : Nat) :=
  Nat.cast_pos.mpr (Nat.two_pow_pos double.scale)

variable {x y : Binary64} {n : Int} {d : Nat}

theorem value_le_value : x.value ≤ y.value ↔ x.units ≤ y.units := by
  rw [value, value, div_le_div_iff_of_pos_right unit_pos, Int.cast_le]

theorem div_le_value (positive : 0 < d) :
    (n / d : ℚ) ≤ x.value ↔ n * (2 ^ double.scale : Nat) ≤ x.units * d := by
  rw [value, div_le_div_iff₀ (Nat.cast_pos.mpr positive) unit_pos]
  norm_cast

theorem value_lt_div (positive : 0 < d) :
    x.value < n / d ↔ x.units * d < n * (2 ^ double.scale : Nat) := by
  rw [value, div_lt_div_iff₀ unit_pos (Nat.cast_pos.mpr positive)]
  norm_cast

theorem value_eq_div (positive : 0 < d) :
    x.value = n / d ↔ x.units * d = n * (2 ^ double.scale : Nat) := by
  rw [value, div_eq_div_iff unit_pos.ne' (Nat.cast_pos.mpr positive).ne']
  norm_cast

/-- How far a multiple of a number is from a whole one, counted in units. -/
theorem abs_value_sub (x : Binary64) (n : Int) (d : Nat) :
    |x.value * d - n| * (2 ^ double.scale : Nat) =
      ((x.units * d - n * (2 ^ double.scale : Nat)).natAbs : ℚ) := by
  have unit := unit_pos
  rw [value]
  generalize 2 ^ double.scale = one at unit ⊢
  have spread : (x.units / one * d - n) * (one : ℚ) = (x.units * d - n * one : Int) := by
    push_cast
    field_simp
  have inside := abs_mul ((x.units : ℚ) / one * d - n) one
  rw [abs_of_pos unit] at inside
  rw [← inside, spread, Nat.cast_natAbs, Int.cast_abs]

theorem value_nearest (k j : Nat) (short : k < 2 ^ 53) (fine : j ≤ double.scale) :
    (nearest false k (2 ^ j)).isFinite ∧ (nearest false k (2 ^ j)).value = k / (2 ^ j : Nat) := by
  obtain ⟨finite, units⟩ := BinaryFormat.double_nearest k j short fine
  have small := Nat.lt_trans finite infinity_lt
  have kept := magnitude_ofMagnitude false _ small
  have sign := isNegative_ofMagnitude false _ small
  constructor
  · rw [nearest, isFinite, kept]
    exact decide_eq_true finite
  · rw [← Int.cast_natCast k, value_eq_div (Nat.two_pow_pos j), nearest, Binary64.units, kept, sign,
      units, if_neg Bool.false_ne_true, ← Int.natCast_mul, ← Int.natCast_mul, Nat.mul_assoc,
      ← Nat.pow_add, Nat.sub_add_cancel fine]

end Dis.Binary64

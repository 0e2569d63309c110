import Dis.Proofs.Domain
import Dis.Proofs.RoundTrip
import Mathlib.Algebra.Order.Field.Basic
import Mathlib.Tactic.Ring

/-! Numbers in eighths. What has a word is told by its value, and the word is the nearest one;
no number overtakes another on the way, and a number of eighths comes back as it was. -/

namespace Dis

namespace FixedPoint

open BinaryFormat (double)

/-- Half an eighth below the first word still counts, and half an eighth above the last one
does not. -/
def IsInRange (x : Binary64) : Prop :=
  x.isFinite ∧ -4096.0625 ≤ x.value ∧ x.value < 4095.9375

variable {x x' : Binary64} {word word' : Int}

theorem holds_iff : FloatFormat.fixedPoint.Holds x ↔ IsInRange x := by
  have least : (-4096.0625 : ℚ) = (-(2 ^ 16 + 1) : Int) / (16 : Nat) := by norm_num
  have greatest : (4095.9375 : ℚ) = ((2 ^ 16 - 1 : Int) : ℚ) / (16 : Nat) := by norm_num
  have inside := roundHalfEvenInt_inside (x.units * scale) _ (Nat.two_pow_pos double.scale)
  rw [IsInRange, least, greatest, Binary64.div_le_value (by decide),
    Binary64.value_lt_div (by decide)]
  refine and_congr_right fun _ => inside.trans ?_
  generalize ((2 ^ double.scale : Nat) : Int) = one
  simp only [scale]
  omega

theorem IsNearest.value (near : IsNearest x word) :
    |x.value * 8 - word| ≤ 1 / 2 ∧ (|x.value * 8 - word| = 1 / 2 → word % 2 = 0) := by
  have unit := Binary64.unit_pos
  have gap := Binary64.abs_value_sub x word scale
  have closest : (2 * (x.units * scale - word * (2 ^ double.scale : Nat)).natAbs : ℚ) ≤
      (2 ^ double.scale : Nat) := mod_cast near.nearest
  change |x.value * (8 : Nat) - word| * _ = _ at gap
  rw [Nat.cast_ofNat] at gap
  rw [← gap] at closest
  constructor
  · refine le_of_mul_le_mul_right ?_ unit
    linarith
  · intro tie
    refine near.even ?_
    rw [tie] at gap
    have doubled : (2 * (x.units * scale - word * (2 ^ double.scale : Nat)).natAbs : ℚ) =
        (2 ^ double.scale : Nat) := by linarith
    exact_mod_cast doubled

theorem IsNearest.mono (near : IsNearest x word) (near' : IsNearest x' word')
    (ordered : x.value ≤ x'.value) : word ≤ word' := by
  obtain ⟨close, even⟩ := near.value
  obtain ⟨close', even'⟩ := near'.value
  by_contra passed
  have step : (word' : ℚ) + 1 ≤ word := by
    exact_mod_cast (show word' + 1 ≤ word by omega)
  -- Only the midpoint of two neighbours could be left, and one of the two is odd.
  obtain ⟨above, below⟩ := abs_le.mp close
  obtain ⟨above', below'⟩ := abs_le.mp close'
  have tie : |x.value * 8 - word| = 1 / 2 := by
    rw [show x.value * 8 - word = -(1 / 2) by linarith, abs_neg, abs_of_pos (by norm_num)]
  have tie' : |x'.value * 8 - word'| = 1 / 2 := by
    rw [show x'.value * 8 - word' = 1 / 2 by linarith, abs_of_pos (by norm_num)]
  have next : (word : ℚ) = word' + 1 := by linarith
  have next : word = word' + 1 := by exact_mod_cast next
  have := even tie
  have := even' tie'
  omega

theorem value_toBinary64 (holds : least ≤ word ∧ word ≤ greatest) :
    (toBinary64 word).value = word / 8 :=
  (Binary64.value_eq_div (d := scale) (by decide)).mpr (units_toBinary64 word holds).2

/-- What is read back after a number was written: the nearest eighth, an even one if two are as
near, and the number itself if it is one. -/
structure ReadsBack (x y : Binary64) : Prop where
  finite : y.isFinite
  eighth : ∃ word : Int, y.value = word / 8
  least : -4096 ≤ y.value
  greatest : y.value ≤ 4095.875
  near : |y.value - x.value| ≤ 1 / 16
  even : |y.value - x.value| = 1 / 16 → ∃ n : Int, y.value = n / 4
  exact : (∃ n : Int, x.value = n / 8) → y.value = x.value
  again : FloatFormat.fixedPoint.write y = FloatFormat.fixedPoint.write x

theorem readsBack_of_ofBinary64 (rounded : ofBinary64 x = .ok word) :
    ReadsBack x (toBinary64 word) := by
  have nearest := isNearest_of_ofBinary64 rounded
  obtain ⟨close, even⟩ := nearest.value
  have holds := nearest.holds
  have value := value_toBinary64 holds
  have gap : |(toBinary64 word).value - x.value| = |x.value * 8 - word| / 8 := by
    rw [value, abs_sub_comm, show x.value - word / 8 = (x.value * 8 - word) / 8 by ring, abs_div,
      abs_of_pos (show (0 : ℚ) < 8 by norm_num)]
  constructor
  case finite => exact (units_toBinary64 word holds).1
  case eighth => exact ⟨word, value⟩
  case least =>
    have lower : (-(2 ^ 15) : ℚ) ≤ word := by exact_mod_cast holds.1
    linarith
  case greatest =>
    have upper : (word : ℚ) ≤ 2 ^ 15 - 1 := by exact_mod_cast holds.2
    linarith
  case near => linarith
  case even =>
    intro tie
    obtain ⟨n, rfl⟩ := Int.dvd_of_emod_eq_zero (even (by linarith))
    refine ⟨n, ?_⟩
    rw [value]
    push_cast
    ring
  case exact =>
    rintro ⟨n, eighths⟩
    rw [eighths, div_mul_cancel₀ _ (by norm_num)] at close
    obtain ⟨above, below⟩ := abs_le.mp close
    have most : n < word + 1 := by exact_mod_cast (show (n : ℚ) < word + 1 by linarith)
    have least : word < n + 1 := by exact_mod_cast (show (word : ℚ) < n + 1 by linarith)
    rw [value, eighths, show n = word by omega]
  case again =>
    rw [FloatFormat.write_of_ofBinary64 rounded,
      FloatFormat.write_of_ofBinary64 (ofBinary64_toBinary64 word holds)]

theorem ofBinary64_of_write {octets : Octets} (written : FloatFormat.fixedPoint.write x = .ok octets) :
    ∃ word, ofBinary64 x = .ok word ∧ FloatFormat.fixedPoint.norm x = toBinary64 word := by
  cases rounded : ofBinary64 x with
  | ok word => exact ⟨word, rfl, FloatFormat.norm_of_ofBinary64 rounded⟩
  | error refusal =>
      simp only [FloatFormat.write, rounded] at written
      cases written

theorem readsBack_of_write {octets : Octets} (written : FloatFormat.fixedPoint.write x = .ok octets) :
    ReadsBack x (FloatFormat.fixedPoint.norm x) := by
  obtain ⟨word, rounded, same⟩ := ofBinary64_of_write written
  rw [same]
  exact readsBack_of_ofBinary64 rounded

theorem readsBack_norm (inside : IsInRange x) : ReadsBack x (FloatFormat.fixedPoint.norm x) := by
  obtain ⟨octets, written⟩ := FloatFormat.write_isOk_iff.mpr (holds_iff.mpr inside)
  exact readsBack_of_write written

theorem value_norm_mono {octets octets' : Octets}
    (written : FloatFormat.fixedPoint.write x = .ok octets)
    (written' : FloatFormat.fixedPoint.write x' = .ok octets') (ordered : x.value ≤ x'.value) :
    (FloatFormat.fixedPoint.norm x).value ≤ (FloatFormat.fixedPoint.norm x').value := by
  obtain ⟨word, rounded, same⟩ := ofBinary64_of_write written
  obtain ⟨word', rounded', same'⟩ := ofBinary64_of_write written'
  have near := isNearest_of_ofBinary64 rounded
  have near' := isNearest_of_ofBinary64 rounded'
  rw [same, same', value_toBinary64 near.holds, value_toBinary64 near'.holds]
  exact div_le_div_of_nonneg_right (Int.cast_le.mpr (near.mono near' ordered)) (by norm_num)

end FixedPoint

namespace Layout

/-- Whole numbers and numbers in eighths, and nothing else. -/
def isEighths : Layout → Bool
  | done => true
  | atom _ (.int ..) rest | atom _ (.float .fixedPoint _) rest => rest.isEighths
  | _ => false

theorem write_norm_of_isEighths (layout : Layout) (eighths : layout.isEighths) {scope : Scope}
    {v : layout.Value} {octets : Octets} (written : layout.writeIn scope v = ⟨octets, none⟩) :
    layout.writeIn scope (layout.norm v) = ⟨octets, none⟩ := by
  induction layout generalizing scope octets with
  | done => exact written
  | atom name a rest ih =>
      obtain ⟨x, v⟩ := v
      obtain ⟨front, back, head, tail, rfl⟩ := Written.append_eq_complete.mp written
      cases a with
      | int format start =>
          exact Written.append_eq_complete.mpr ⟨front, back, head, ih eighths tail, rfl⟩
      | float format start =>
          cases format with
          | fixedPoint =>
              have first := Written.ofExcept_eq_complete.mp (Written.under_eq_complete.mp head)
              have again := Written.ofExcept_eq_complete.mpr
                ((FixedPoint.readsBack_of_write first).again.trans first)
              exact Written.append_eq_complete.mpr
                ⟨front, back, Written.under_eq_complete.mpr again, ih eighths tail, rfl⟩
          | _ => cases eighths
      | _ => cases eighths
  | _ => cases eighths

end Layout

namespace RecordKind

open FixedPoint (IsInRange ReadsBack holds_iff readsBack_norm)

theorem decode_of_isEighths {kind : RecordKind} (eighths : kind.layout.isEighths)
    (sound : kind.layout.isSound) (free : kind.lengthBound = false) {value : kind.Value}
    {data : Octets} (encoded : kind.encode value = .ok data) :
    kind.decode data = .ok (kind.layout.norm value) ∧
      kind.encode (kind.layout.norm value) = .ok data :=
  ⟨decode_of_encode sound free encoded,
    encode_eq_ok.mpr (kind.layout.write_norm_of_isEighths eighths (encode_eq_ok.mp encoded))⟩

theorem holds_positionError (x y : Binary64) :
    positionError.layout.Holds (x, y, ()) ↔ IsInRange x ∧ IsInRange y := by
  simp only [positionError, Layout.Holds, Layout.HoldsIn, Atom.Holds, holds_iff, and_true]

theorem holds_orientationError (x y z : Binary64) :
    orientationError.layout.Holds (x, y, z, ()) ↔ IsInRange x ∧ IsInRange y ∧ IsInRange z := by
  simp only [orientationError, Layout.Holds, Layout.HoldsIn, Atom.Holds, holds_iff, and_true]

theorem holds_relativeWorldCoordinates (n : Int) (x y z : Binary64) :
    relativeWorldCoordinates.layout.Holds (n, x, y, z, ()) ↔
      IntFormat.u16.Holds n ∧ IsInRange x ∧ IsInRange y ∧ IsInRange z := by
  simp only [relativeWorldCoordinates, Layout.Holds, Layout.HoldsIn, Atom.Holds, holds_iff, and_true]

theorem again_positionError {x y : Binary64} {data : Octets}
    (encoded : positionError.encode (x, y, ()) = .ok data) : ∃ x' y',
      positionError.decode data = .ok (x', y', ()) ∧ positionError.encode (x', y', ()) = .ok data ∧
      ReadsBack x x' ∧ ReadsBack y y' := by
  obtain ⟨first, second⟩ := (holds_positionError x y).mp (encode_isOk_iff.mp ⟨data, encoded⟩)
  obtain ⟨decoded, again⟩ := decode_of_isEighths rfl rfl rfl encoded
  exact ⟨_, _, decoded, again, readsBack_norm first, readsBack_norm second⟩

theorem again_orientationError {x y z : Binary64} {data : Octets}
    (encoded : orientationError.encode (x, y, z, ()) = .ok data) : ∃ x' y' z',
      orientationError.decode data = .ok (x', y', z', ()) ∧
      orientationError.encode (x', y', z', ()) = .ok data ∧
      ReadsBack x x' ∧ ReadsBack y y' ∧ ReadsBack z z' := by
  obtain ⟨first, second, third⟩ :=
    (holds_orientationError x y z).mp (encode_isOk_iff.mp ⟨data, encoded⟩)
  obtain ⟨decoded, again⟩ := decode_of_isEighths rfl rfl rfl encoded
  exact ⟨_, _, _, decoded, again, readsBack_norm first, readsBack_norm second, readsBack_norm third⟩

theorem again_relativeWorldCoordinates {n : Int} {x y z : Binary64} {data : Octets}
    (encoded : relativeWorldCoordinates.encode (n, x, y, z, ()) = .ok data) : ∃ x' y' z',
      relativeWorldCoordinates.decode data = .ok (n, x', y', z', ()) ∧
      relativeWorldCoordinates.encode (n, x', y', z', ()) = .ok data ∧
      ReadsBack x x' ∧ ReadsBack y y' ∧ ReadsBack z z' := by
  obtain ⟨-, first, second, third⟩ :=
    (holds_relativeWorldCoordinates n x y z).mp (encode_isOk_iff.mp ⟨data, encoded⟩)
  obtain ⟨decoded, again⟩ := decode_of_isEighths rfl rfl rfl encoded
  exact ⟨_, _, _, decoded, again, readsBack_norm first, readsBack_norm second, readsBack_norm third⟩

end RecordKind

open FloatFormat (fixedPoint) in
open FixedPoint (IsInRange ReadsBack) in
open RecordKind (positionError orientationError relativeWorldCoordinates) in
/-- A number has a word in eighths exactly if it is in range after rounding, and it is read back as
the nearest eighth. Rounding keeps the order, every word is that of the number it is read as, and
so the records made of such numbers keep them. -/
theorem eighths_law :
    (∀ x : Binary64, (∃ octets, fixedPoint.write x = .ok octets) ↔ IsInRange x) ∧
    (∀ (x : Binary64) (octets : Octets), fixedPoint.write x = .ok octets →
      ReadsBack x (fixedPoint.ofOctets octets) ∧
      fixedPoint.write (fixedPoint.ofOctets octets) = .ok octets) ∧
    (∀ (x x' : Binary64) (octets octets' : Octets), fixedPoint.write x = .ok octets →
      fixedPoint.write x' = .ok octets' → x.value ≤ x'.value →
      (fixedPoint.ofOctets octets).value ≤ (fixedPoint.ofOctets octets').value) ∧
    (∀ octets : Octets, octets.length = 2 →
      fixedPoint.write (fixedPoint.ofOctets octets) = .ok octets) ∧
    (∀ x y : Binary64,
      ((∃ data, positionError.encode (x, y, ()) = .ok data) ↔ IsInRange x ∧ IsInRange y) ∧
      ∀ data, positionError.encode (x, y, ()) = .ok data → ∃ x' y',
        positionError.decode data = .ok (x', y', ()) ∧
        positionError.encode (x', y', ()) = .ok data ∧ ReadsBack x x' ∧ ReadsBack y y') ∧
    (∀ x y z : Binary64,
      ((∃ data, orientationError.encode (x, y, z, ()) = .ok data) ↔
        IsInRange x ∧ IsInRange y ∧ IsInRange z) ∧
      ∀ data, orientationError.encode (x, y, z, ()) = .ok data → ∃ x' y' z',
        orientationError.decode data = .ok (x', y', z', ()) ∧
        orientationError.encode (x', y', z', ()) = .ok data ∧
        ReadsBack x x' ∧ ReadsBack y y' ∧ ReadsBack z z') ∧
    (∀ (n : Int) (x y z : Binary64),
      ((∃ data, relativeWorldCoordinates.encode (n, x, y, z, ()) = .ok data) ↔
        IntFormat.u16.Holds n ∧ IsInRange x ∧ IsInRange y ∧ IsInRange z) ∧
      ∀ data, relativeWorldCoordinates.encode (n, x, y, z, ()) = .ok data → ∃ x' y' z',
        relativeWorldCoordinates.decode data = .ok (n, x', y', z', ()) ∧
        relativeWorldCoordinates.encode (n, x', y', z', ()) = .ok data ∧
        ReadsBack x x' ∧ ReadsBack y y' ∧ ReadsBack z z') := by
  refine ⟨?_, ?_, ?_, ?_, ?_, ?_, ?_⟩
  · intro x
    exact FloatFormat.write_isOk_iff.trans FixedPoint.holds_iff
  · intro x octets written
    have back := FixedPoint.readsBack_of_write written
    rw [FloatFormat.ofOctets_of_write written]
    exact ⟨back, back.again.trans written⟩
  · intro x x' octets octets' written written' ordered
    rw [FloatFormat.ofOctets_of_write written, FloatFormat.ofOctets_of_write written']
    exact FixedPoint.value_norm_mono written written' ordered
  · intro octets size
    exact fixedPoint.write_ofOctets octets size
  · intro x y
    refine ⟨RecordKind.encode_isOk_iff.trans (RecordKind.holds_positionError x y), ?_⟩
    exact fun data encoded => RecordKind.again_positionError encoded
  · intro x y z
    refine ⟨RecordKind.encode_isOk_iff.trans (RecordKind.holds_orientationError x y z), ?_⟩
    exact fun data encoded => RecordKind.again_orientationError encoded
  · intro n x y z
    refine ⟨RecordKind.encode_isOk_iff.trans (RecordKind.holds_relativeWorldCoordinates n x y z), ?_⟩
    exact fun data encoded => RecordKind.again_relativeWorldCoordinates encoded

/-- One is eight eighths, zero is below it, and the word of all ones stands for minus an eighth;
a record of each kind holds one and zero. -/
theorem eighths_law_samples :
    FixedPoint.ReadsBack .one (FloatFormat.fixedPoint.ofOctets [0, 8]) ∧
    (FloatFormat.fixedPoint.ofOctets [0, 0]).value ≤
      (FloatFormat.fixedPoint.ofOctets [0, 8]).value ∧
    FloatFormat.fixedPoint.write (FloatFormat.fixedPoint.ofOctets [255, 255]) = .ok [255, 255] ∧
    (∃ x y, RecordKind.positionError.decode [0, 8, 0, 0] = .ok (x, y, ()) ∧
      FixedPoint.ReadsBack .one x) ∧
    (∃ x y z, RecordKind.orientationError.decode [0, 8, 0, 0, 0, 8] = .ok (x, y, z, ()) ∧
      FixedPoint.ReadsBack .one z) ∧
    ∃ x y z, RecordKind.relativeWorldCoordinates.decode [0, 7, 0, 8, 0, 0, 0, 8] =
      .ok ((7 : Int), x, y, z, ()) ∧ FixedPoint.ReadsBack .zero y := by
  obtain ⟨-, reads, ordered, words, positions, orientations, coordinates⟩ := eighths_law
  have one : FloatFormat.fixedPoint.write .one = .ok [0, 8] := by decide +kernel
  have zero : FloatFormat.fixedPoint.write .zero = .ok [0, 0] := by decide +kernel
  refine ⟨(reads _ _ one).1, ?_, words _ rfl, ?_, ?_, ?_⟩
  · exact ordered .zero .one _ _ zero one (Binary64.value_le_value.mpr (by decide +kernel))
  · obtain ⟨x, y, decoded, -, first, -⟩ := (positions .one .zero).2 [0, 8, 0, 0] (by decide +kernel)
    exact ⟨x, y, decoded, first⟩
  · obtain ⟨x, y, z, decoded, -, -, -, third⟩ :=
      (orientations .one .zero .one).2 [0, 8, 0, 0, 0, 8] (by decide +kernel)
    exact ⟨x, y, z, decoded, third⟩
  · obtain ⟨x, y, z, decoded, -, -, second, -⟩ :=
      (coordinates 7 .one .zero .one).2 [0, 7, 0, 8, 0, 0, 0, 8] (by decide +kernel)
    exact ⟨x, y, z, decoded, second⟩

end Dis

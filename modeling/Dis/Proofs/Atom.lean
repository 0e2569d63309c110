import Dis.Proofs.Numeric.Nearest
import Dis.Proofs.Span
import Mathlib.Data.List.DropRight

/-! Numbers with a fraction on the wire. What is read after a number was written is the
nearest number that the format holds; what was read is written as it was, up to the
quiet bit of a NaN. -/

namespace Dis

namespace FloatFormat

/-- The nearest number that the format holds, ties to even. -/
def norm : FloatFormat → Binary64 → Binary64
  | single, x =>
    match Binary32.narrow? x with
    | some word => word.widen
    | none => x
  | double, x => x
  | fixedPoint, x =>
    match FixedPoint.ofBinary64 x with
    | .ok word => FixedPoint.toBinary64 word
    | .error _ => x

/-- What a number becomes on the wire and back: the nearest single, the nearest eighth, or
itself. Infinity stays infinity in a single, and a NaN stays a NaN. -/
def Becomes : FloatFormat → (before after : Binary64) → Prop
  | single, before, after =>
    (before.isFinite → ∃ word, Binary32.IsNearest before word ∧ after = word.widen) ∧
      (before.isInfinite → after = before) ∧
      (before.isNaN → after.isNaN ∧ after.isNegative = before.isNegative)
  | double, before, after => after = before
  | fixedPoint, before, after =>
    ∃ word, FixedPoint.IsNearest before word ∧ after = FixedPoint.toBinary64 word ∧
      after.isFinite ∧
      after.units * FixedPoint.scale = word * (2 ^ BinaryFormat.double.scale : Nat)

theorem write_of_ofBinary64 {x : Binary64} {word : Int}
    (rounded : FixedPoint.ofBinary64 x = .ok word) :
    fixedPoint.write x = .ok (Octets.ofNat 2 (word % 2 ^ 16).toNat) := by
  simp only [write, rounded]

theorem norm_of_narrow {x : Binary64} {word : Binary32} (narrowed : Binary32.narrow? x = some word) :
    single.norm x = word.widen := by
  simp only [norm, narrowed]

theorem norm_of_ofBinary64 {x : Binary64} {word : Int}
    (rounded : FixedPoint.ofBinary64 x = .ok word) :
    fixedPoint.norm x = FixedPoint.toBinary64 word := by
  simp only [norm, rounded]

theorem ofOctets_fixedPoint (octets : Octets) (size : octets.length = 2) :
    ∃ word, (FixedPoint.least ≤ word ∧ word ≤ FixedPoint.greatest) ∧
      Octets.ofNat 2 (word % 2 ^ 16).toNat = octets ∧
      fixedPoint.ofOctets octets = FixedPoint.toBinary64 word := by
  have small : Octets.toNat octets < 65536 := by simpa [size] using octets.toNat_lt
  let n : Int := Octets.toNat octets
  refine ⟨if n ≤ FixedPoint.greatest then n else n - 2 ^ 16, ?_, ?_, rfl⟩
  · constructor <;> split <;> simp only [FixedPoint.least, FixedPoint.greatest] at * <;> omega
  · have wrapped : ((if n ≤ FixedPoint.greatest then n else n - 2 ^ 16) % 2 ^ 16).toNat =
        Octets.toNat octets := by
      split <;> omega
    rw [wrapped, ← size, Octets.ofNat_toNat]

theorem ofOctets_ofNat_fixedPoint (word : Int)
    (holds : FixedPoint.least ≤ word ∧ word ≤ FixedPoint.greatest) :
    fixedPoint.ofOctets (Octets.ofNat 2 (word % 2 ^ 16).toNat) = FixedPoint.toBinary64 word := by
  simp only [FixedPoint.least, FixedPoint.greatest] at holds
  have spelled : Octets.toNat (Octets.ofNat 2 (word % 2 ^ 16).toNat) = (word % 2 ^ 16).toNat :=
    Octets.toNat_ofNat_of_lt _ _ (by omega)
  simp only [ofOctets, spelled, FixedPoint.greatest]
  congr 1
  split <;> omega

theorem length_of_write {format : FloatFormat} {x : Binary64} {octets : Octets}
    (written : format.write x = .ok octets) : octets.length = format.width := by
  cases format with
  | single =>
      simp only [write] at written
      split at written <;> cases written
      exact Octets.length_ofNat ..
  | double =>
      cases written
      exact Octets.length_ofNat ..
  | fixedPoint =>
      simp only [write] at written
      split at written <;> cases written
      exact Octets.length_ofNat ..

theorem ofOctets_of_write {format : FloatFormat} {x : Binary64} {octets : Octets}
    (written : format.write x = .ok octets) : format.ofOctets octets = format.norm x := by
  cases format with
  | single =>
      simp only [write] at written
      split at written <;> cases written
      next word narrowed =>
      have spelled : Octets.toNat (Octets.ofNat 4 word.bits.toNat) = word.bits.toNat :=
        Octets.toNat_ofNat_of_lt _ _ word.bits.toNat_lt
      rw [norm_of_narrow narrowed]
      simp only [ofOctets, spelled, UInt32.ofNat_toNat]
  | double =>
      cases written
      have spelled : Octets.toNat (Octets.ofNat 8 x.bits.toNat) = x.bits.toNat :=
        Octets.toNat_ofNat_of_lt _ _ x.bits.toNat_lt
      simp only [ofOctets, norm, spelled, UInt64.ofNat_toNat]
  | fixedPoint =>
      simp only [write] at written
      split at written <;> cases written
      next word rounded =>
      rw [norm_of_ofBinary64 rounded]
      exact ofOctets_ofNat_fixedPoint word (FixedPoint.isNearest_of_ofBinary64 rounded).holds

theorem becomes_norm {format : FloatFormat} {x : Binary64} {octets : Octets}
    (written : format.write x = .ok octets) : format.Becomes x (format.norm x) := by
  cases format with
  | single =>
      simp only [write] at written
      split at written <;> cases written
      next word narrowed =>
      rw [norm_of_narrow narrowed]
      exact ⟨fun finite => ⟨word, Binary32.isNearest_of_narrow finite narrowed, rfl⟩,
        fun infinite => Binary32.widen_of_infinite infinite narrowed,
        fun nan => Binary32.widen_of_nan nan narrowed⟩
  | double => rfl
  | fixedPoint =>
      simp only [write] at written
      split at written <;> cases written
      next word rounded =>
      have near := FixedPoint.isNearest_of_ofBinary64 rounded
      rw [norm_of_ofBinary64 rounded]
      exact ⟨word, near, rfl, FixedPoint.units_toBinary64 word near.holds⟩

theorem write_ofOctets (format : FloatFormat) (octets : Octets)
    (size : octets.length = format.width) :
    format.write (format.ofOctets octets) = .ok (Span.settle (.float format) octets) := by
  cases format with
  | single =>
      simp only [write, ofOctets, Binary32.narrow_widen, Span.settle, Span.quiet]
  | double =>
      have small : Octets.toNat octets < 2 ^ 64 := by simpa [size, width] using octets.toNat_lt
      change octets.length = 8 at size
      simp only [write, ofOctets, Span.settle, UInt64.toNat_ofNat', Nat.mod_eq_of_lt small]
      rw [← size, Octets.ofNat_toNat]
  | fixedPoint =>
      obtain ⟨word, holds, spelled, value⟩ := ofOctets_fixedPoint octets size
      rw [value, write_of_ofBinary64 (FixedPoint.ofBinary64_toBinary64 word holds), spelled]
      rfl

theorem norm_ofOctets (format : FloatFormat) (octets : Octets)
    (size : octets.length = format.width) :
    format.norm (format.ofOctets octets) = format.ofOctets octets := by
  cases format with
  | single => simp only [norm, ofOctets, Binary32.narrow_widen, Binary32.widen_quiet]
  | double => rfl
  | fixedPoint =>
      obtain ⟨word, holds, -, value⟩ := ofOctets_fixedPoint octets size
      rw [value, norm_of_ofBinary64 (FixedPoint.ofBinary64_toBinary64 word holds)]

end FloatFormat
end Dis

/-! Text of a fixed width. Zeros at its end are lost to the filling; everything else,
zeros in the middle too, is kept. -/

namespace Dis.Atom

def trimZeros (text : String) : String :=
  String.ofList (text.toList.rdropWhile (· = Char.ofNat 0))

theorem trimZeros_eq (text : String) :
    (∃ count, text.toList = (trimZeros text).toList ++ List.replicate count (Char.ofNat 0)) ∧
      ∀ front, (trimZeros text).toList ≠ front ++ [Char.ofNat 0] := by
  have split : text.toList.rdropWhile (· = Char.ofNat 0) ++
      text.toList.rtakeWhile (· = Char.ofNat 0) = text.toList := List.rdropWhile_append_rtakeWhile
  have zeros : ∀ c ∈ text.toList.rtakeWhile (· = Char.ofNat 0), c = Char.ofNat 0 := by
    intro c inside
    simpa using List.mem_rtakeWhile_imp inside
  rw [trimZeros, String.toList_ofList]
  refine ⟨⟨_, by rw [← List.eq_replicate_of_mem zeros, split]⟩, fun front ends => ?_⟩
  have last := List.rdropWhile_last_not (fun c => decide (c = Char.ofNat 0)) text.toList
    (by simp [ends])
  simp [ends] at last

def octetOf (c : Char) : UInt8 := UInt8.ofNat c.toNat

def charOf (octet : UInt8) : Char := Char.ofNat octet.toNat

theorem toNat_charOf (octet : UInt8) : (charOf octet).toNat = octet.toNat := by
  have small := octet.toNat_lt
  have valid : octet.toNat.isValidChar := Or.inl (by omega)
  rw [charOf, Char.ofNat, dif_pos valid]
  exact UInt32.toNat_ofNatLT ..

theorem octetOf_charOf (octet : UInt8) : octetOf (charOf octet) = octet := by
  rw [octetOf, toNat_charOf, UInt8.ofNat_toNat]

theorem charOf_octetOf (c : Char) (ascii : isAscii c) : charOf (octetOf c) = c := by
  have small : c.toNat < 128 := by simpa [isAscii] using ascii
  rw [charOf, octetOf, UInt8.toNat_ofNat', Nat.mod_eq_of_lt (by omega), Char.ofNat_toNat]

theorem isAscii_charOf (octet : UInt8) (ascii : octet < 128) : isAscii (charOf octet) := by
  have small : octet.toNat < 128 := UInt8.lt_iff_toNat_lt.mp ascii
  simpa [isAscii, toNat_charOf] using small

theorem octetOf_lt (c : Char) (ascii : isAscii c) : octetOf c < 128 := by
  have small : c.toNat < 128 := by simpa [isAscii] using ascii
  rw [UInt8.lt_iff_toNat_lt, octetOf, UInt8.toNat_ofNat', Nat.mod_eq_of_lt (by omega)]
  exact small

theorem octetOf_eq_zero (c : Char) (ascii : isAscii c) :
    octetOf c = 0 ↔ c = Char.ofNat 0 := by
  constructor
  · intro zero
    have back := charOf_octetOf c ascii
    rw [zero] at back
    exact back.symm
  · rintro rfl
    rfl

theorem dropZeros_append_zeros (octets : Octets) (count : Nat) :
    dropZeros (octets ++ Octets.zeros count) = dropZeros octets := by
  change (octets ++ Octets.zeros count).rdropWhile (· == 0) = octets.rdropWhile (· == 0)
  induction count with
  | zero => simp [Octets.zeros]
  | succ count ih =>
      rw [Octets.zeros, List.replicate_succ', ← List.append_assoc, List.rdropWhile_concat_pos]
      · exact ih
      · rfl

theorem dropZeros_map (chars : List Char) (ascii : chars.all isAscii) :
    dropZeros (chars.map octetOf) = (chars.rdropWhile (· = Char.ofNat 0)).map octetOf := by
  change (chars.map octetOf).rdropWhile (· == 0) = _
  induction chars using List.reverseRecOn with
  | nil => rfl
  | append_singleton front last ih =>
      simp only [List.all_append, List.all_cons, List.all_nil, Bool.and_true,
        Bool.and_eq_true] at ascii
      have zero := octetOf_eq_zero last ascii.2
      rw [List.map_append, List.map_singleton]
      by_cases ends : last = Char.ofNat 0
      · rw [List.rdropWhile_concat_pos _ _ _ (by simp [zero.mpr ends]),
          List.rdropWhile_concat_pos _ _ _ (by simp [ends]), ih ascii.1]
      · rw [List.rdropWhile_concat_neg _ _ _ (by simpa using fun h => ends (zero.mp h)),
          List.rdropWhile_concat_neg _ _ _ (by simpa using ends), List.map_append,
          List.map_singleton]

theorem writeText_eq_ok {width : Nat} {text : String} {octets : Octets} :
    writeText width text = .ok octets ↔
      text.toList.all isAscii ∧ text.toList.length ≤ width ∧
        octets = text.toList.map octetOf ++ Octets.zeros (width - text.toList.length) := by
  unfold writeText
  by_cases ascii : text.toList.all isAscii = true
  · by_cases long : width < text.toList.length
    · simp only [ascii, Bool.not_true, Bool.false_eq_true, if_false, if_pos long, reduceCtorEq,
        false_iff]
      rintro ⟨-, fits, -⟩
      omega
    · simp only [ascii, Bool.not_true, Bool.false_eq_true, if_false, if_neg long,
        Except.ok.injEq, true_and, Nat.le_of_not_lt long]
      exact eq_comm
  · simp [ascii]

theorem readText_eq_ok {width : Nat} {text : String} {input rest : Octets} :
    readText width input = .ok text rest ↔
      ∃ octets, input = octets ++ rest ∧ octets.length = width ∧
        (dropZeros octets).all (· < 128) ∧ text = String.ofList ((dropZeros octets).map charOf) := by
  simp only [readText, Reader.bind_eq_ok, Reader.take_eq_ok]
  constructor
  · rintro ⟨octets, middle, ⟨rfl, size⟩, later⟩
    split at later
    · next ascii =>
      obtain ⟨rfl, rfl⟩ := Reader.pure_eq_ok.mp later
      exact ⟨octets, rfl, size, ascii, rfl⟩
    · exact absurd later Reader.fail_ne_ok
  · rintro ⟨octets, rfl, size, ascii, rfl⟩
    refine ⟨octets, rest, ⟨rfl, size⟩, ?_⟩
    rw [if_pos ascii]
    rfl

theorem read_writeText {width : Nat} {text : String} {octets : Octets}
    (written : writeText width text = .ok octets) (more : Octets) :
    readText width (octets ++ more) = .ok (trimZeros text) more := by
  obtain ⟨ascii, fits, rfl⟩ := writeText_eq_ok.mp written
  have kept : ∀ c ∈ text.toList.rdropWhile (· = Char.ofNat 0), isAscii c := fun c member =>
    List.all_eq_true.mp ascii c ((List.rdropWhile_prefix _ _).subset member)
  refine readText_eq_ok.mpr ⟨_, rfl, by simp; omega, ?_, ?_⟩
  · rw [dropZeros_append_zeros, dropZeros_map _ ascii, List.all_eq_true]
    intro octet member
    obtain ⟨c, present, rfl⟩ := List.mem_map.mp member
    exact decide_eq_true (octetOf_lt c (kept c present))
  · rw [dropZeros_append_zeros, dropZeros_map _ ascii, List.map_map, trimZeros]
    have back := List.map_congr_left (g := id) fun c member => charOf_octetOf c (kept c member)
    rw [List.map_id] at back
    exact congrArg String.ofList back.symm

theorem length_dropZeros_le (octets : Octets) : (dropZeros octets).length ≤ octets.length :=
  (List.rdropWhile_prefix _ octets).length_le

theorem dropZeros_filled (octets : Octets) :
    dropZeros octets ++ Octets.zeros (octets.length - (dropZeros octets).length) = octets := by
  change octets.rdropWhile (· == 0) ++
    Octets.zeros (octets.length - (octets.rdropWhile (· == 0)).length) = octets
  induction octets using List.reverseRecOn with
  | nil => rfl
  | append_singleton front last ih =>
      by_cases zero : last = 0
      · have shorter := (List.rdropWhile_prefix (· == 0) front).length_le
        rw [List.rdropWhile_concat_pos _ _ _ (by simp [zero]), List.length_append,
          List.length_singleton, Nat.succ_sub shorter, Octets.zeros, List.replicate_succ',
          ← List.append_assoc]
        rw [Octets.zeros] at ih
        rw [ih, zero]
      · rw [List.rdropWhile_concat_neg _ _ _ (by simpa using zero), Nat.sub_self]
        simp [Octets.zeros]

theorem write_readText {width : Nat} {text : String} {input rest : Octets}
    (read : readText width input = .ok text rest) :
    ∃ octets, input = octets ++ rest ∧ octets.length = width ∧
      writeText width text = .ok octets ∧ trimZeros text = text := by
  obtain ⟨octets, rfl, size, ascii, rfl⟩ := readText_eq_ok.mp read
  have chars : ∀ octet ∈ dropZeros octets, isAscii (charOf octet) := fun octet member =>
    isAscii_charOf octet (of_decide_eq_true (List.all_eq_true.mp ascii octet member))
  have shorter := length_dropZeros_le octets
  have back : (dropZeros octets).map (octetOf ∘ charOf) = dropZeros octets :=
    (List.map_congr_left fun octet _ => octetOf_charOf octet).trans (List.map_id _)
  have written : writeText width (String.ofList ((dropZeros octets).map charOf)) = .ok octets := by
    refine writeText_eq_ok.mpr ⟨by simpa using chars, by simp; omega, ?_⟩
    rw [String.toList_ofList, List.map_map, back, List.length_map, ← size, dropZeros_filled]
  have again := read_writeText written rest
  rw [read] at again
  injection again with same
  exact ⟨octets, rfl, size, written, same.symm⟩

end Dis.Atom

/-! Members of fixed size. Writing and reading one are inverse up to `norm` one way and
up to `Span.settle` the other. -/

namespace Dis

namespace Atom

/-- The value that is read after a value was written. -/
def norm : (atom : Atom) → atom.Value → atom.Value
  | int .., n => n
  | bits _, n => n
  | enum e .., code => e.decode code.number
  | float format _, x => format.norm x
  | octets _, value => value
  | text _, value => trimZeros value

/-- What a value becomes on the wire and back. It is kept, but for a number outside the
catalogue, a fraction that is rounded, and zeros at the end of a text. -/
def Becomes : (atom : Atom) → (before after : atom.Value) → Prop
  | int .., before, after => after = before
  | bits _, before, after => after = before
  | enum e .., before, after => e.StandsFor (Code.number before) after
  | float format _, before, after => format.Becomes before after
  | octets _, before, after => after = before
  | text _, before, after =>
    (∃ count, before.toList = after.toList ++ List.replicate count (Char.ofNat 0)) ∧
      ∀ front, after.toList ≠ front ++ [Char.ofNat 0]

theorem becomes_norm {atom : Atom} {value : atom.Value} {octets : Octets}
    (written : atom.write value = ⟨octets, none⟩) : atom.Becomes value (atom.norm value) := by
  cases atom with
  | enum e format start => exact e.standsFor_decode (Code.number value)
  | float format start =>
      exact FloatFormat.becomes_norm (Written.ofExcept_eq_complete.mp written)
  | text width => exact trimZeros_eq value
  | _ => rfl

def span : Atom → Span
  | int format _ => .plain format.width
  | bits format => .plain format.width
  | enum e format _ => .code e format
  | float format _ => .float format
  | octets count => .plain count
  | text width => .plain width

def isSound : Atom → Bool
  | enum e format _ => decide (format.Holds e.fallback.2)
  | _ => true

variable {atom : Atom} {value : atom.Value} {input rest : Octets}

theorem number?_norm (atom : Atom) (value : atom.Value) :
    atom.number? (atom.norm value) = atom.number? value := by
  cases atom <;> rfl

theorem write_octets_eq_complete {count : Nat} {value octets : Octets} :
    (Atom.octets count).write value = ⟨octets, none⟩ ↔ value.length = count ∧ octets = value := by
  simp only [write]
  split
  · next size => simp [size, eq_comm]
  · next other => simp [other, Written.fail]

theorem length_of_write {octets : Octets} (written : atom.write value = ⟨octets, none⟩) :
    octets.length = atom.width ∧ atom.isPresent value := by
  cases atom with
  | int format start =>
      obtain ⟨-, rfl⟩ := IntFormat.write_eq_complete.mp written
      exact ⟨format.length_octets _, rfl⟩
  | bits format =>
      cases value with
      | none => exact absurd written Written.fail_ne_complete
      | some n =>
          obtain ⟨-, rfl⟩ := IntFormat.write_eq_complete.mp written
          exact ⟨format.length_octets _, rfl⟩
  | enum e format start =>
      obtain ⟨-, rfl⟩ := IntFormat.write_eq_complete.mp written
      exact ⟨format.length_octets _, rfl⟩
  | float format start =>
      exact ⟨FloatFormat.length_of_write (Written.ofExcept_eq_complete.mp written), rfl⟩
  | octets count =>
      obtain ⟨size, rfl⟩ := write_octets_eq_complete.mp written
      exact ⟨size, rfl⟩
  | text width =>
      obtain ⟨-, fits, rfl⟩ := writeText_eq_ok.mp (Written.ofExcept_eq_complete.mp written)
      refine ⟨?_, rfl⟩
      rw [List.length_append, List.length_map, Octets.length_zeros]
      exact Nat.add_sub_cancel' fits

theorem returns (atom : Atom) (value : atom.Value) :
    Returns atom.read (atom.write value) true (atom.norm value) := by
  cases atom with
  | int format start => exact format.returns value
  | bits format =>
      cases value with
      | none => exact fun octets written => absurd written Written.fail_ne_complete
      | some n =>
          have given := (format.returns n).map some
          rwa [bind_pure_comp] at given
  | enum e format start => exact (format.returns (Code.number value)).map e.decode
  | float format start =>
      intro octets written more _
      have complete := Written.ofExcept_eq_complete.mp written
      have size := FloatFormat.length_of_write complete
      refine Reader.bind_eq_ok.mpr ⟨octets, more, Reader.take_eq_ok.mpr ⟨rfl, size⟩, ?_⟩
      exact Reader.pure_eq_ok.mpr ⟨FloatFormat.ofOctets_of_write complete, rfl⟩
  | octets count =>
      intro octets written more _
      obtain ⟨size, rfl⟩ := write_octets_eq_complete.mp written
      exact Reader.take_eq_ok.mpr ⟨rfl, size⟩
  | text width =>
      intro octets written more _
      exact read_writeText (Written.ofExcept_eq_complete.mp written) more

theorem recovers (sound : atom.isSound) (read : atom.read input = .ok value rest) :
    ∃ octets, input = octets ++ rest ∧
      Recovers atom.read [atom.span] (atom.write value) true value octets := by
  cases atom with
  | int format start => exact IntFormat.recovers read
  | bits format =>
      obtain ⟨n, number, rfl⟩ := Reader.map_eq_ok.mp read
      obtain ⟨octets, split, recovers⟩ := IntFormat.recovers number
      have given := recovers.map some
      rw [bind_pure_comp] at given
      exact ⟨octets, split, given⟩
  | enum e format start =>
      obtain ⟨n, middle, number, final⟩ := Reader.bind_eq_ok.mp read
      obtain ⟨rfl, rfl⟩ := Reader.pure_eq_ok.mp final
      obtain ⟨octets, split, recovers⟩ := IntFormat.recovers_code (of_decide_eq_true sound) number
      exact ⟨octets, split, recovers.map e.decode⟩
  | float format start =>
      obtain ⟨octets, middle, taken, final⟩ := Reader.bind_eq_ok.mp read
      obtain ⟨rfl, size⟩ := Reader.take_eq_ok.mp taken
      obtain ⟨rfl, rfl⟩ := Reader.pure_eq_ok.mp final
      refine ⟨octets, rfl, .of_plain (fun _ => rfl) size ?_ fun more => ?_⟩
      · exact Written.ofExcept_eq_complete.mpr (format.write_ofOctets octets size)
      · exact Reader.bind_eq_ok.mpr ⟨octets, more, Reader.take_eq_ok.mpr ⟨rfl, size⟩, rfl⟩
  | octets count =>
      obtain ⟨rfl, size⟩ := Reader.take_eq_ok.mp read
      refine ⟨value, rfl, .of_plain (fun _ => rfl) size ?_ fun more => ?_⟩
      · exact write_octets_eq_complete.mpr ⟨size, rfl⟩
      · exact Reader.take_eq_ok.mpr ⟨rfl, size⟩
  | text width =>
      obtain ⟨octets, rfl, size, written, kept⟩ := write_readText read
      refine ⟨octets, rfl, .of_plain (fun _ => rfl) size ?_ fun more => ?_⟩
      · exact Written.ofExcept_eq_complete.mpr written
      · rw [← kept]
        exact read_writeText written more

theorem length_of_read (sound : atom.isSound) (read : atom.read input = .ok value rest) :
    ∃ octets, input = octets ++ rest ∧ octets.length = atom.width := by
  obtain ⟨octets, split, recovers⟩ := atom.recovers sound read
  refine ⟨octets, split, ?_⟩
  rw [recovers.size, Span.extent_cons, Span.extent_nil]
  cases atom <;> rfl

theorem norm_of_read (read : atom.read input = .ok value rest) : atom.norm value = value := by
  cases atom with
  | enum e format start =>
      obtain ⟨n, middle, -, final⟩ := Reader.bind_eq_ok.mp read
      obtain ⟨rfl, rfl⟩ := Reader.pure_eq_ok.mp final
      exact e.decode_number_decode n
  | float format start =>
      obtain ⟨octets, middle, taken, final⟩ := Reader.bind_eq_ok.mp read
      obtain ⟨rfl, rfl⟩ := Reader.pure_eq_ok.mp final
      exact format.norm_ofOctets octets (Reader.take_eq_ok.mp taken).2
  | text width =>
      obtain ⟨octets, -, -, -, kept⟩ := write_readText read
      exact kept
  | _ => rfl

def isUnsigned : Atom → Bool
  | int format _ => !format.isSigned
  | bits format => !format.isSigned
  | _ => false

theorem number?_of_read (unsigned : atom.isUnsigned) (read : atom.read input = .ok value rest) :
    ∃ n, atom.number? value = some n ∧ 0 ≤ n := by
  cases atom with
  | int format start =>
      obtain ⟨octets, rfl, size, rfl⟩ := IntFormat.read_eq_ok.mp read
      have holds := format.holds_ofOctets octets size
      exact ⟨_, rfl, format.nonneg_of_holds (by simpa [isUnsigned] using unsigned) _ holds⟩
  | bits format =>
      obtain ⟨n, number, rfl⟩ := Reader.map_eq_ok.mp read
      obtain ⟨octets, rfl, size, rfl⟩ := IntFormat.read_eq_ok.mp number
      have holds := format.holds_ofOctets octets size
      exact ⟨_, rfl, format.nonneg_of_holds (by simpa [isUnsigned] using unsigned) _ holds⟩
  | _ => exact absurd unsigned (by simp [isUnsigned])

end Atom

namespace BitFields

variable {width : Nat} {fields : List BitField}

theorem two_pow_le (fits : BitFields.width fields ≤ 8 * width) :
    2 ^ BitFields.width fields ≤ 256 ^ width := by
  have octets : 256 ^ width = 2 ^ (8 * width) := by rw [Nat.pow_mul]
  rw [octets]
  exact Nat.pow_le_pow_right (by decide) fits

theorem write_eq_complete {values : Value fields} {octets : Octets} :
    write width fields values = ⟨octets, none⟩ ↔
      ∃ word, pack fields values = .ok word ∧ octets = Octets.ofNat width word := by
  unfold write
  cases pack fields values with
  | ok word => simp [eq_comm]
  | error fault => simp

theorem returns (fits : BitFields.width fields ≤ 8 * width) (values : Value fields) :
    Returns (read width fields) (write width fields values) true (norm fields values) := by
  intro octets written more _
  obtain ⟨word, packed, rfl⟩ := write_eq_complete.mp written
  obtain ⟨small, unpacked⟩ := unpack_of_pack fields values word packed
  have spelled : Octets.toNat (Octets.ofNat width word) = word :=
    Octets.toNat_ofNat_of_lt _ _ (Nat.lt_of_lt_of_le small (two_pow_le fits))
  have values := unpacked 0
  rw [Nat.zero_mul, Nat.zero_add] at values
  refine Reader.bind_eq_ok.mpr
    ⟨_, more, Reader.take_eq_ok.mpr ⟨rfl, Octets.length_ofNat width word⟩, ?_⟩
  rw [spelled, values]
  rfl

theorem recovers {values : Value fields} {input rest : Octets}
    (fits : BitFields.width fields ≤ 8 * width) (sound : fields.all BitField.isSound)
    (read : BitFields.read width fields input = .ok values rest) :
    ∃ octets, input = octets ++ rest ∧
      Recovers (BitFields.read width fields) [.word width fields] (write width fields values) true
        values octets := by
  obtain ⟨octets, middle, taken, final⟩ := Reader.bind_eq_ok.mp read
  obtain ⟨rfl, size⟩ := Reader.take_eq_ok.mp taken
  obtain ⟨rfl, rfl⟩ := Reader.pure_eq_ok.mp final
  refine ⟨octets, rfl, size, ?_, fun other alike more _ => ?_⟩
  · rw [Span.mapAlong_singleton _ _ _ size]
    exact write_eq_complete.mpr ⟨_, pack_unpack fields sound _, rfl⟩
  · have size' := alike.size.trans size
    have same := alike.rest
    rw [Span.mapAlong_singleton _ _ _ size', Span.mapAlong_singleton _ _ _ size] at same
    have small (word : Nat) : blank fields word < 256 ^ width :=
      Nat.lt_of_lt_of_le (blank_lt fields word) (two_pow_le fits)
    have blanks := congrArg Octets.toNat same
    simp only [Span.blank, Octets.toNat_ofNat_of_lt _ _ (small _)] at blanks
    rw [← unpack_of_blank fields _ _ blanks]
    exact Reader.bind_eq_ok.mpr ⟨other, more, Reader.take_eq_ok.mpr ⟨rfl, size'⟩, rfl⟩

theorem norm_of_read {values : Value fields} {input rest : Octets}
    (read : BitFields.read width fields input = .ok values rest) : norm fields values = values := by
  obtain ⟨octets, middle, taken, final⟩ := Reader.bind_eq_ok.mp read
  obtain ⟨rfl, rfl⟩ := Reader.pure_eq_ok.mp final
  exact norm_unpack fields _

end BitFields
end Dis

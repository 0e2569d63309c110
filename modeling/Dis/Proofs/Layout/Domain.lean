import Dis.Proofs.Layout.Grammar
import Dis.Proofs.Numeric.Value

/-! The values that a layout has room for. They are told member by member and without
writing anything, and they are the ones that are written without a fault. -/

namespace Dis

theorem IntFormat.fault_write_eq_none {format : IntFormat} {n : Int} :
    (format.write n).fault = none ↔ format.Holds n := by
  unfold write
  split
  · next holds => simp [holds]
  · next outside => simp [outside, Written.fail]

namespace FloatFormat

/-- A single has no room for numbers that round to infinity, and eighths have room for
numbers only, as far as sixteen bits reach after rounding. -/
def Holds : FloatFormat → Binary64 → Prop
  | single, x => x.isFinite → BinaryFormat.double.units x.magnitude < Binary32.ceiling
  | double, _ => True
  | fixedPoint, x =>
    let word := roundHalfEvenInt (x.units * FixedPoint.scale) (2 ^ BinaryFormat.double.scale)
    x.isFinite ∧ FixedPoint.least ≤ word ∧ word ≤ FixedPoint.greatest

theorem write_isOk_iff {format : FloatFormat} {x : Binary64} :
    (∃ octets, format.write x = .ok octets) ↔ format.Holds x := by
  cases format with
  | single =>
      have past := @Binary32.narrow?_eq_none x
      simp only [write, Holds]
      cases narrowed : Binary32.narrow? x with
      | none =>
          obtain ⟨finite, above⟩ := past.mp narrowed
          simp [finite, above]
      | some word =>
          rw [narrowed] at past
          simpa using past
  | double => simp [write, Holds]
  | fixedPoint =>
      have rounds := @FixedPoint.ofBinary64_eq_ok x
      simp only [write, Holds]
      cases rounded : FixedPoint.ofBinary64 x with
      | ok word =>
          obtain ⟨finite, rfl, inside⟩ := rounds.mp rounded
          simp [finite, inside]
      | error refusal =>
          simp only [rounded, reduceCtorEq, false_iff] at rounds
          constructor
          · rintro ⟨octets, written⟩
            cases written
          · rintro ⟨finite, inside⟩
            exact absurd ⟨finite, rfl, inside⟩ rounds

end FloatFormat

namespace Atom

def Holds : (atom : Atom) → atom.Value → Prop
  | int format _, n => format.Holds n
  | bits format, (n : Option Int) => ∃ bits, n = some bits ∧ format.Holds bits
  | enum _ format _, code => format.Holds code.number
  | float format _, x => format.Holds x
  | octets count, (value : Octets) => value.length = count
  | text width, (value : String) =>
    (∀ c ∈ value.toList, c.toNat < 128) ∧ value.toList.length ≤ width

theorem fault_write_eq_none {atom : Atom} {value : atom.Value} :
    (atom.write value).fault = none ↔ atom.Holds value := by
  cases atom with
  | int format start => exact IntFormat.fault_write_eq_none
  | bits format =>
      cases value with
      | none => simp [write, Holds, Written.fail]
      | some n => simp [write, Holds, IntFormat.fault_write_eq_none]
  | enum e format start => exact IntFormat.fault_write_eq_none
  | float format start =>
      exact Written.fault_ofExcept_eq_none.trans FloatFormat.write_isOk_iff
  | octets count =>
      simp only [write, Holds]
      split <;> simp_all [Written.fail]
  | text width =>
      simp only [write, Holds, Written.fault_ofExcept_eq_none, writeText_eq_ok, exists_and_left,
        exists_eq, and_true, List.all_eq_true, isAscii, decide_eq_true_eq]

end Atom

namespace BitField

def Holds (field : BitField) (value : field.Value) : Prop :=
  0 ≤ field.number? value ∧ field.number? value < 2 ^ field.width

theorem bits_isOk_iff {field : BitField} {value : field.Value} :
    (∃ n, field.bits value = .ok n) ↔ field.Holds value := by
  simp only [bits, Holds]
  split
  · next holds => simp [holds]
  · next outside => simp [outside]

end BitField

namespace BitFields

def Holds : (fields : List BitField) → Value fields → Prop
  | [], _ => True
  | field :: rest, (value, values) => field.Holds value ∧ Holds rest values

theorem pack_isOk_iff {fields : List BitField} {values : Value fields} :
    (∃ word, pack fields values = .ok word) ↔ Holds fields values := by
  induction fields with
  | nil => simp [pack, Holds]
  | cons field rest ih =>
      obtain ⟨value, values⟩ := values
      rw [Holds, ← BitField.bits_isOk_iff, ← ih]
      constructor
      · rintro ⟨word, packed⟩
        obtain ⟨high, low, first, later, -⟩ := pack_cons_eq_ok.mp packed
        exact ⟨⟨high, first⟩, low, later⟩
      · rintro ⟨⟨high, first⟩, low, later⟩
        exact ⟨_, pack_cons_eq_ok.mpr ⟨high, low, first, later, rfl⟩⟩

theorem fault_write_eq_none {width : Nat} {fields : List BitField} {values : Value fields} :
    (write width fields values).fault = none ↔ Holds fields values := by
  rw [← pack_isOk_iff, write]
  cases pack fields values <;> simp

end BitFields

namespace Sized

/-- Of the extent that stands in front: octets are as many as it says, and a payload takes up
its last octet at least in part. An opaque record is not empty. -/
def Holds (extent : Int) : (sized : Sized) → sized.Value → Prop
  | numbers format, (ns : List Int) => ∀ n ∈ ns, format.Holds n
  | octets, (os : Octets) => os.length = extent
  | payload _, (os : Octets) => extent ≤ 8 * os.length ∧ 8 * (os.length : Int) < extent + 8
  | blob _, (value : Option Octets) => value ≠ some []

theorem length_eq_payloadOctets {bits : Int} {os : Octets} :
    (os.length : Int) = payloadOctets bits ↔
      bits ≤ 8 * os.length ∧ 8 * (os.length : Int) < bits + 8 := by
  rw [payloadOctets, Int.fdiv_eq_ediv_of_nonneg _ (by decide)]
  omega

theorem fault_write_eq_none {sized : Sized} {extent : Int} {value : sized.Value} :
    (sized.write extent value).fault = none ↔ sized.Holds extent value := by
  cases sized with
  | numbers format =>
      exact Written.fault_all_eq_none.trans
        (forall₂_congr fun _ _ => IntFormat.fault_write_eq_none)
  | octets =>
      simp only [write, Holds]
      split <;> simp_all [Written.fail]
  | payload boundary =>
      rw [Holds, ← length_eq_payloadOctets, write]
      split
      · next whole => simp [whole]
      · next other => simp [other, Written.fail]
  | blob kind =>
      obtain _ | (_ | ⟨octet, rest⟩) := value
      · simp [write, Holds, Written.empty]
      · simp [write, Holds, Written.fail]
      · simp [write, Holds]

end Sized

namespace Layout

/-- Has every member a value that there is room for? Counts and tags take what the members
behind them call for, and are held to their own room and limit. -/
def HoldsIn : (layout : Layout) → Scope → layout.Value → Prop
  | done, _, _ => True
  | tail _, _, _ => True
  | atom name a rest, scope, (x, v) => a.Holds x ∧ rest.HoldsIn (scope.bind name (a.number? x)) v
  | padding _ rest, scope, v => rest.HoldsIn scope v
  | word _ fields rest, scope, (x, v) => BitFields.Holds fields x ∧ rest.HoldsIn scope v
  | count name format limit rest, scope, v =>
    let n := rest.demand name v
    ((∀ bound ∈ limit, n ≤ bound.most) ∧ format.Holds n) ∧ rest.HoldsIn (scope.bind name (some n)) v
  | tag name _ format rest, scope, v =>
    let n := rest.demand name v
    format.Holds n ∧ rest.HoldsIn (scope.bind name (some n)) v
  | sized _ s extent rest, scope, (x, v) =>
    s.Holds (scope.product extent) x ∧ rest.HoldsIn scope v
  | record _ _ inner rest, scope, (x, v) => inner.HoldsIn [] x ∧ rest.HoldsIn scope v
  | records _ _ inner _ rest, scope, (xs, v) =>
    (∀ x ∈ xs, inner.HoldsIn [] x) ∧ rest.HoldsIn scope v
  | choice _ _ _ inner₀ _ inner₁ rest, scope, (x, v) =>
    (match x with
      | .inl x => inner₀.HoldsIn [] x
      | .inr x => inner₁.HoldsIn [] x) ∧ rest.HoldsIn scope v

def Holds (layout : Layout) (v : layout.Value) : Prop := layout.HoldsIn [] v

theorem fault_writeCount_eq_none {name : String} {format : IntFormat} {limit : Option Limit}
    {n : Nat} : (writeCount name format limit n).fault = none ↔
      (∀ bound ∈ limit, n ≤ bound.most) ∧ format.Holds n := by
  rw [← IntFormat.fault_write_eq_none, ← Written.exists_complete, ← Written.exists_complete]
  simp only [writeCount_eq_complete, exists_and_left]

theorem fault_writeIn_eq_none (layout : Layout) {scope : Scope} {v : layout.Value} :
    (layout.writeIn scope v).fault = none ↔ layout.HoldsIn scope v := by
  -- Over the members, for any scope: either side asks the same of the front and of what is left.
  induction layout generalizing scope with
  | done => exact iff_of_true rfl trivial
  | tail name => exact iff_of_true rfl trivial
  | atom name a rest ih =>
      simp only [writeIn, HoldsIn, Written.fault_append_eq_none, Written.fault_under_eq_none,
        Atom.fault_write_eq_none, ih]
  | padding count rest ih =>
      simp only [writeIn, HoldsIn, Written.fault_append_eq_none, true_and, ih]
  | word octets fields rest ih =>
      simp only [writeIn, HoldsIn, Written.fault_append_eq_none, BitFields.fault_write_eq_none, ih]
  | count name format limit rest ih =>
      simp only [writeIn, HoldsIn, Written.fault_append_eq_none, fault_writeCount_eq_none, ih]
  | tag name e format rest ih =>
      simp only [writeIn, HoldsIn, Written.fault_append_eq_none, Written.fault_under_eq_none,
        IntFormat.fault_write_eq_none, ih]
  | sized name s extent rest ih =>
      simp only [writeIn, HoldsIn, Written.fault_append_eq_none, Written.fault_under_eq_none,
        Sized.fault_write_eq_none, ih]
  | record name kind inner rest ih₀ ih =>
      simp only [writeIn, HoldsIn, Written.fault_append_eq_none, Written.fault_under_eq_none, ih₀, ih]
  | records name kind inner counter rest ih₀ ih =>
      obtain ⟨xs, v⟩ := v
      have each : (Written.all (inner.writeIn []) xs).fault = none ↔
          ∀ x ∈ xs, inner.HoldsIn [] x :=
        Written.fault_all_eq_none.trans (forall₂_congr fun _ _ => ih₀)
      rw [writeIn, HoldsIn, Written.fault_append_eq_none, Written.fault_under_eq_none, ih]
      exact and_congr_left' each
  | choice name teller kind₀ inner₀ kind₁ inner₁ rest ih₀ ih₁ ih =>
      obtain ⟨x, v⟩ := v
      cases x with
      | inl x =>
          simp only [writeIn, HoldsIn, Written.fault_append_eq_none, Written.fault_under_eq_none,
            ih₀, ih]
      | inr x =>
          simp only [writeIn, HoldsIn, Written.fault_append_eq_none, Written.fault_under_eq_none,
            ih₁, ih]

theorem exists_write_iff (layout : Layout) {v : layout.Value} :
    (∃ octets, layout.write v = ⟨octets, none⟩) ↔ layout.Holds v := by
  rw [Written.exists_complete, write, fault_writeIn_eq_none, Holds]

end Layout

/-! The room for a value can be asked for by evaluation. -/

instance (format : FloatFormat) (x : Binary64) : Decidable (format.Holds x) :=
  match format with
  | .single => inferInstanceAs (Decidable (x.isFinite → _ < _))
  | .double => inferInstanceAs (Decidable True)
  | .fixedPoint => inferInstanceAs (Decidable (_ ∧ _ ∧ _))

instance (atom : Atom) (value : atom.Value) : Decidable (atom.Holds value) :=
  match atom, value with
  | .int format _, n => inferInstanceAs (Decidable (format.Holds n))
  | .bits _, none => .isFalse nofun
  | .bits format, some n =>
    decidable_of_iff (format.Holds n) (by simp [Atom.Holds])
  | .enum _ format _, code => inferInstanceAs (Decidable (format.Holds code.number))
  | .float format _, x => inferInstanceAs (Decidable (format.Holds x))
  | .octets count, (value : Octets) => inferInstanceAs (Decidable (value.length = count))
  | .text width, (value : String) =>
    inferInstanceAs (Decidable ((∀ c ∈ value.toList, c.toNat < 128) ∧ value.toList.length ≤ width))

instance (field : BitField) (value : field.Value) : Decidable (field.Holds value) :=
  inferInstanceAs (Decidable (_ ∧ _))

instance decidableBitFieldsHolds :
    (fields : List BitField) → (values : BitFields.Value fields) →
      Decidable (BitFields.Holds fields values)
  | [], _ => .isTrue trivial
  | field :: rest, (value, values) =>
    have := decidableBitFieldsHolds rest values
    inferInstanceAs (Decidable (field.Holds value ∧ BitFields.Holds rest values))

instance (extent : Int) (sized : Sized) (value : sized.Value) :
    Decidable (sized.Holds extent value) :=
  match sized, value with
  | .numbers format, (ns : List Int) => inferInstanceAs (Decidable (∀ n ∈ ns, format.Holds n))
  | .octets, (os : Octets) => inferInstanceAs (Decidable ((os.length : Int) = extent))
  | .payload _, (os : Octets) => inferInstanceAs (Decidable (extent ≤ 8 * os.length ∧ _ < _))
  | .blob _, (value : Option Octets) => inferInstanceAs (Decidable (value ≠ some []))

instance decidableHoldsIn : (layout : Layout) → (scope : Scope) → (v : layout.Value) →
    Decidable (layout.HoldsIn scope v)
  | .done, _, _ => .isTrue trivial
  | .tail _, _, _ => .isTrue trivial
  | .atom name a rest, scope, (x, v) =>
    have := decidableHoldsIn rest (scope.bind name (a.number? x)) v
    inferInstanceAs (Decidable (a.Holds x ∧ rest.HoldsIn _ v))
  | .padding _ rest, scope, v => decidableHoldsIn rest scope v
  | .word _ fields rest, scope, (x, v) =>
    have := decidableHoldsIn rest scope v
    inferInstanceAs (Decidable (BitFields.Holds fields x ∧ rest.HoldsIn scope v))
  | .count name format limit rest, scope, v =>
    have := decidableHoldsIn rest (scope.bind name (some (rest.demand name v))) v
    inferInstanceAs (Decidable (((∀ bound ∈ limit, rest.demand name v ≤ bound.most) ∧
      format.Holds (rest.demand name v)) ∧ rest.HoldsIn _ v))
  | .tag name _ format rest, scope, v =>
    have := decidableHoldsIn rest (scope.bind name (some (rest.demand name v))) v
    inferInstanceAs (Decidable (format.Holds (rest.demand name v) ∧ rest.HoldsIn _ v))
  | .sized _ s extent rest, scope, (x, v) =>
    have := decidableHoldsIn rest scope v
    inferInstanceAs (Decidable (s.Holds (scope.product extent) x ∧ rest.HoldsIn scope v))
  | .record _ _ inner rest, scope, (x, v) =>
    have := decidableHoldsIn inner [] x
    have := decidableHoldsIn rest scope v
    inferInstanceAs (Decidable (inner.HoldsIn [] x ∧ rest.HoldsIn scope v))
  | .records _ _ inner _ rest, scope, (xs, v) =>
    have := decidableHoldsIn inner []
    have := decidableHoldsIn rest scope v
    inferInstanceAs (Decidable ((∀ x ∈ xs, inner.HoldsIn [] x) ∧ rest.HoldsIn scope v))
  | .choice _ _ _ inner₀ _ _ rest, scope, (.inl x, v) =>
    have := decidableHoldsIn inner₀ [] x
    have := decidableHoldsIn rest scope v
    inferInstanceAs (Decidable (inner₀.HoldsIn [] x ∧ rest.HoldsIn scope v))
  | .choice _ _ _ _ _ inner₁ rest, scope, (.inr x, v) =>
    have := decidableHoldsIn inner₁ [] x
    have := decidableHoldsIn rest scope v
    inferInstanceAs (Decidable (inner₁.HoldsIn [] x ∧ rest.HoldsIn scope v))

instance (layout : Layout) (v : layout.Value) : Decidable (layout.Holds v) :=
  decidableHoldsIn layout [] v

end Dis

import Dis.Proofs.Domain

/-! How a record is refused. What is written first decides: up to the first member that there
is no room for, only two are not refused as the others are. One is a fraction in eighths that is
no number or whose eightfold is out of range; the other is a number of too many digits, whose
refusal cannot be worded. -/

namespace Dis

namespace Error

theorem isEncodeError_iff {e : Error} :
    e.isEncodeError ↔
      e.isWorded ∧ (e.causeCategory = .encode ∨ e.causeCategory = .sizeExceeded) := by
  unfold isEncodeError category
  by_cases worded : e.isWorded
  · simp only [worded, if_true, true_and]
    cases e.causeCategory <;> simp
  · simp [worded]

theorem category_write {fault : WriteError} :
    (write fault).category = .encode ↔
      (∀ n ∈ fault.fault.numbers, Numeral.isShown n) ∧ writeCategory fault.fault = .encode := by
  rw [category_eq_iff (by decide : Category.encode ≠ .value), isWorded, List.all_eq_true]
  rfl

theorem isEncodeError_write_iff {fault : WriteError} :
    (write fault).isEncodeError ↔ (write fault).category = .encode := by
  have never : writeCategory fault.fault ≠ .sizeExceeded := by
    unfold writeCategory
    split <;> simp
  rw [isEncodeError_iff, category_eq_iff (by decide : Category.encode ≠ .value)]
  exact and_congr_right' (or_iff_left never)

theorem isEncodeError_write {fault : WriteError} :
    (write fault).isEncodeError ↔
      (∀ n ∈ fault.fault.numbers, Numeral.isShown n) ∧ writeCategory fault.fault = .encode :=
  isEncodeError_write_iff.trans category_write

end Error

namespace Written

variable {α : Type}

/-- Is every fault that of a value without a wire form? -/
def IsPlain (written : Written) : Prop :=
  ∀ fault, written.fault = some fault → (Error.write fault).isEncodeError

theorem isPlain_none (octets : Octets) : IsPlain ⟨octets, none⟩ := fun _ stops => nomatch stops

theorem isPlain_fail (fault : WriteFault) :
    (fail fault).IsPlain ↔
      (∀ n ∈ fault.numbers, Numeral.isShown n) ∧ Error.writeCategory fault = .encode := by
  simp [IsPlain, fail, Error.isEncodeError_write, Located.here]

theorem isPlain_of_wordy {fault : WriteFault} (wordy : fault.numbers = [])
    (cause : Error.writeCategory fault = .encode) : (fail fault).IsPlain := by
  rw [isPlain_fail, wordy]
  exact ⟨List.forall_mem_nil _, cause⟩

theorem isPlain_append_iff {first second : Written} :
    (first ++ second).IsPlain ↔ first.IsPlain ∧ (first.fault = none → second.IsPlain) := by
  simp only [IsPlain, fault_append]
  cases first.fault with
  | none => simp
  | some fault => simp

theorem isPlain_under_iff {name : String} {written : Written} :
    (written.under name).IsPlain ↔ written.IsPlain := by
  obtain ⟨octets, fault⟩ := written
  cases fault with
  | none => simp [IsPlain, under]
  | some fault => simp [IsPlain, under, Located.under, Error.isEncodeError_write]

/-- Is every one of the values plain up to the first one that there is no room for? -/
def PlainUntil (holds plain : α → Prop) : List α → Prop
  | [] => True
  | x :: rest => plain x ∧ (holds x → PlainUntil holds plain rest)

theorem isPlain_all_iff {write : α → Written} {holds plain : α → Prop} {xs : List α}
    (room : ∀ x, (write x).fault = none ↔ holds x) (each : ∀ x, (write x).IsPlain ↔ plain x) :
    (all write xs).IsPlain ↔ PlainUntil holds plain xs := by
  induction xs with
  | nil => exact iff_of_true (isPlain_none _) trivial
  | cons x rest ih =>
      rw [PlainUntil, ← each, ← room, ← ih]
      exact isPlain_append_iff

theorem plainUntil_of_forall {holds plain : α → Prop} {xs : List α}
    (each : ∀ x ∈ xs, plain x) : PlainUntil holds plain xs := by
  induction xs with
  | nil => trivial
  | cons x rest ih =>
      obtain ⟨first, later⟩ := List.forall_mem_cons.mp each
      exact ⟨first, fun _ => ih later⟩

end Written

theorem BitField.isEncodeError_of_bits {field : BitField} {value : field.Value} {fault : WriteError}
    (refused : field.bits value = .error fault) : (Error.write fault).isEncodeError := by
  simp only [bits] at refused
  split at refused
  · cases refused
  · cases field <;> cases refused <;> rfl

namespace BitFields

theorem isEncodeError_of_pack {fields : List BitField} {values : Value fields} {fault : WriteError}
    (refused : pack fields values = .error fault) : (Error.write fault).isEncodeError := by
  induction fields with
  | nil => cases refused
  | cons field rest ih =>
      obtain ⟨value, values⟩ := values
      rw [pack] at refused
      cases first : field.bits value with
      | error other =>
          rw [first] at refused
          cases refused
          exact BitField.isEncodeError_of_bits first
      | ok high =>
          rw [first] at refused
          cases later : pack rest values with
          | error other =>
              rw [later] at refused
              cases refused
              exact ih later
          | ok low =>
              rw [later] at refused
              cases refused

theorem isPlain_write (width : Nat) (fields : List BitField) (values : Value fields) :
    (write width fields values).IsPlain := by
  intro fault stops
  unfold write at stops
  cases packed : pack fields values with
  | ok word =>
      rw [packed] at stops
      cases stops
  | error other =>
      rw [packed] at stops
      cases stops
      exact isEncodeError_of_pack packed

end BitFields

namespace IntFormat

variable {format : IntFormat} {n : Int}

theorem isPlain_write_iff : (format.write n).IsPlain ↔ Numeral.isShown n := by
  by_cases holds : format.Holds n
  · rw [write, if_pos holds]
    exact iff_of_true (Written.isPlain_none _) (format.isShown_of_holds holds)
  · rw [write, if_neg holds, Written.isPlain_fail]
    simp [WriteFault.numbers, Error.writeCategory]

end IntFormat

namespace FloatFormat

/-- No fraction in eighths that is not a number, and none that counts as infinite. -/
def IsPlain : FloatFormat → Binary64 → Prop
  | fixedPoint, x => x.isNaN = false ∧ ¬ FixedPoint.Overflows x
  | _, _ => True

theorem isPlain_write_iff {format : FloatFormat} {x : Binary64} :
    (Written.ofExcept (format.write x)).IsPlain ↔ format.IsPlain x := by
  cases format with
  | single =>
      simp only [write, IsPlain, iff_true]
      cases Binary32.narrow? x with
      | some word => exact Written.isPlain_none _
      | none => exact Written.isPlain_of_wordy rfl rfl
  | double => exact iff_of_true (Written.isPlain_none _) trivial
  | fixedPoint =>
      have nan := @FixedPoint.ofBinary64_eq_nan x
      have infinite := @FixedPoint.ofBinary64_eq_infinite x
      simp only [write, IsPlain]
      cases rounded : FixedPoint.ofBinary64 x with
      | ok word =>
          rw [rounded] at nan infinite
          simp only [reduceCtorEq, false_iff, Bool.not_eq_true] at nan infinite
          exact iff_of_true (Written.isPlain_none _) ⟨nan, infinite⟩
      | error refusal =>
          rw [rounded] at nan infinite
          rw [Written.ofExcept]
          cases refusal with
          | nan => simp [nan.mp rfl, Written.isPlain_fail, Error.writeCategory]
          | infinite => simp [infinite.mp rfl, Written.isPlain_fail, Error.writeCategory]
          | outside =>
              simp only [Except.error.injEq, reduceCtorEq, false_iff, Bool.not_eq_true]
                at nan infinite
              exact iff_of_true (Written.isPlain_of_wordy rfl rfl) ⟨nan, infinite⟩

end FloatFormat

namespace Atom

/-- Can what is wrong with the value be told, if anything is? -/
def IsPlain : (atom : Atom) → atom.Value → Prop
  | int _ _, n => Numeral.isShown n
  | bits _, n => ∀ k ∈ (n : Option Int), Numeral.isShown k
  | enum _ _ _, code => Numeral.isShown code.number
  | float format _, x => format.IsPlain x
  | octets count, os => List.length os = count ∨ Numeral.isShown count
  | text _, _ => True

theorem isPlain_write_iff {atom : Atom} {value : atom.Value} :
    (atom.write value).IsPlain ↔ atom.IsPlain value := by
  cases atom with
  | int format start => exact IntFormat.isPlain_write_iff
  | bits format =>
      cases value with
      | none => exact iff_of_true (Written.isPlain_of_wordy rfl rfl) (by simp [IsPlain])
      | some n => simp [write, IsPlain, IntFormat.isPlain_write_iff]
  | enum e format start => exact IntFormat.isPlain_write_iff
  | float format start => exact FloatFormat.isPlain_write_iff
  | octets count =>
      by_cases same : List.length value = count
      · simp [write, IsPlain, same, Written.isPlain_none]
      · simp [write, IsPlain, same, Written.isPlain_fail, WriteFault.numbers, Error.writeCategory]
  | text width =>
      refine iff_of_true ?_ trivial
      rw [write, writeText]
      split
      · exact Written.isPlain_of_wordy rfl rfl
      · split
        · exact Written.isPlain_of_wordy rfl rfl
        · exact Written.isPlain_none _

def hasNoEighths : Atom → Bool
  | float .fixedPoint _ => false
  | _ => true

def IsShown : (atom : Atom) → atom.Value → Prop
  | int _ _, n => Numeral.isShown n
  | bits _, n => ∀ k ∈ (n : Option Int), Numeral.isShown k
  | enum _ _ _, code => Numeral.isShown code.number
  | octets count, _ => Numeral.isShown count
  | _, _ => True

theorem isPlain_of_isShown {atom : Atom} {value : atom.Value} (none : atom.hasNoEighths)
    (shown : atom.IsShown value) : atom.IsPlain value := by
  cases atom with
  | int format start => exact shown
  | bits format => exact shown
  | enum e format start => exact shown
  | float format start =>
      cases format with
      | fixedPoint => cases none
      | _ => trivial
  | octets count => exact Or.inr shown
  | text width => trivial

end Atom

namespace Sized

def IsPlain : (sized : Sized) → (extent : Int) → sized.Value → Prop
  | numbers format, _, ns => Written.PlainUntil format.Holds (fun n => Numeral.isShown n) ns
  | octets, extent, os => List.length os = extent ∨ Numeral.isShown extent
  | payload _, bits, os =>
    List.length os = payloadOctets bits ∨
      Numeral.isShown bits ∧ Numeral.isShown (payloadOctets bits)
  | blob _, _, _ => True

theorem isPlain_write_iff {sized : Sized} {extent : Int} {value : sized.Value} :
    (sized.write extent value).IsPlain ↔ sized.IsPlain extent value := by
  cases sized with
  | numbers format =>
      exact Written.isPlain_all_iff (fun _ => format.fault_write_eq_none)
        fun _ => IntFormat.isPlain_write_iff
  | octets =>
      by_cases same : (List.length value : Int) = extent
      · simp [write, IsPlain, same, Written.isPlain_none]
      · simp [write, IsPlain, same, Written.isPlain_fail, WriteFault.numbers, Error.writeCategory]
  | payload boundary =>
      by_cases same : (List.length value : Int) = payloadOctets extent
      · simp [write, IsPlain, same, Written.isPlain_none]
      · simp [write, IsPlain, same, Written.isPlain_fail, WriteFault.numbers, Error.writeCategory]
  | blob kind =>
      refine iff_of_true ?_ trivial
      obtain _ | (_ | ⟨octet, rest⟩) := value
      · exact Written.isPlain_none _
      · exact Written.isPlain_of_wordy rfl rfl
      · exact Written.isPlain_none _

def IsShown : (sized : Sized) → (extent : Int) → sized.Value → Prop
  | numbers _, _, ns => ∀ n ∈ (ns : List Int), Numeral.isShown n
  | octets, extent, _ => Numeral.isShown extent
  | payload _, bits, _ => Numeral.isShown bits ∧ Numeral.isShown (payloadOctets bits)
  | blob _, _, _ => True

theorem isPlain_of_isShown {sized : Sized} {extent : Int} {value : sized.Value}
    (shown : sized.IsShown extent value) : sized.IsPlain extent value := by
  cases sized with
  | numbers format => exact Written.plainUntil_of_forall shown
  | octets => exact Or.inr shown
  | payload boundary => exact Or.inr shown
  | blob kind => trivial

end Sized

namespace Layout

theorem isPlain_writeCount_iff {name : String} {format : IntFormat} {limit : Option Limit}
    {n : Nat} : (writeCount name format limit n).IsPlain ↔
      ((∀ bound ∈ limit, n ≤ bound.most) → Numeral.isShown n) := by
  cases limit with
  | none => simp [writeCount, Written.isPlain_under_iff, IntFormat.isPlain_write_iff]
  | some bound =>
      by_cases within : n ≤ bound.most
      · simp [writeCount, within, Written.isPlain_under_iff, IntFormat.isPlain_write_iff]
      · simp [writeCount, within, Written.isPlain_fail, WriteFault.numbers, Error.writeCategory]

/-- Are all members plain up to the first one that there is no room for? -/
def IsPlainIn : (layout : Layout) → Scope → layout.Value → Prop
  | done, _, _ => True
  | tail _, _, _ => True
  | atom name a rest, scope, (x, v) =>
    a.IsPlain x ∧ (a.Holds x → rest.IsPlainIn (scope.bind name (a.number? x)) v)
  | padding _ rest, scope, v => rest.IsPlainIn scope v
  | word _ fields rest, scope, (x, v) => BitFields.Holds fields x → rest.IsPlainIn scope v
  | count name format limit rest, scope, v =>
    let n := rest.demand name v
    ((∀ bound ∈ limit, n ≤ bound.most) → Numeral.isShown n) ∧
      ((∀ bound ∈ limit, n ≤ bound.most) ∧ format.Holds n →
        rest.IsPlainIn (scope.bind name (some n)) v)
  | tag name _ format rest, scope, v =>
    let n := rest.demand name v
    Numeral.isShown n ∧ (format.Holds n → rest.IsPlainIn (scope.bind name (some n)) v)
  | sized _ s extent rest, scope, (x, v) =>
    s.IsPlain (scope.product extent) x ∧
      (s.Holds (scope.product extent) x → rest.IsPlainIn scope v)
  | record _ _ inner rest, scope, (x, v) =>
    inner.IsPlainIn [] x ∧ (inner.HoldsIn [] x → rest.IsPlainIn scope v)
  | records _ _ inner _ rest, scope, (xs, v) =>
    Written.PlainUntil (inner.HoldsIn []) (inner.IsPlainIn []) xs ∧
      ((∀ x ∈ xs, inner.HoldsIn [] x) → rest.IsPlainIn scope v)
  | choice _ _ _ inner₀ _ _ rest, scope, (.inl x, v) =>
    inner₀.IsPlainIn [] x ∧ (inner₀.HoldsIn [] x → rest.IsPlainIn scope v)
  | choice _ _ _ _ _ inner₁ rest, scope, (.inr x, v) =>
    inner₁.IsPlainIn [] x ∧ (inner₁.HoldsIn [] x → rest.IsPlainIn scope v)

def IsPlain (layout : Layout) (v : layout.Value) : Prop := layout.IsPlainIn [] v

/-- The faults of a record are plain exactly if its members are, up to the first fault. -/
theorem isPlain_writeIn_iff (layout : Layout) {scope : Scope} {v : layout.Value} :
    (layout.writeIn scope v).IsPlain ↔ layout.IsPlainIn scope v := by
  -- Over the members, for any scope: what follows is written only if there is room for the front.
  induction layout generalizing scope with
  | done => exact iff_of_true (Written.isPlain_none _) trivial
  | tail name => exact iff_of_true (Written.isPlain_none _) trivial
  | atom name a rest ih =>
      simp only [writeIn, IsPlainIn, Written.isPlain_append_iff, Written.isPlain_under_iff,
        Written.fault_under_eq_none, Atom.isPlain_write_iff, Atom.fault_write_eq_none, ih]
  | padding count rest ih =>
      simp only [writeIn, IsPlainIn, Written.isPlain_append_iff, Written.isPlain_none, true_and,
        forall_const, ih]
  | word octets fields rest ih =>
      simp only [writeIn, IsPlainIn, Written.isPlain_append_iff, BitFields.isPlain_write,
        BitFields.fault_write_eq_none, true_and, ih]
  | count name format limit rest ih =>
      simp only [writeIn, IsPlainIn, Written.isPlain_append_iff, isPlain_writeCount_iff,
        fault_writeCount_eq_none, ih]
  | tag name e format rest ih =>
      simp only [writeIn, IsPlainIn, Written.isPlain_append_iff, Written.isPlain_under_iff,
        IntFormat.isPlain_write_iff, Written.fault_under_eq_none, IntFormat.fault_write_eq_none, ih]
  | sized name s extent rest ih =>
      simp only [writeIn, IsPlainIn, Written.isPlain_append_iff, Written.isPlain_under_iff,
        Sized.isPlain_write_iff, Written.fault_under_eq_none, Sized.fault_write_eq_none, ih]
  | record name kind inner rest ih₀ ih =>
      simp only [writeIn, IsPlainIn, Written.isPlain_append_iff, Written.isPlain_under_iff,
        Written.fault_under_eq_none, fault_writeIn_eq_none, ih₀, ih]
  | records name kind inner counter rest ih₀ ih =>
      obtain ⟨xs, v⟩ := v
      have room (x : inner.Value) : (inner.writeIn [] x).fault = none ↔ inner.HoldsIn [] x :=
        inner.fault_writeIn_eq_none
      have all := Written.fault_all_eq_none.trans (forall₂_congr fun x (_ : x ∈ xs) => room x)
      rw [writeIn, IsPlainIn, Written.isPlain_append_iff, Written.isPlain_under_iff,
        Written.fault_under_eq_none, ih]
      exact and_congr (Written.isPlain_all_iff room fun _ => ih₀) (imp_congr_left all)
  | choice name teller kind₀ inner₀ kind₁ inner₁ rest ih₀ ih₁ ih =>
      obtain ⟨x, v⟩ := v
      cases x with
      | inl x =>
          simp only [writeIn, IsPlainIn, Written.isPlain_append_iff, Written.isPlain_under_iff,
            Written.fault_under_eq_none, fault_writeIn_eq_none, ih₀, ih]
      | inr x =>
          simp only [writeIn, IsPlainIn, Written.isPlain_append_iff, Written.isPlain_under_iff,
            Written.fault_under_eq_none, fault_writeIn_eq_none, ih₁, ih]

def hasNoEighths : Layout → Bool
  | done => true
  | tail _ => true
  | atom _ a rest => a.hasNoEighths && rest.hasNoEighths
  | padding _ rest => rest.hasNoEighths
  | word _ _ rest => rest.hasNoEighths
  | count _ _ _ rest => rest.hasNoEighths
  | tag _ _ _ rest => rest.hasNoEighths
  | sized _ _ _ rest => rest.hasNoEighths
  | record _ _ inner rest => inner.hasNoEighths && rest.hasNoEighths
  | records _ _ inner _ rest => inner.hasNoEighths && rest.hasNoEighths
  | choice _ _ _ inner₀ _ inner₁ rest =>
    inner₀.hasNoEighths && inner₁.hasNoEighths && rest.hasNoEighths

/-- Have all numbers of a record few enough digits, those that it works out included? -/
def IsShownIn : (layout : Layout) → Scope → layout.Value → Prop
  | done, _, _ => True
  | tail _, _, _ => True
  | atom name a rest, scope, (x, v) =>
    a.IsShown x ∧ rest.IsShownIn (scope.bind name (a.number? x)) v
  | padding _ rest, scope, v => rest.IsShownIn scope v
  | word _ _ rest, scope, (_, v) => rest.IsShownIn scope v
  | count name _ _ rest, scope, v =>
    let n := rest.demand name v
    Numeral.isShown n ∧ rest.IsShownIn (scope.bind name (some n)) v
  | tag name _ _ rest, scope, v =>
    let n := rest.demand name v
    Numeral.isShown n ∧ rest.IsShownIn (scope.bind name (some n)) v
  | sized _ s extent rest, scope, (x, v) =>
    s.IsShown (scope.product extent) x ∧ rest.IsShownIn scope v
  | record _ _ inner rest, scope, (x, v) => inner.IsShownIn [] x ∧ rest.IsShownIn scope v
  | records _ _ inner _ rest, scope, (xs, v) =>
    (∀ x ∈ xs, inner.IsShownIn [] x) ∧ rest.IsShownIn scope v
  | choice _ _ _ inner₀ _ _ rest, scope, (.inl x, v) =>
    inner₀.IsShownIn [] x ∧ rest.IsShownIn scope v
  | choice _ _ _ _ _ inner₁ rest, scope, (.inr x, v) =>
    inner₁.IsShownIn [] x ∧ rest.IsShownIn scope v

def IsShown (layout : Layout) (v : layout.Value) : Prop := layout.IsShownIn [] v

theorem isPlainIn_of_isShown (layout : Layout) {scope : Scope} {v : layout.Value}
    (none : layout.hasNoEighths) (shown : layout.IsShownIn scope v) :
    layout.IsPlainIn scope v := by
  induction layout generalizing scope with
  | done => trivial
  | tail name => trivial
  | atom name a rest ih =>
      obtain ⟨first, later⟩ := Bool.and_eq_true_iff.mp none
      exact ⟨Atom.isPlain_of_isShown first shown.1, fun _ => ih later shown.2⟩
  | padding count rest ih => exact ih none shown
  | word octets fields rest ih => exact fun _ => ih none shown
  | count name format limit rest ih => exact ⟨fun _ => shown.1, fun _ => ih none shown.2⟩
  | tag name e format rest ih => exact ⟨shown.1, fun _ => ih none shown.2⟩
  | sized name s extent rest ih =>
      exact ⟨Sized.isPlain_of_isShown shown.1, fun _ => ih none shown.2⟩
  | record name kind inner rest ih₀ ih =>
      obtain ⟨inside, later⟩ := Bool.and_eq_true_iff.mp none
      exact ⟨ih₀ inside shown.1, fun _ => ih later shown.2⟩
  | records name kind inner counter rest ih₀ ih =>
      obtain ⟨inside, later⟩ := Bool.and_eq_true_iff.mp none
      have each : ∀ x ∈ v.1, inner.IsPlainIn [] x := fun x listed => ih₀ inside (shown.1 x listed)
      exact ⟨Written.plainUntil_of_forall each, fun _ => ih later shown.2⟩
  | choice name teller kind₀ inner₀ kind₁ inner₁ rest ih₀ ih₁ ih =>
      obtain ⟨inside, later⟩ := Bool.and_eq_true_iff.mp none
      obtain ⟨zero, one⟩ := Bool.and_eq_true_iff.mp inside
      obtain ⟨x, v⟩ := v
      cases x with
      | inl x => exact ⟨ih₀ zero shown.1, fun _ => ih later shown.2⟩
      | inr x => exact ⟨ih₁ one shown.1, fun _ => ih later shown.2⟩

end Layout

/-! Which errors an attempt to encode may end in. All are errors of encoding but for three kinds:
a fraction in eighths that is no number or counts as infinite, a number that has too many digits
for an error to show, and a PDU that lacks a number of bits, whose size cannot be summed up. -/

open IntFormat (u16)

theorem IntFormat.category_of_write {format : IntFormat} {n : Int} {fault : WriteError}
    (stops : (format.write n).fault = some fault) :
    ((Error.write fault).category = .encode ↔ Numeral.isShown n) ∧
      ((Error.write fault).category = .value ↔ ¬ Numeral.isShown n) := by
  unfold write at stops
  split at stops <;> cases stops
  unfold Error.category
  by_cases shown : Numeral.isShown n
  · simp [shown, Error.isWorded, Error.numbers, WriteFault.numbers, Located.here,
      Error.causeCategory, Error.writeCategory]
  · simp [shown, Error.isWorded, Error.numbers, WriteFault.numbers, Located.here]

theorem FloatFormat.category_of_fixedPoint {x : Binary64} {fault : WriteFault}
    (refused : fixedPoint.write x = .error fault) :
    (Error.writeCategory fault = .value ↔ x.isNaN) ∧
      (Error.writeCategory fault = .overflow ↔ FixedPoint.Overflows x) ∧
      (Error.writeCategory fault = .encode ↔ x.isNaN = false ∧ ¬ FixedPoint.Overflows x) := by
  rw [← FixedPoint.ofBinary64_eq_infinite, ← Bool.not_eq_true, ← FixedPoint.ofBinary64_eq_nan]
  simp only [write] at refused
  cases found : FixedPoint.ofBinary64 x with
  | ok word =>
      rw [found] at refused
      cases refused
  | error refusal =>
      rw [found] at refused
      cases refused
      cases refusal <;> simp [Error.writeCategory]

namespace RecordKind

theorem encode_eq_error {kind : RecordKind} {value : kind.Value} {e : Error} :
    kind.encode value = .error e ↔
      ∃ fault, (kind.layout.write value).fault = some fault ∧ e = .write fault := by
  simp only [← Written.complete_eq_error, encode]
  cases (kind.layout.write value).complete with
  | ok octets => simp [Except.mapError]
  | error fault => simp [Except.mapError, eq_comm]

theorem isEncodeError_iff {kind : RecordKind} {value : kind.Value} :
    (∀ e, kind.encode value = .error e → e.isEncodeError) ↔ kind.layout.IsPlain value := by
  rw [Layout.IsPlain, ← Layout.isPlain_writeIn_iff]
  constructor
  · intro each fault stops
    exact each _ (encode_eq_error.mpr ⟨fault, stops, rfl⟩)
  · intro plain e refused
    obtain ⟨fault, stops, rfl⟩ := encode_eq_error.mp refused
    exact plain fault stops

def withEighths : List RecordKind := [positionError, orientationError, relativeWorldCoordinates]

theorem hasNoEighths_of_mem :
    ∀ kind ∈ withHeaders, kind ∉ withEighths → kind.layout.hasNoEighths := by decide +kernel

end RecordKind

theorem PduKind.hasNoEighths_of_mem : ∀ kind ∈ catalog, kind.body.hasNoEighths := by decide +kernel

namespace Header

def IsPlain (header : Header) : Prop := header.shape.kind.layout.IsPlain header.value

def IsShown (header : Header) : Prop := header.shape.kind.layout.IsShown header.value

theorem isPlain_write_iff {header : Header} : header.write.IsPlain ↔ header.IsPlain :=
  Layout.isPlain_writeIn_iff _

theorem isPlain_of_isShown {header : Header} (shown : header.IsShown) : header.IsPlain := by
  refine Layout.isPlainIn_of_isShown _ ?_ shown
  cases header.shape <;> rfl

end Header

namespace Pdu

variable {pdu : Pdu} {limit : Int} {e : Error}

theorem byteLength_eq_error :
    pdu.byteLength = .error e ↔
      pdu.kind.sizeRule = none ∧ pdu.kind.body.isCounted pdu.body = false ∧ e = .bitsMissing := by
  rw [byteLength, bodyLength, PduKind.bodyLength]
  cases pdu.kind.sizeRule with
  | some rule => simp [Except.map]
  | none =>
      cases pdu.kind.body.isCounted pdu.body with
      | true => simp [Except.map]
      | false => simp [Except.map, eq_comm]

theorem octetsOfSize_isEncodeError_iff {size : Int} :
    (∀ e, (pdu.withLength size).octetsOfSize size = .error e → e.isEncodeError) ↔
      (pdu.withLength size).write.IsPlain := by
  unfold octetsOfSize
  cases attempt : (pdu.withLength size).write.complete with
  | error fault =>
      have stops := Written.complete_eq_error.mp attempt
      simp [Written.IsPlain, stops]
  | ok octets =>
      have written := Written.complete_eq_ok.mp attempt
      rw [written]
      refine iff_of_true (fun e refused => ?_) (Written.isPlain_none _)
      simp only at refused
      split at refused <;> cases refused
      -- A size that was written has at most five digits.
      obtain ⟨front, -, header, -⟩ := write_eq_complete.mp written
      have narrow : u16.Holds size := (Header.exists_write_iff.mp ⟨front, header⟩).2
      have worded : (Error.sizeMismatch pdu.kind.name size octets.length).isWorded := by
        simp [Error.isWorded, Error.numbers, u16.isShown_of_holds narrow]
      exact Error.isEncodeError_iff.mpr ⟨worded, Or.inl rfl⟩

theorem isPlain_write_withLength {size : Int} :
    (pdu.withLength size).write.IsPlain ↔ (pdu.withLength size).header.IsPlain ∧
      (pdu.header.Holds ∧ u16.Holds size → pdu.kind.body.IsPlain pdu.body) := by
  have room : (pdu.withLength size).header.write.fault = none ↔
      pdu.header.Holds ∧ u16.Holds size := by
    rw [← Written.exists_complete]
    exact Header.exists_write_iff
  rw [write, Written.isPlain_append_iff, room, Header.isPlain_write_iff, Layout.IsPlain,
    ← Layout.isPlain_writeIn_iff]
  exact Iff.rfl

theorem isCounted_of_byteLength {length : Int} (size : pdu.byteLength = .ok length)
    (members : pdu.kind.sizeRule = none) : pdu.kind.body.isCounted pdu.body := by
  refine Bool.of_not_eq_false fun uncounted => ?_
  rw [byteLength_eq_error.mpr ⟨members, uncounted, rfl⟩] at size
  cases size

/-- Can what stops an attempt under a limit be told as an error of encoding? There must be a
size, and above the limit a size and a limit that can be worded; else what is written decides. -/
def IsPlain (pdu : Pdu) (limit : Int) : Prop :=
  (pdu.kind.sizeRule = none → pdu.kind.body.isCounted pdu.body) ∧
    ∀ size, pdu.byteLength = .ok size →
      (limit < size → Numeral.isShown size ∧ Numeral.isShown limit) ∧
      (size ≤ limit → (pdu.withLength size).header.IsPlain ∧
        (pdu.header.Holds ∧ u16.Holds size → pdu.kind.body.IsPlain pdu.body))

theorem isEncodeError_sizeExceeded_iff {size : Int} :
    (Error.sizeExceeded size limit).isEncodeError ↔
      Numeral.isShown size ∧ Numeral.isShown limit := by
  simp [Error.isEncodeError_iff, Error.isWorded, Error.numbers, Error.causeCategory]

theorem isEncodeError_iff :
    (∀ e, (pdu.encode limit).value.outcome = .error e → e.isEncodeError) ↔ pdu.IsPlain limit := by
  rcases encode_cases pdu limit with
    ⟨e, missing, done⟩ | ⟨length, size, above, done⟩ | ⟨length, size, fits, done⟩
  · obtain ⟨members, uncounted, rfl⟩ := byteLength_eq_error.mp missing
    refine iff_of_false (fun each => ?_) fun plain => ?_
    · exact absurd (each .bitsMissing (by rw [done])) (by decide)
    · rw [plain.1 members] at uncounted
      cases uncounted
  · have counted := isCounted_of_byteLength size
    simp only [done, IsPlain, size, Except.ok.injEq, forall_eq', Except.error.injEq,
      isEncodeError_sizeExceeded_iff, above, forall_const, Int.not_le.mpr above, false_imp_iff,
      and_true]
    exact (and_iff_right counted).symm
  · have counted := isCounted_of_byteLength size
    simp only [done, IsPlain, size, Except.ok.injEq, forall_eq', fits, forall_const,
      Int.not_lt.mpr fits, false_imp_iff, true_and]
    rw [octetsOfSize_isEncodeError_iff, isPlain_write_withLength]
    exact (and_iff_right counted).symm

/-- Have all numbers that an attempt comes upon few enough digits? -/
def IsShown (pdu : Pdu) (limit : Int) : Prop :=
  Numeral.isShown limit ∧ pdu.kind.body.IsShown pdu.body ∧
    ∀ size, pdu.byteLength = .ok size →
      Numeral.isShown size ∧ (pdu.withLength size).header.IsShown

theorem isPlain_iff_of_isShown (members : pdu.kind.sizeRule = none)
    (none : pdu.kind.body.hasNoEighths) (shown : pdu.IsShown limit) :
    pdu.IsPlain limit ↔ pdu.kind.body.isCounted pdu.body := by
  obtain ⟨bound, body, sized⟩ := shown
  constructor
  · rintro ⟨counted, -⟩
    exact counted members
  · intro counted
    refine ⟨fun _ => counted, fun size found => ⟨fun _ => ⟨(sized size found).1, bound⟩, ?_⟩⟩
    intro _
    exact ⟨Header.isPlain_of_isShown (sized size found).2,
      fun _ => pdu.kind.body.isPlainIn_of_isShown none body⟩

theorem isEncodeError_iff_of_mem (listed : pdu.kind ∈ PduKind.catalog ∨ pdu.kind = .unknown)
    (shown : pdu.IsShown limit) :
    (∀ e, (pdu.encode limit).value.outcome = .error e → e.isEncodeError) ↔
      pdu.kind.body.isCounted pdu.body := by
  have plain : pdu.kind.sizeRule = none ∧ pdu.kind.body.hasNoEighths := by
    rcases listed with listed | unknown
    · exact ⟨PduKind.sizeRule_of_mem _ listed, PduKind.hasNoEighths_of_mem _ listed⟩
    · rw [unknown]
      exact ⟨rfl, rfl⟩
  exact isEncodeError_iff.trans (isPlain_iff_of_isShown plain.1 plain.2 shown)

end Pdu

/-- When an attempt to encode a record, or a PDU under a limit, ends in no error but one of
encoding. The fractions in eighths and the numbers of too many digits are all that there is to
it for a record, and only a few kinds have any of the former; of the other PDUs it is enough
that their numbers of bits are there. -/
theorem refusal_law (kind : RecordKind) (value : kind.Value) (pdu : Pdu) (limit : Int) :
    ((∀ e, kind.encode value = .error e → e.isEncodeError) ↔ kind.layout.IsPlain value) ∧
    ((∀ e, (pdu.encode limit).value.outcome = .error e → e.isEncodeError) ↔
      (pdu.kind.sizeRule = none → pdu.kind.body.isCounted pdu.body) ∧
        ∀ size, pdu.byteLength = .ok size →
          (limit < size → Numeral.isShown size ∧ Numeral.isShown limit) ∧
          (size ≤ limit → (pdu.withLength size).header.IsPlain ∧
            (pdu.header.Holds ∧ u16.Holds size → pdu.kind.body.IsPlain pdu.body))) ∧
    (kind ∈ RecordKind.withHeaders → kind ∉ RecordKind.withEighths → kind.layout.IsShown value →
      ∀ e, kind.encode value = .error e → e.isEncodeError) ∧
    (pdu.kind ∈ PduKind.catalog ∨ pdu.kind = .unknown → pdu.IsShown limit →
      ((∀ e, (pdu.encode limit).value.outcome = .error e → e.isEncodeError) ↔
        pdu.kind.body.isCounted pdu.body)) ∧
    (∀ horizontal vertical, RecordKind.positionError.layout.IsPlain (horizontal, vertical, ()) ↔
      (horizontal.isNaN = false ∧ ¬ FixedPoint.Overflows horizontal) ∧
        (FloatFormat.fixedPoint.Holds horizontal →
          vertical.isNaN = false ∧ ¬ FixedPoint.Overflows vertical)) ∧
    (∀ x fault, FloatFormat.fixedPoint.write x = .error fault →
      (Error.writeCategory fault = .value ↔ x.isNaN) ∧
      (Error.writeCategory fault = .overflow ↔ FixedPoint.Overflows x) ∧
      (Error.writeCategory fault = .encode ↔ x.isNaN = false ∧ ¬ FixedPoint.Overflows x)) ∧
    (∀ (format : IntFormat) n fault, (format.write n).fault = some fault →
      ((Error.write fault).category = .encode ↔ Numeral.isShown n) ∧
      ((Error.write fault).category = .value ↔ ¬ Numeral.isShown n)) := by
  refine ⟨RecordKind.isEncodeError_iff, Pdu.isEncodeError_iff, ?_, ?_, ?_, ?_, ?_⟩
  · intro listed other shown
    have none := RecordKind.hasNoEighths_of_mem kind listed other
    exact RecordKind.isEncodeError_iff.mpr (kind.layout.isPlainIn_of_isShown none shown)
  · intro listed shown
    exact Pdu.isEncodeError_iff_of_mem listed shown
  · intro horizontal vertical
    constructor
    · rintro ⟨first, later⟩
      exact ⟨first, fun room => (later room).1⟩
    · rintro ⟨first, later⟩
      exact ⟨first, fun room => ⟨later room, fun _ => trivial⟩⟩
  · intro x fault refused
    exact FloatFormat.category_of_fixedPoint refused
  · intro format n fault stops
    exact IntFormat.category_of_write stops

/-- An eighth past the last word, and a PDU of an exercise out of range. -/
theorem refusal_law_samples :
    (∀ e, RecordKind.positionError.encode (⟨0x40B0000000000000⟩, .zero, ()) = .error e →
      e.isEncodeError) ∧
    ∀ e, (Pdu.encode (.new .createEntity { Header.initial .standard with exerciseId := 300 }
      (EntityId.of 1 2 3, EntityId.of 4 5 6, (7 : Int), ())) maxPduSize).value.outcome = .error e →
      e.isEncodeError := by
  obtain ⟨record, pdu, -, -, error, -⟩ := refusal_law .positionError
    (⟨0x40B0000000000000⟩, .zero, ()) (.new .createEntity
      { Header.initial .standard with exerciseId := 300 }
      (EntityId.of 1 2 3, EntityId.of 4 5 6, (7 : Int), ())) maxPduSize
  constructor
  · exact record.mpr ((error _ _).mpr (by decide +kernel))
  · refine pdu.mpr ⟨fun _ => rfl, fun size found => ?_⟩
    cases found
    refine ⟨fun above => absurd above (by decide), fun _ => ⟨?_, fun room => ?_⟩⟩
    · apply Header.isPlain_write_iff.mp
      intro fault stops
      cases stops
      decide +kernel
    · exact absurd room.1 (by decide +kernel)

/-- A NaN and an infinity where eighths are asked for are refused, but not by errors of
encoding; nor is a number of more digits than are ever shown, or a signal whose number of bits
is missing. -/
theorem refused_otherwise :
    (∃ e, RecordKind.positionError.encode (.nan, .zero, ()) = .error e ∧ e.category = .value ∧
      e.isEncodeError = false ∧ e.message = "cannot convert float NaN to integer") ∧
    (∃ e, RecordKind.positionError.encode (.infinity false, .zero, ()) = .error e ∧
      e.category = .overflow ∧ e.isEncodeError = false ∧
      e.message = "cannot convert float infinity to integer") ∧
    (∃ e, RecordKind.entityId.encode (EntityId.of (10 ^ Numeral.mostDigits) 2 3) = .error e ∧
      e.category = .value ∧ e.isEncodeError = false ∧ e.message = Numeral.refusalText none) ∧
    ∃ e, (Pdu.encode (.new .signal (.initial .standard) (EntityId.of 1 2 3, (1 : Int), (0 : Int),
      (0 : Int), (0 : Int), none, (0 : Int), ([] : Octets), ())) maxPduSize).value.outcome =
        .error e ∧ e.category = .type ∧ e.isEncodeError = false := by
  refine ⟨⟨.write ⟨["horizontal"], .fixedPoint .nan .nan⟩, ?_⟩,
    ⟨.write ⟨["horizontal"], .fixedPoint .infinite (.infinity false)⟩, ?_⟩,
    ⟨.write ⟨["simulation_address", "site"], .number .u16 (10 ^ Numeral.mostDigits)⟩, ?_⟩,
    .bitsMissing, ?_⟩
  · decide +kernel
  · decide +kernel
  · decide +kernel
  · exact ⟨rfl, rfl, rfl⟩

end Dis

import Dis.Proofs.Layout.Domain
import Dis.Proofs.Length

/-! What can be encoded: a record that its layout has room for, and a PDU whose header and
body there is room for and whose size is within both the limit and sixteen bits. -/

namespace Dis

theorem IntFormat.holds_natCast {format : IntFormat} (unsigned : format.isSigned = false) (n : Nat) :
    format.Holds n ↔ n < 256 ^ format.width := by
  have positive := format.modulus_pos
  simp only [Holds, least, greatest, unsigned, Bool.false_eq_true, if_false, modulus] at *
  omega

namespace Sized

/-- A payload whose number of bits there is room for fills all its octets but a part of the
last one. -/
theorem holds_payload_iff {format : IntFormat} (unsigned : format.isSigned = false)
    {boundary : Nat} {bits : Option Int} {os : Octets} :
    ((Atom.bits format).Holds bits ∧ ∀ n ∈ bits, (payload boundary).Holds n os) ↔
      ∃ n : Nat, bits = some (n : Int) ∧ n < 256 ^ format.width ∧ os.length = (n + 7) / 8 := by
  constructor
  · rintro ⟨⟨n, rfl, room⟩, filled⟩
    obtain ⟨count, rfl⟩ := Int.eq_ofNat_of_zero_le (format.nonneg_of_holds unsigned n room)
    obtain ⟨above, below⟩ := filled _ rfl
    exact ⟨count, rfl, (format.holds_natCast unsigned count).mp room, by omega⟩
  · rintro ⟨count, rfl, room, filled⟩
    refine ⟨⟨count, rfl, (format.holds_natCast unsigned count).mpr room⟩, ?_⟩
    rintro n ⟨⟩
    constructor <;> omega

theorem holds_blob_iff {format : IntFormat} (unsigned : format.isSigned = false) {kind : String}
    {extent : Int} {value : Option Octets} :
    (format.Holds ((blob kind).extent value) ∧ (blob kind).Holds extent value) ↔
      ∀ os ∈ value, 0 < os.length ∧ os.length < 256 ^ format.width := by
  rw [format.holds_natCast unsigned]
  obtain _ | (_ | ⟨octet, rest⟩) := value
  · simp [Sized.extent, Holds]
  · simp [Holds]
  · simp [Sized.extent, Holds]

end Sized

namespace RecordKind

open IntFormat (u8 u16 u32)

theorem encode_isOk_iff {kind : RecordKind} {value : kind.Value} :
    (∃ data, kind.encode value = .ok data) ↔ kind.layout.Holds value := by
  rw [← Layout.exists_write_iff]
  exact exists_congr fun data => encode_eq_ok

theorem holds_entityMarking (set text) : entityMarking.layout.Holds (set, text, ()) ↔
    u8.Holds set.number ∧ (∀ c ∈ String.toList text, c.toNat < 128) ∧
      (String.toList text).length ≤ 11 := by
  simp only [entityMarking, Layout.Holds, Layout.HoldsIn, Atom.Holds, markingCharacters, and_true]

theorem holds_deadReckoning (algorithm parameters acceleration velocity) :
    deadReckoningParameters.layout.Holds (algorithm, parameters, acceleration, velocity, ()) ↔
      u8.Holds algorithm.number ∧ List.length parameters = 15 ∧
        linearAcceleration.layout.Holds acceleration ∧ angularVelocity.layout.Holds velocity := by
  simp only [deadReckoningParameters, Layout.Holds, Layout.HoldsIn, Atom.Holds, and_true]

theorem holds_variableDatum (id bits value) :
    variableDatumRecord.layout.Holds (id, bits, value, ()) ↔
      u32.Holds id ∧ ∃ n : Nat, bits = some (n : Int) ∧ n < 2 ^ 32 ∧
        List.length value = (n + 7) / 8 := by
  have counted := @Sized.holds_payload_iff u32 rfl datumBoundary bits value
  simp only [IntFormat.width, Nat.reducePow] at counted ⊢
  rw [← counted]
  constructor
  · rintro ⟨first, room, filled, -⟩
    refine ⟨first, room, fun n given => ?_⟩
    cases given
    rw [Scope.product_singleton] at filled
    exact filled
  · rintro ⟨first, ⟨n, rfl, room⟩, filled⟩
    refine ⟨first, ⟨n, rfl, room⟩, ?_, trivial⟩
    rw [Scope.product_singleton]
    exact filled n rfl

theorem holds_recordSet (id serial length count values) :
    recordSpecificationElement.layout.Holds (id, serial, length, count, values, ()) ↔
      u32.Holds id ∧ u32.Holds serial ∧ u16.Holds length ∧ u16.Holds count ∧
        (List.length values : Int) = length * count := by
  have extent : Scope.product [("record_count", count), ("record_length", length),
      ("record_set_serial_number", serial), ("record_id", id)] ["record_length", "record_count"] =
      length * count := by
    simp [Scope.product, Scope.get, List.lookup_cons]
  rw [← extent]
  constructor
  · rintro ⟨first, second, third, fourth, filled, -⟩
    exact ⟨first, second, third, fourth, filled⟩
  · rintro ⟨first, second, third, fourth, filled⟩
    exact ⟨first, second, third, fourth, filled, trivial⟩

theorem holds_standardVariable (type octets) :
    standardVariableRecord.layout.Holds (type, octets, ()) ↔
      u32.Holds type ∧ List.length octets < 2 ^ 16 := by
  have counted := u16.holds_natCast rfl (List.length octets)
  constructor
  · rintro ⟨first, ⟨-, room⟩, -, -⟩
    exact ⟨first, counted.mp room⟩
  · rintro ⟨first, room⟩
    refine ⟨first, ⟨nofun, counted.mpr room⟩, ?_, trivial⟩
    rw [Scope.product_singleton]
    rfl

end RecordKind

namespace PduKind

open RecordKind (entityId variableParameter standardVariableRecord)
open IntFormat (u8 u16 u32)

theorem holds_signal (id radio encoding tdl rate bits samples data) :
    signal.body.Holds (id, radio, encoding, tdl, rate, bits, samples, data, ()) ↔
      entityId.layout.Holds id ∧ u16.Holds radio ∧ u16.Holds encoding ∧ u16.Holds tdl ∧
        u32.Holds rate ∧ u16.Holds samples ∧
        ∃ n : Nat, bits = some (n : Int) ∧ n < 2 ^ 16 ∧ List.length data = (n + 7) / 8 := by
  have counted := @Sized.holds_payload_iff u16 rfl signalBoundary bits data
  simp only [IntFormat.width, Nat.reducePow] at counted ⊢
  rw [← counted]
  constructor
  · rintro ⟨first, second, third, fourth, fifth, room, sixth, filled, -⟩
    refine ⟨first, second, third, fourth, fifth, sixth, room, fun n given => ?_⟩
    cases given
    rw [Scope.product_singleton] at filled
    exact filled
  · rintro ⟨first, second, third, fourth, fifth, sixth, ⟨n, rfl, room⟩, filled⟩
    refine ⟨first, second, third, fourth, fifth, ⟨n, rfl, room⟩, sixth, ?_, trivial⟩
    rw [Scope.product_singleton]
    exact filled n rfl

theorem holds_parameterCount {n : Nat} :
    ((∀ bound ∈ some (⟨"variable_parameters", RecordKind.mostVariableParameters⟩ : Limit),
      n ≤ bound.most) ∧ u8.Holds n) ↔ n ≤ 64 := by
  rw [u8.holds_natCast rfl]
  simp [RecordKind.mostVariableParameters, IntFormat.width]
  omega

theorem holds_entityState (id force type alternative velocity location orientation appearance
    reckoning marking capabilities parameters) :
    entityState.body.Holds (id, force, type, alternative, velocity, location, orientation,
        appearance, reckoning, marking, capabilities, parameters, ()) ↔
      entityState.body.Holds (id, force, type, alternative, velocity, location, orientation,
        appearance, reckoning, marking, capabilities, [], ()) ∧
      List.length parameters ≤ 64 ∧ ∀ p ∈ parameters, variableParameter.layout.Holds p := by
  have counted := @holds_parameterCount (List.length parameters)
  have none := (@holds_parameterCount 0).mpr (by decide)
  constructor
  · rintro ⟨id, force, count, type, alternative, velocity, location, orientation, appearance,
      reckoning, marking, capabilities, each, -⟩
    exact ⟨⟨id, force, none, type, alternative, velocity, location, orientation, appearance,
      reckoning, marking, capabilities, nofun, trivial⟩, counted.mp count, each⟩
  · rintro ⟨⟨id, force, -, type, alternative, velocity, location, orientation, appearance,
      reckoning, marking, capabilities, -⟩, count, each⟩
    exact ⟨id, force, counted.mpr count, type, alternative, velocity, location, orientation,
      appearance, reckoning, marking, capabilities, each, trivial⟩

theorem holds_detonation (firing target exploding event velocity location descriptor offset result
    parameters) :
    detonation.body.Holds (firing, target, exploding, event, velocity, location, descriptor, offset,
        result, parameters, ()) ↔
      detonation.body.Holds (firing, target, exploding, event, velocity, location, descriptor,
        offset, result, [], ()) ∧
      List.length parameters ≤ 64 ∧ ∀ p ∈ parameters, variableParameter.layout.Holds p := by
  have counted := @holds_parameterCount (List.length parameters)
  have none := (@holds_parameterCount 0).mpr (by decide)
  constructor
  · rintro ⟨firing, target, exploding, event, velocity, location, descriptor, offset, result,
      count, each, -⟩
    exact ⟨⟨firing, target, exploding, event, velocity, location, descriptor, offset, result,
      none, nofun, trivial⟩, counted.mp count, each⟩
  · rintro ⟨⟨firing, target, exploding, event, velocity, location, descriptor, offset, result, -, -⟩,
      count, each⟩
    exact ⟨firing, target, exploding, event, velocity, location, descriptor, offset, result,
      counted.mpr count, each, trivial⟩

theorem holds_transmitter (id number type state source location relative pattern frequency bandwidth
    power modulation crypto key parameters antenna records) :
    transmitter.body.Holds (id, number, type, state, source, location, relative, pattern, frequency,
        bandwidth, power, modulation, crypto, key, parameters, antenna, records, ()) ↔
      transmitter.body.Holds (id, number, type, state, source, location, relative, pattern,
        frequency, bandwidth, power, modulation, crypto, key, none, none, [], ()) ∧
      (∀ os ∈ (parameters : Option Octets), 0 < os.length ∧ os.length < 2 ^ 8) ∧
      (∀ os ∈ (antenna : Option Octets), 0 < os.length ∧ os.length < 2 ^ 16) ∧
      List.length records < 2 ^ 16 ∧ ∀ r ∈ records, standardVariableRecord.layout.Holds r := by
  have narrow := @Sized.holds_blob_iff u8 rfl RecordKind.modulationParameters.name 0 parameters
  have wide := @Sized.holds_blob_iff u16 rfl RecordKind.antennaPattern.name 0 antenna
  have counted := u16.holds_natCast rfl (List.length records)
  have none : (∀ bound ∈ (none : Option Limit), 0 ≤ bound.most) ∧ u16.Holds 0 := ⟨nofun, by decide⟩
  simp only [IntFormat.width, Nat.reducePow] at narrow wide counted ⊢
  rw [← narrow, ← wide, ← counted]
  constructor
  · rintro ⟨id, number, type, state, source, ⟨-, count⟩, location, relative, pattern, ⟨-, wide⟩,
      frequency, bandwidth, power, modulation, crypto, key, ⟨-, narrow⟩, filled, drawn, each, -⟩
    exact ⟨⟨id, number, type, state, source, none, location, relative, pattern, none, frequency,
      bandwidth, power, modulation, crypto, key, ⟨nofun, by decide⟩, nofun, nofun, nofun, trivial⟩,
      ⟨narrow, filled⟩, ⟨wide, drawn⟩, count, each⟩
  · rintro ⟨⟨id, number, type, state, source, -, location, relative, pattern, -, frequency,
      bandwidth, power, modulation, crypto, key, -⟩, ⟨narrow, filled⟩, ⟨wide, drawn⟩, count, each⟩
    exact ⟨id, number, type, state, source, ⟨nofun, count⟩, location, relative, pattern,
      ⟨nofun, wide⟩, frequency, bandwidth, power, modulation, crypto, key, ⟨nofun, narrow⟩, filled,
      drawn, each, trivial⟩

end PduKind

namespace Header

open IntFormat (u8 u16 u32)

def Holds (header : Header) : Prop :=
  u8.Holds header.protocolVersion.number ∧ u8.Holds header.exerciseId ∧
    u8.Holds header.pduType.number ∧ u8.Holds header.protocolFamily.number ∧
    u32.Holds header.timestamp ∧
    match header.trailer with
    | .status status => BitFields.Holds FlagWord.pduStatus.fields status.1
    | .subprotocol subprotocol => u8.Holds subprotocol.number

instance (header : Header) : Decidable header.Holds :=
  match header with
  | ⟨_, _, _, _, _, _, .status status⟩ =>
    inferInstanceAs (Decidable (_ ∧ _ ∧ _ ∧ _ ∧ _ ∧
      BitFields.Holds FlagWord.pduStatus.fields status.1))
  | ⟨_, _, _, _, _, _, .subprotocol subprotocol⟩ =>
    inferInstanceAs (Decidable (_ ∧ _ ∧ _ ∧ _ ∧ _ ∧ u8.Holds subprotocol.number))

theorem layout_holds_iff {header : Header} :
    header.shape.kind.layout.Holds header.value ↔ header.Holds ∧ u16.Holds header.length := by
  obtain ⟨version, exercise, type, family, timestamp, length, trailer⟩ := header
  cases trailer with
  | status status =>
      constructor
      · rintro ⟨version, exercise, type, family, timestamp, length, ⟨status, -⟩, -⟩
        exact ⟨⟨version, exercise, type, family, timestamp, status⟩, length⟩
      · rintro ⟨⟨version, exercise, type, family, timestamp, status⟩, length⟩
        exact ⟨version, exercise, type, family, timestamp, length, ⟨status, trivial⟩, trivial⟩
  | subprotocol subprotocol =>
      constructor
      · rintro ⟨version, exercise, type, family, timestamp, length, subprotocol, -⟩
        exact ⟨⟨version, exercise, type, family, timestamp, subprotocol⟩, length⟩
      · rintro ⟨⟨version, exercise, type, family, timestamp, subprotocol⟩, length⟩
        exact ⟨version, exercise, type, family, timestamp, length, subprotocol, trivial⟩

theorem exists_write_iff {header : Header} :
    (∃ octets, header.write = ⟨octets, none⟩) ↔ header.Holds ∧ u16.Holds header.length :=
  (Layout.exists_write_iff _).trans layout_holds_iff

end Header

namespace Pdu

variable {pdu : Pdu} {limit : Int}

theorem exists_write_withLength {size : Nat} :
    (∃ data, (pdu.withLength size).write = ⟨data, none⟩) ↔
      pdu.header.Holds ∧ pdu.kind.body.Holds pdu.body ∧ size < 2 ^ 16 := by
  have sized := IntFormat.u16.holds_natCast rfl size
  simp only [IntFormat.width, Nat.reducePow] at sized ⊢
  rw [Written.exists_complete, write, Written.fault_append_eq_none, ← Written.exists_complete,
    ← Written.exists_complete, Header.exists_write_iff, Layout.exists_write_iff, ← sized,
    and_right_comm, and_assoc]
  exact Iff.rfl

/-- The length that a header shows before does not count: it is overwritten. -/
theorem encode_isOk_iff (members : pdu.kind.sizeRule = none) :
    (∃ data, (pdu.encode limit).value.outcome = .ok data) ↔
      pdu.header.Holds ∧ pdu.kind.body.Holds pdu.body ∧
        ∃ size : Nat, pdu.byteLength = .ok size ∧ size ≤ limit ∧ size < 2 ^ 16 := by
  constructor
  · rintro ⟨data, encoded⟩
    obtain ⟨size, fits, -, written⟩ := encode_eq_ok encoded
    obtain ⟨header, body, narrow⟩ := exists_write_withLength.mp ⟨data, written⟩
    exact ⟨header, body, data.length, size, fits, narrow⟩
  · rintro ⟨header, body, size, found, fits, narrow⟩
    obtain ⟨data, written⟩ := exists_write_withLength.mpr ⟨header, body, narrow⟩
    have same : (pdu.withLength size).byteLength = .ok data.length :=
      byteLength_of_write members written
    rw [byteLength_withLength (PduKind.ignoresLength_of_members members), found] at same
    injection same with whole
    refine ⟨data, ?_⟩
    rw [encode_of_fits found fits]
    exact octetsOfSize_eq_ok.mpr ⟨written, whole.symm⟩

end Pdu

open IntFormat (u8 u16 u32) in
open RecordKind (entityId variableParameter standardVariableRecord) in
/-- Encoding succeeds for what there is room for and for nothing else. The room is told member
by member, first for all records at once and then for those that ask for more than numbers in
range; of a PDU that sums up its members only the size is asked for besides. -/
theorem encoder_domain :
    (∀ (kind : RecordKind) (value : kind.Value),
      (∃ data, kind.encode value = .ok data) ↔ kind.layout.Holds value) ∧
    (∀ header : Header, (∃ data, header.encode = .ok data) ↔
      header.Holds ∧ u16.Holds header.length) ∧
    (∀ (pdu : Pdu) (limit : Int), pdu.kind.sizeRule = none →
      ((∃ data, (pdu.encode limit).value.outcome = .ok data) ↔
        pdu.header.Holds ∧ pdu.kind.body.Holds pdu.body ∧
          ∃ size : Nat, pdu.byteLength = .ok size ∧ size ≤ limit ∧ size < 2 ^ 16)) ∧
    (∀ x : Binary64, FloatFormat.single.Holds x ↔
      ¬ (x.isFinite ∧ BinaryFormat.single.nearest (BinaryFormat.double.units x.magnitude)
        (2 ^ BinaryFormat.double.scale) = BinaryFormat.single.infinity)) ∧
    (∀ x : Binary64, FloatFormat.fixedPoint.Holds x ↔
      x.isFinite ∧ -(2 ^ 16 + 1) * (2 ^ BinaryFormat.double.scale : Nat) ≤ 16 * x.units ∧
        16 * x.units < (2 ^ 16 - 1) * (2 ^ BinaryFormat.double.scale : Nat)) ∧
    (∀ set text, RecordKind.entityMarking.layout.Holds (set, text, ()) ↔
      u8.Holds set.number ∧ (∀ c ∈ String.toList text, c.toNat < 128) ∧
        (String.toList text).length ≤ 11) ∧
    (∀ algorithm parameters acceleration velocity,
      RecordKind.deadReckoningParameters.layout.Holds
          (algorithm, parameters, acceleration, velocity, ()) ↔
        u8.Holds algorithm.number ∧ List.length parameters = 15 ∧
          RecordKind.linearAcceleration.layout.Holds acceleration ∧
          RecordKind.angularVelocity.layout.Holds velocity) ∧
    (∀ id bits value, RecordKind.variableDatumRecord.layout.Holds (id, bits, value, ()) ↔
      u32.Holds id ∧ ∃ n : Nat, bits = some (n : Int) ∧ n < 2 ^ 32 ∧
        List.length value = (n + 7) / 8) ∧
    (∀ id radio encoding tdl rate bits samples data,
      PduKind.signal.body.Holds (id, radio, encoding, tdl, rate, bits, samples, data, ()) ↔
        entityId.layout.Holds id ∧ u16.Holds radio ∧ u16.Holds encoding ∧ u16.Holds tdl ∧
          u32.Holds rate ∧ u16.Holds samples ∧
          ∃ n : Nat, bits = some (n : Int) ∧ n < 2 ^ 16 ∧ List.length data = (n + 7) / 8) ∧
    (∀ id serial length count values,
      RecordKind.recordSpecificationElement.layout.Holds (id, serial, length, count, values, ()) ↔
        u32.Holds id ∧ u32.Holds serial ∧ u16.Holds length ∧ u16.Holds count ∧
          (List.length values : Int) = length * count) ∧
    (∀ type octets, standardVariableRecord.layout.Holds (type, octets, ()) ↔
      u32.Holds type ∧ List.length octets < 2 ^ 16) ∧
    (∀ id force type alternative velocity location orientation appearance reckoning marking
        capabilities parameters,
      PduKind.entityState.body.Holds (id, force, type, alternative, velocity, location, orientation,
          appearance, reckoning, marking, capabilities, parameters, ()) ↔
        PduKind.entityState.body.Holds (id, force, type, alternative, velocity, location,
          orientation, appearance, reckoning, marking, capabilities, [], ()) ∧
        List.length parameters ≤ 64 ∧ ∀ p ∈ parameters, variableParameter.layout.Holds p) ∧
    (∀ firing target exploding event velocity location descriptor offset result parameters,
      PduKind.detonation.body.Holds (firing, target, exploding, event, velocity, location,
          descriptor, offset, result, parameters, ()) ↔
        PduKind.detonation.body.Holds (firing, target, exploding, event, velocity, location,
          descriptor, offset, result, [], ()) ∧
        List.length parameters ≤ 64 ∧ ∀ p ∈ parameters, variableParameter.layout.Holds p) ∧
    (∀ id number type state source location relative pattern frequency bandwidth power modulation
        crypto key parameters antenna records,
      PduKind.transmitter.body.Holds (id, number, type, state, source, location, relative, pattern,
          frequency, bandwidth, power, modulation, crypto, key, parameters, antenna, records, ()) ↔
        PduKind.transmitter.body.Holds (id, number, type, state, source, location, relative, pattern,
          frequency, bandwidth, power, modulation, crypto, key, none, none, [], ()) ∧
        (∀ os ∈ (parameters : Option Octets), 0 < os.length ∧ os.length < 2 ^ 8) ∧
        (∀ os ∈ (antenna : Option Octets), 0 < os.length ∧ os.length < 2 ^ 16) ∧
        List.length records < 2 ^ 16 ∧ ∀ r ∈ records, standardVariableRecord.layout.Holds r) := by
  refine ⟨?_, ?_, ?_, ?_, ?_, RecordKind.holds_entityMarking, RecordKind.holds_deadReckoning,
    RecordKind.holds_variableDatum, PduKind.holds_signal, RecordKind.holds_recordSet,
    RecordKind.holds_standardVariable, PduKind.holds_entityState, PduKind.holds_detonation,
    PduKind.holds_transmitter⟩
  · intro kind value
    exact RecordKind.encode_isOk_iff
  · intro header
    exact RecordKind.encode_isOk_iff.trans Header.layout_holds_iff
  · intro pdu limit members
    exact Pdu.encode_isOk_iff members
  · intro x
    rw [Binary32.nearest_eq_infinity, FloatFormat.Holds]
    simp
  · intro x
    have inside := FixedPoint.roundHalfEvenInt_inside (x.units * FixedPoint.scale) _
      (Nat.two_pow_pos BinaryFormat.double.scale)
    have doubled : 2 * (x.units * FixedPoint.scale) = 16 * x.units := by
      simp only [FixedPoint.scale]
      omega
    rw [doubled] at inside
    exact and_congr_right' inside

/-- A marking of eleven characters and one of twelve, and a PDU that showed a wrong length
before, with its size for a limit and with one octet less. -/
theorem encoder_domain_samples :
    (∃ data, RecordKind.entityMarking.encode
      (Enumeration.entityMarkingCharacterSet.decode 1, "ELEVEN CHAR", ()) = .ok data) ∧
    (¬ ∃ data, RecordKind.entityMarking.encode
      (Enumeration.entityMarkingCharacterSet.decode 1, "TWELVE CHARS", ()) = .ok data) ∧
    (∃ data, (Pdu.encode ⟨.createEntity,
        { Header.initial .standard with length := 70000 },
        (EntityId.of 1 2 3, EntityId.of 4 5 6, (7 : Int), ())⟩ 28).value.outcome = .ok data) ∧
    ¬ ∃ data, (Pdu.encode ⟨.createEntity,
        { Header.initial .standard with length := 70000 },
        (EntityId.of 1 2 3, EntityId.of 4 5 6, (7 : Int), ())⟩ 27).value.outcome = .ok data := by
  obtain ⟨records, -, pdus, -, -, marking, -⟩ := encoder_domain
  refine ⟨?_, fun encoded => ?_, ?_, fun encoded => ?_⟩
  · exact (records _ _).mpr ((marking _ _).mpr ⟨by decide +kernel, by simp, by simp⟩)
  · have held := (marking _ _).mp ((records _ _).mp encoded)
    exact absurd held.2.2 (by simp)
  · exact (pdus _ 28 rfl).mpr ⟨by decide +kernel, by decide +kernel, 28, rfl, by decide, by decide⟩
  · obtain ⟨-, -, size, found, fits, -⟩ := (pdus _ 27 rfl).mp encoded
    cases found
    exact absurd fits (by decide)

end Dis

import Dis.Proofs.Acceptance
import Dis.Proofs.Layout.Arrangement
import Dis.Proofs.Length

/-! Where the variable parts of PDUs stand. Each is counted at a fixed place, and its elements
follow one another from a place that the parts in front of them settle, in what is encoded and
in what is decoded alike. -/

namespace Dis

theorem Frame.read_of_decode {registry : Registry} {allowUnknown : Bool} {data : Octets} {pdu : Pdu}
    (decoded : (decode registry allowUnknown data).value = .ok pdu) :
    pdu.kind.body.read (data.drop pduHeaderSize) = .ok pdu.body [] := by
  rw [decode_eq] at decoded
  split at decoded
  · cases decoded
  · next header found =>
    split at decoded
    · next kind owner =>
      obtain ⟨value, read, rfl⟩ := readBody_eq_ok.mp decoded
      exact read
    · split at decoded
      · cases decoded
        rfl
      · cases decoded

namespace Way

def Records (way : Way) (kind : RecordKind) (value : kind.Value) (octets : Octets) : Prop :=
  match way with
  | encoding => kind.encode value = .ok octets
  | decoding => kind.decode octets = .ok value

def Frames (way : Way) (kind : PduKind) (body : kind.body.Value) (data : Octets) : Prop :=
  match way with
  | encoding => ∃ header limit, (Pdu.encode ⟨kind, header, body⟩ limit).value.outcome = .ok data
  | decoding => ∃ registry allowUnknown header,
    (Frame.decode registry allowUnknown data).value = .ok ⟨kind, header, body⟩

variable {way : Way} {data : Octets}

theorem records_of_pairs {kind : RecordKind} (free : kind.lengthBound = false) {value : kind.Value}
    {octets : Octets} (paired : way.Pairs kind.layout value octets) :
    way.Records kind value octets := by
  cases way with
  | encoding => exact RecordKind.encode_eq_ok.mpr paired
  | decoding => exact RecordKind.decode_eq_ok.mpr ⟨free, paired⟩

theorem pairs_of_frames {kind : PduKind} {body : kind.body.Value}
    (framed : way.Frames kind body data) : way.Pairs kind.body body (data.drop pduHeaderSize) := by
  cases way with
  | encoding =>
      obtain ⟨header, limit, encoded⟩ := framed
      obtain ⟨front, back, head, written, rfl⟩ :=
        Pdu.write_eq_complete.mp (Pdu.encode_eq_ok encoded).2.2.2
      rwa [List.drop_left' (Header.places_write head).1.size]
  | decoding =>
      obtain ⟨registry, allowUnknown, header, decoded⟩ := framed
      exact Frame.read_of_decode decoded

theorem reached_of_frames {kind : PduKind} {body : kind.body.Value}
    (framed : way.Frames kind body data) : pduHeaderSize ≤ data.length := by
  cases way with
  | encoding =>
      obtain ⟨header, limit, encoded⟩ := framed
      obtain ⟨front, back, head, -, rfl⟩ :=
        Pdu.write_eq_complete.mp (Pdu.encode_eq_ok encoded).2.2.2
      rw [List.length_append, (Header.places_write head).1.size]
      exact Nat.le_add_right ..
  | decoding =>
      obtain ⟨registry, allowUnknown, header, decoded⟩ := framed
      obtain ⟨found, same⟩ := Frame.header_of_decode decoded
      exact (Header.spelled_of_peek (Frame.header_eq_ok.mp same).1).1

theorem stands_of_frames {kind : PduKind} (listed : kind ∈ PduKind.catalog)
    {body : kind.body.Value} (framed : way.Frames kind body data) :
    kind.body.StandsAt way body data pduHeaderSize where
  reached := reached_of_frames framed
  arranged :=
    kind.body.arranges_of_pairs (PduKind.isSound_of_mem kind listed) (pairs_of_frames framed)

end Way

/-- Variable parameters, counted in one octet, of 16 octets each. -/
structure Way.Parameters (way : Way) (count start : Nat)
    (parameters : List RecordKind.variableParameter.Value) (data : Octets) : Prop where
  counted : Octets.toNat ((data.drop count).take 1) = parameters.length
  parameter (i : Nat) (inside : i < parameters.length) :
    way.Records .variableParameter parameters[i] ((data.drop (start + 16 * i)).take 16)
  size : data.length = start + 16 * parameters.length

namespace DatumSpecification

variable (datums : RecordKind.datumSpecification.Value)

def fixedDatums : List RecordKind.fixedDatumRecord.Value :=
  RecordKind.datumSpecification.layout.member "fixed_datum_records" datums

def variableDatums : List RecordKind.variableDatumRecord.Value :=
  RecordKind.datumSpecification.layout.member "variable_datum_records" datums

end DatumSpecification

namespace DatumIdList

variable (ids : RecordKind.datumIdList.Value)

def fixedIds : List Int := RecordKind.datumIdList.layout.member "fixed_datum_ids" ids

def variableIds : List Int := RecordKind.datumIdList.layout.member "variable_datum_ids" ids

end DatumIdList

open DatumSpecification in
/-- Datums: both counts, then records of 8 octets each, then records of any size. -/
structure Way.Datums (way : Way) (start : Nat) (datums : RecordKind.datumSpecification.Value)
    (data : Octets) : Prop where
  fixedCount : Octets.toNat ((data.drop start).take 4) = (fixedDatums datums).length
  variableCount : Octets.toNat ((data.drop (start + 4)).take 4) = (variableDatums datums).length
  fixedRecord (i : Nat) (inside : i < (fixedDatums datums).length) :
    way.Records .fixedDatumRecord (fixedDatums datums)[i] ((data.drop (start + 8 + 8 * i)).take 8)
  variableRecords : Repeated (way.Records .variableDatumRecord) (variableDatums datums)
    (data.drop (start + 8 + 8 * (fixedDatums datums).length))

open DatumIdList in
/-- Numbers of datums: both counts, then four octets a number. -/
structure DatumIds (start : Nat) (ids : RecordKind.datumIdList.Value) (data : Octets) : Prop where
  fixedCount : Octets.toNat ((data.drop start).take 4) = (fixedIds ids).length
  variableCount : Octets.toNat ((data.drop (start + 4)).take 4) = (variableIds ids).length
  fixedId (i : Nat) (inside : i < (fixedIds ids).length) :
    (fixedIds ids)[i] = (Octets.toNat ((data.drop (start + 8 + 4 * i)).take 4) : Int)
  variableId (i : Nat) (inside : i < (variableIds ids).length) :
    (variableIds ids)[i] =
      (Octets.toNat ((data.drop (start + 8 + 4 * (fixedIds ids).length + 4 * i)).take 4) : Int)
  size : data.length = start + 8 + 4 * (fixedIds ids).length + 4 * (variableIds ids).length

theorem Way.parameters_of_stands {way : Way} {start : Nat} {data : Octets}
    {parameters : List RecordKind.variableParameter.Value}
    (stands : (PduKind.parameters .done).StandsAt way (parameters, ()) data start) {count : Nat}
    (counted : Octets.toNat ((data.drop count).take 1) = parameters.length) :
    way.Parameters count start parameters data := by
  have all := stands.records (show _ = some 16 from rfl)
  exact ⟨counted, fun i inside => Way.records_of_pairs rfl (all.1 i inside), all.2.nothing⟩

theorem Way.datums_of_stands {way : Way} {start : Nat} {data : Octets}
    {datums : RecordKind.datumSpecification.Value}
    (stands : (PduKind.datums .done).StandsAt way (datums, ()) data start) :
    way.Datums start datums data := by
  have inner := stands.inside (by decide +kernel)
  have counts := inner.member "number_of_variable_datum_records" (start + 4) rfl
  have fixed := (inner.member "fixed_datum_records" (start + 8) rfl).records
    (show _ = some 8 from rfl)
  exact ⟨inner.counted rfl, counts.counted rfl,
    fun i inside => Way.records_of_pairs rfl (fixed.1 i inside),
    fixed.2.last.imp fun _ _ => Way.records_of_pairs rfl⟩

theorem DatumIds.of_stands {way : Way} {start : Nat} {data : Octets}
    {ids : RecordKind.datumIdList.Value}
    (stands : (Layout.sub "datum_ids" .datumIdList .done).StandsAt way (ids, ()) data start) :
    DatumIds start ids data := by
  have inner := stands.inside (by decide +kernel)
  have counts := inner.member "number_of_variable_datum_ids" (start + 4) rfl
  have fixed := (inner.member "fixed_datum_ids" (start + 8) rfl).numbers rfl
  have others := fixed.2.numbers rfl
  exact ⟨inner.counted rfl, counts.counted rfl, fixed.1, others.1, others.2.nothing⟩

namespace EntityState

def parameters (body : PduKind.entityState.body.Value) :
    List RecordKind.variableParameter.Value :=
  PduKind.entityState.body.member "variable_parameters" body

end EntityState

namespace Detonation

def parameters (body : PduKind.detonation.body.Value) :
    List RecordKind.variableParameter.Value :=
  PduKind.detonation.body.member "variable_parameters" body

end Detonation

namespace Transmitter

variable (body : PduKind.transmitter.body.Value)

def modulation : Option Octets := PduKind.transmitter.body.member "modulation_parameters" body

def antenna : Option Octets := PduKind.transmitter.body.member "antenna_pattern" body

def records : List RecordKind.standardVariableRecord.Value :=
  PduKind.transmitter.body.member "variable_transmitter_parameters" body

end Transmitter

/-- A transmitter. Behind its members of fixed size there are two opaque records and then the
variable ones; all three are counted well before, the opaque ones in the other order. -/
structure Way.Transmitter (way : Way) (modulation antenna : Option Octets)
    (records : List RecordKind.standardVariableRecord.Value) (data : Octets) : Prop where
  recordCount : Octets.toNat ((data.drop 30).take 2) = records.length
  antennaSize : Octets.toNat ((data.drop 70).take 2) = (antenna.getD []).length
  modulationSize : Octets.toNat ((data.drop 100).take 1) = (modulation.getD []).length
  antennaAbsent : Octets.toNat ((data.drop 70).take 2) = 0 ↔ antenna = none
  modulationAbsent : Octets.toNat ((data.drop 100).take 1) = 0 ↔ modulation = none
  blank : way.Blank 3 ((data.drop 101).take 3)
  parts : ∃ rest, data.drop 104 = modulation.getD [] ++ (antenna.getD [] ++ rest) ∧
    Repeated (way.Records .standardVariableRecord) records rest

theorem Way.transmitter_of_stands {way : Way} {body : PduKind.transmitter.body.Value}
    {data : Octets} (stands : PduKind.transmitter.body.StandsAt way body data pduHeaderSize) :
    way.Transmitter (Transmitter.modulation body) (Transmitter.antenna body)
      (Transmitter.records body) data := by
  have recordCount := stands.member "number_of_variable_transmitter_parameters" 30 rfl
  have antennaLength := stands.member "antenna_pattern_length" 70 rfl
  have modulationLength := stands.member "modulation_parameters_length" 100 rfl
  have antennaSize := (antennaLength.counted rfl).trans
    (Sized.extent_blob RecordKind.antennaPattern.name (Transmitter.antenna body))
  have modulationSize := (modulationLength.counted rfl).trans
    (Sized.extent_blob RecordKind.modulationParameters.name (Transmitter.modulation body))
  have modulation := (stands.member "modulation_parameters" 104 rfl).blob
  have antenna := modulation.2.2.blob
  have records := antenna.2.2.last
  refine ⟨recordCount.counted rfl, antennaSize, modulationSize, ?_, ?_,
    (modulationLength.next rfl).blank, _, ?_, records.imp fun _ _ => Way.records_of_pairs rfl⟩
  · exact antennaSize ▸ antenna.2.1
  · exact modulationSize ▸ modulation.2.1
  · exact modulation.1.trans (congrArg _ antenna.1)

open PduKind in
/-- Where the variable parts of a PDU stand, both in what it is encoded to and in what it was
decoded from. Only while encoding are the octets between them known to be zeros. -/
theorem variable_parts (way : Way) (data : Octets) :
    (∀ body, way.Frames entityState body data →
      way.Parameters 19 144 (EntityState.parameters body) data) ∧
    (∀ body, way.Frames detonation body data → way.Blank 2 ((data.drop 102).take 2) ∧
      way.Parameters 101 104 (Detonation.parameters body) data) ∧
    (∀ body, way.Frames transmitter body data →
      way.Transmitter (Transmitter.modulation body) (Transmitter.antenna body)
        (Transmitter.records body) data) ∧
    (∀ body : actionRequest.body.Value, way.Frames actionRequest body data →
      way.Datums 32 (actionRequest.body.member "datum_specification" body) data) ∧
    (∀ body : actionResponse.body.Value, way.Frames actionResponse body data →
      way.Datums 32 (actionResponse.body.member "datum_specification" body) data) ∧
    (∀ body : setData.body.Value, way.Frames setData body data →
      way.Datums 32 (setData.body.member "datum_specification" body) data) ∧
    (∀ body : PduKind.data.body.Value, way.Frames PduKind.data body data →
      way.Datums 32 (PduKind.data.body.member "datum_specification" body) data) ∧
    (∀ body : eventReport.body.Value, way.Frames eventReport body data →
      way.Datums 32 (eventReport.body.member "datum_specification" body) data) ∧
    (∀ body : comment.body.Value, way.Frames comment body data →
      way.Datums 24 (comment.body.member "datum_specification" body) data) ∧
    (∀ body : dataQuery.body.Value, way.Frames dataQuery body data →
      DatumIds 32 (dataQuery.body.member "datum_ids" body) data) := by
  refine ⟨?_, ?_, ?_, ?_, ?_, ?_, ?_, ?_, ?_, ?_⟩
  · intro body framed
    have stands := Way.stands_of_frames (by simp [catalog]) framed
    have count := stands.member "number_of_variable_parameters" 19 rfl
    exact Way.parameters_of_stands (stands.member "variable_parameters" 144 rfl) (count.counted rfl)
  · intro body framed
    have stands := Way.stands_of_frames (by simp [catalog]) framed
    have count := stands.member "number_of_variable_parameters" 101 rfl
    exact ⟨(count.next rfl).blank, Way.parameters_of_stands
      (stands.member "variable_parameters" 104 rfl) (count.counted rfl)⟩
  · intro body framed
    exact Way.transmitter_of_stands (Way.stands_of_frames (by simp [catalog]) framed)
  · intro body framed
    have stands := Way.stands_of_frames (by simp [catalog]) framed
    exact Way.datums_of_stands (stands.member "datum_specification" 32 rfl)
  · intro body framed
    have stands := Way.stands_of_frames (by simp [catalog]) framed
    exact Way.datums_of_stands (stands.member "datum_specification" 32 rfl)
  · intro body framed
    have stands := Way.stands_of_frames (by simp [catalog]) framed
    exact Way.datums_of_stands (stands.member "datum_specification" 32 rfl)
  · intro body framed
    have stands := Way.stands_of_frames (by simp [catalog]) framed
    exact Way.datums_of_stands (stands.member "datum_specification" 32 rfl)
  · intro body framed
    have stands := Way.stands_of_frames (by simp [catalog]) framed
    exact Way.datums_of_stands (stands.member "datum_specification" 32 rfl)
  · intro body framed
    have stands := Way.stands_of_frames (by simp [catalog]) framed
    exact Way.datums_of_stands (stands.member "datum_specification" 24 rfl)
  · intro body framed
    have stands := Way.stands_of_frames (by simp [catalog]) framed
    exact DatumIds.of_stands (stands.member "datum_ids" 32 rfl)

/-- A comment that is encoded with a datum of each sort, and a query for three that is decoded. -/
theorem variable_parts_samples :
    Way.encoding.Datums 24
      ([((1 : Int), (2 : Int), ())], [((3 : Int), some (8 : Int), ([9] : Octets), ())], ())
      [7, 1, 22, 5, 0, 0, 0, 0, 0, 56, 0, 0, 0, 1, 0, 2, 0, 3, 0, 4, 0, 5, 0, 6,
        0, 0, 0, 1, 0, 0, 0, 1, 0, 0, 0, 1, 0, 0, 0, 2,
        0, 0, 0, 3, 0, 0, 0, 8, 9, 0, 0, 0, 0, 0, 0, 0] ∧
    DatumIds 32 (([7] : List Int), ([8, 9] : List Int), ())
      [7, 1, 18, 5, 0, 0, 0, 0, 0, 52, 0, 0, 0, 1, 0, 2, 0, 3, 0, 4, 0, 5, 0, 6,
        0, 0, 0, 1, 0, 0, 0, 0, 0, 0, 0, 1, 0, 0, 0, 2, 0, 0, 0, 7, 0, 0, 0, 8, 0, 0, 0, 9] := by
  obtain ⟨-, -, -, -, -, -, -, -, comment, -⟩ := variable_parts .encoding
    [7, 1, 22, 5, 0, 0, 0, 0, 0, 56, 0, 0, 0, 1, 0, 2, 0, 3, 0, 4, 0, 5, 0, 6,
      0, 0, 0, 1, 0, 0, 0, 1, 0, 0, 0, 1, 0, 0, 0, 2,
      0, 0, 0, 3, 0, 0, 0, 8, 9, 0, 0, 0, 0, 0, 0, 0]
  obtain ⟨-, -, -, -, -, -, -, -, -, dataQuery⟩ := variable_parts .decoding
    [7, 1, 18, 5, 0, 0, 0, 0, 0, 52, 0, 0, 0, 1, 0, 2, 0, 3, 0, 4, 0, 5, 0, 6,
      0, 0, 0, 1, 0, 0, 0, 0, 0, 0, 0, 1, 0, 0, 0, 2, 0, 0, 0, 7, 0, 0, 0, 8, 0, 0, 0, 9]
  constructor
  · refine comment (EntityId.of 1 2 3, EntityId.of 4 5 6, _, ())
      ⟨PduKind.comment.stamp (.initial .standard), maxPduSize, ?_⟩
    decide +kernel
  · refine dataQuery (EntityId.of 1 2 3, EntityId.of 4 5 6, (1 : Int), (0 : Int), _, ())
      ⟨.standard, false, Header.spelled [7, 1, 18, 5, 0, 0, 0, 0, 0, 52, 0, 0], ?_⟩
    set_option maxRecDepth 8192 in
    rfl

end Dis

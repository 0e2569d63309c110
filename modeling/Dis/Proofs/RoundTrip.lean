import Dis.Proofs.Domain
import Dis.Proofs.Frame

/-! Decoding what was encoded. Whatever a value holds, it comes back, but for what the
wire has no room for: numbers outside a catalogue, digits past a single or an eighth,
zeros at the end of a marking, and the length that a header held before. -/

namespace Dis

theorem RecordKind.decode_of_encode {kind : RecordKind} (sound : kind.layout.isSound)
    (free : kind.lengthBound = false) {value : kind.Value} {data : Octets}
    (encoded : kind.encode value = .ok data) : kind.decode data = .ok (kind.layout.norm value) :=
  decode_eq_ok.mpr ⟨free, kind.layout.read_of_write sound (encode_eq_ok.mp encoded)⟩

def Header.Becomes (before after : Header) : Prop :=
  ∃ value, before.shape.kind.layout.Becomes before.value value ∧
    after = .ofValue before.shape value

namespace Pdu

def norm (pdu : Pdu) : Pdu := ⟨pdu.kind, pdu.header.norm, pdu.kind.body.norm pdu.body⟩

def Becomes (before after : Pdu) : Prop :=
  ∃ header body, before.header.Becomes header ∧ before.kind.body.Becomes before.body body ∧
    after = ⟨before.kind, header, body⟩

theorem becomes_of_encode {pdu : Pdu} {limit : Int} {data : Octets}
    (encoded : (pdu.encode limit).value.outcome = .ok data) :
    (pdu.withLength data.length).Becomes (pdu.norm.withLength data.length) := by
  obtain ⟨-, -, -, written⟩ := encode_eq_ok encoded
  obtain ⟨front, back, header, body, -⟩ := write_eq_complete.mp written
  refine ⟨_, _, ⟨_, Layout.becomes_norm _ header, rfl⟩, Layout.becomes_norm _ body, ?_⟩
  change _ = Pdu.mk pdu.kind (Header.norm { pdu.header with length := data.length }) _
  rw [Header.norm_withLength]
  rfl

end Pdu

namespace Frame

variable {front back : Octets}

theorem header_of_write {header : Header} (written : header.write = ⟨front, none⟩)
    (regular : header.shape = .ofFamily header.protocolFamily.number)
    (whole : header.length = (front ++ back).length) :
    Frame.header (front ++ back) = .ok header.norm := by
  refine header_eq_ok.mpr ⟨Header.peek_eq_ok.mpr ⟨front, back, rfl, ?_, ?_⟩, ?_⟩
  · rw [header.shape_norm]
    exact Header.read_of_write written
  · rw [header.shape_norm, header.protocolFamily_norm, HeaderShape.ofFamily_decode, regular]
  · rw [header.length_norm, whole]

theorem parts_of_encode {pdu : Pdu} {limit : Int} {data : Octets} (sound : pdu.kind.body.isSound)
    (regular : pdu.header.shape = .ofFamily pdu.header.protocolFamily.number)
    (encoded : (pdu.encode limit).value.outcome = .ok data) :
    Frame.header data = .ok { pdu.header.norm with length := data.length } ∧
      ∀ header, readBody pdu.kind header (data.drop pduHeaderSize) =
        .ok (.new pdu.kind header (pdu.kind.body.norm pdu.body)) := by
  obtain ⟨-, -, -, written⟩ := Pdu.encode_eq_ok encoded
  obtain ⟨front, back, header, body, whole⟩ := Pdu.write_eq_complete.mp written
  have twelve := (Header.places_write header).1.size
  constructor
  · have total : (pdu.withLength data.length).header.length = (front ++ back).length := by
      rw [← whole]
      rfl
    have found := header_of_write header regular total
    rw [← whole, Pdu.withLength, Header.norm_withLength] at found
    exact found
  · intro header
    rw [whole, ← twelve, List.drop_left]
    exact readBody_eq_ok.mpr ⟨_, pdu.kind.body.read_of_write sound body, rfl⟩

theorem decode_of_encode {pdu : Pdu} {limit : Int} {data : Octets} {registry : Registry}
    (sound : pdu.kind.body.isSound)
    (regular : pdu.header.shape = .ofFamily pdu.header.protocolFamily.number)
    (owner : registry.lookup
      ⟨pdu.header.norm.pduType.number, pdu.header.norm.protocolFamily.number⟩ = some pdu.kind)
    (stamped : ∀ length : Int, pdu.kind.stamp { pdu.header.norm with length } =
      { pdu.header.norm with length })
    (encoded : (pdu.encode limit).value.outcome = .ok data) (allowUnknown : Bool) :
    (decode registry allowUnknown data).value = .ok (pdu.norm.withLength data.length) := by
  obtain ⟨header, body⟩ := parts_of_encode sound regular encoded
  rw [decode_of_lookup header owner, body, Pdu.new, stamped]
  rfl

theorem decode_unknown_of_encode {header : Header} {body : PduKind.unknown.body.Value} {limit : Int}
    {data : Octets} {registry : Registry}
    (regular : header.shape = .ofFamily header.protocolFamily.number)
    (free : registry.lookup
      ⟨header.norm.pduType.number, header.norm.protocolFamily.number⟩ = none)
    (encoded : (Pdu.encode ⟨.unknown, header, body⟩ limit).value.outcome = .ok data) :
    (decode registry true data).value =
      .ok ((Pdu.norm ⟨.unknown, header, body⟩).withLength data.length) := by
  obtain ⟨found, read⟩ := parts_of_encode rfl regular encoded
  have called : registry.reader { header.norm with length := data.length } = .unknown := by
    rw [Registry.reader, free]
    rfl
  rw [decode_of_header found, called, read]
  rfl

end Frame

/-- The key that a header shows after the wire is that of its kind if it was before. -/
theorem PduKind.key_of_norm {kind : PduKind} (listed : kind ∈ catalog) {header : Header}
    (type : header.pduType.number = kind.pduType)
    (family : header.protocolFamily.number = kind.family) :
    (⟨header.norm.pduType.number, header.norm.protocolFamily.number⟩ : PduKey) = kind.key ∧
      ∀ length : Int, kind.stamp { header.norm with length } = { header.norm with length } := by
  obtain ⟨typed, known, -⟩ := isRegular_of_mem kind listed
  rw [header.pduType_norm, header.protocolFamily_norm, type, family,
    Enumeration.number_decode_of_knows _ _ typed, Enumeration.number_decode_of_knows _ _ known]
  refine ⟨rfl, fun length => ?_⟩
  have types : header.norm.pduType = kind.typeCode := by rw [header.pduType_norm, type, typeCode]
  have families : header.norm.protocolFamily = kind.familyCode := by
    rw [header.protocolFamily_norm, family, familyCode]
  exact stamp_eq_self types families

/-- Records that know their own size, PDUs of the catalogue whose header has the shape, type
and family of their kind, and PDUs that no kind owns: what was encoded decodes to its norm,
and beside the length in the header the norm changes only what `Becomes` names. -/
theorem round_trip :
    (∀ kind ∈ RecordKind.withHeaders, kind.lengthBound = false →
      ∀ (value : kind.Value) (data : Octets), kind.encode value = .ok data →
        kind.decode data = .ok (kind.layout.norm value) ∧
        kind.layout.Becomes value (kind.layout.norm value)) ∧
    (∀ (registry : Registry) (pdu : Pdu) (limit : Int) (data : Octets),
      pdu.kind ∈ PduKind.catalog → registry.lookup pdu.kind.key = some pdu.kind →
      pdu.header.shape = pdu.kind.header → pdu.header.pduType.number = pdu.kind.pduType →
      pdu.header.protocolFamily.number = pdu.kind.family →
      (pdu.encode limit).value.outcome = .ok data →
        (∀ allowUnknown, (Frame.decode registry allowUnknown data).value =
          .ok (pdu.norm.withLength data.length)) ∧
        (Frame.decodeAs registry pdu.kind data).value = .ok (pdu.norm.withLength data.length) ∧
        (pdu.withLength data.length).Becomes (pdu.norm.withLength data.length)) ∧
    (∀ (registry : Registry) (header : Header) (body : Octets) (limit : Int) (data : Octets),
      header.shape = .ofFamily header.protocolFamily.number →
      registry.lookup ⟨header.norm.pduType.number, header.norm.protocolFamily.number⟩ = none →
      (Pdu.encode ⟨.unknown, header, body⟩ limit).value.outcome = .ok data →
        (Frame.decode registry true data).value =
          .ok ((Pdu.norm ⟨.unknown, header, body⟩).withLength data.length) ∧
        (Pdu.withLength ⟨.unknown, header, body⟩ data.length).Becomes
          ((Pdu.norm ⟨.unknown, header, body⟩).withLength data.length)) ∧
    (∀ kind ∈ PduKind.catalog, Registry.standard.lookup kind.key = some kind) := by
  refine ⟨?_, ?_, ?_, ?_⟩
  · intro kind listed free value data encoded
    constructor
    · exact RecordKind.decode_of_encode (RecordKind.isSound_of_mem kind listed) free encoded
    · exact kind.layout.becomes_norm (RecordKind.encode_eq_ok.mp encoded)
  · intro registry pdu limit data listed owner shape type family encoded
    obtain ⟨key, stamped⟩ := PduKind.key_of_norm listed type family
    have regular : pdu.header.shape = .ofFamily pdu.header.protocolFamily.number := by
      rw [shape, family, (PduKind.isRegular_of_mem _ listed).2.2]
    have decoded := Frame.decode_of_encode (PduKind.isSound_of_mem _ listed) regular
      (by rw [key, owner]) stamped encoded
    refine ⟨decoded, ?_, Pdu.becomes_of_encode encoded⟩
    have same : pdu.kind.isA pdu.kind := by simp [PduKind.isA]
    simp only [Frame.decodeAs, Logged.map, decoded]
    exact if_pos same
  · intro registry header body limit data regular free encoded
    constructor
    · exact Frame.decode_unknown_of_encode regular free encoded
    · exact Pdu.becomes_of_encode encoded
  · exact PduKind.lookup_of_mem

/-- An entity type of a kind that is not catalogued, a PDU with a body of its own, and one
of three octets that nobody reads. -/
theorem round_trip_samples :
    RecordKind.entityType.decode [200, 1, 0, 225, 2, 3, 0, 0] =
      .ok (RecordKind.entityType.layout.norm
        ((.raw 200 : Code .entityKind), (1 : Int), (.raw 225 : Code .country), (2 : Int), (3 : Int),
          (0 : Int), (0 : Int), ())) ∧
    (Frame.decode .standard false
        [7, 1, 11, 5, 0, 0, 0, 0, 0, 28, 0, 0, 0, 1, 0, 2, 0, 3, 0, 4, 0, 5, 0, 6, 0, 0, 0, 7]).value =
      .ok ((Pdu.norm (.new .createEntity (.initial .standard)
        (EntityId.of 1 2 3, EntityId.of 4 5 6, (7 : Int), ()))).withLength 28) ∧
    (Frame.decode .standard true [7, 1, 0, 0, 0, 0, 0, 0, 0, 15, 0, 0, 9, 8, 7]).value =
      .ok ((Pdu.norm ⟨.unknown, .initial .standard, ([9, 8, 7] : Octets)⟩).withLength 15) := by
  obtain ⟨records, pdus, unknowns, -⟩ := round_trip
  refine ⟨(records _ (by decide +kernel) rfl _ _ (by decide +kernel)).1, ?_, ?_⟩
  · exact (pdus .standard _ maxPduSize _ (List.mem_of_getElem? (i := 6) rfl) rfl rfl rfl rfl
      (by decide +kernel)).1 false
  · exact (unknowns .standard _ _ maxPduSize _ rfl rfl (by decide +kernel)).1

/-! Encoding what was decoded. Octets that were accepted come back span by span, and
with them the same value. The octets behind the samples of an irregular axis are a
member of its value, so they are kept and not padding here. -/

/-- Octets that decode to a value, and what encoding the value makes of them: as many
octets, settled span by span. Padding and gaps matter to no value. -/
structure Settles {α : Type} (decode : Octets → Except Error α) (encoded : Except Error Octets)
    (spans : List Span) (value : α) (data : Octets) : Prop where
  covers : data.length = Span.extent spans
  encodes : encoded = .ok (Span.mapAlong Span.settle spans data)
  size : (Span.mapAlong Span.settle spans data).length = data.length
  again : decode (Span.mapAlong Span.settle spans data) = .ok value
  alike : ∀ other, Span.Alike spans data other → decode other = .ok value
  canonical : Span.Along Span.IsCanonical spans data → encoded = .ok data

theorem Settles.of_encodes {α : Type} {decode : Octets → Except Error α}
    {encoded : Except Error Octets} {spans : List Span} {value : α} {data : Octets}
    (covers : data.length = Span.extent spans)
    (encodes : encoded = .ok (Span.mapAlong Span.settle spans data))
    (again : decode (Span.mapAlong Span.settle spans data) = .ok value)
    (alike : ∀ other, Span.Alike spans data other → decode other = .ok value) :
    Settles decode encoded spans value data where
  covers := covers
  encodes := encodes
  size := by rw [Span.length_mapAlong Span.length_settle _ _ covers, covers]
  again := again
  alike := alike
  canonical canonical := by rw [encodes, Span.settle_of_along _ _ covers canonical]

theorem RecordKind.settles {kind : RecordKind} (sound : kind.layout.isSound) {value : kind.Value}
    {data : Octets} (decoded : kind.decode data = .ok value) :
    Settles kind.decode (kind.encode value) (kind.layout.spans [] value) value data := by
  obtain ⟨free, read⟩ := decode_eq_ok.mp decoded
  obtain ⟨octets, whole, recovers⟩ := kind.layout.recovers sound Scope.fits_nil read
  rw [List.append_nil] at whole
  subst whole
  have encoded := encode_eq_ok.mpr recovers.written
  refine .of_encodes recovers.size encoded ?_ fun other alike => ?_
  · rw [decode_of_encode sound free encoded, kind.layout.norm_of_read read]
  · have same := recovers.reads other alike [] (Or.inr rfl)
    rw [List.append_nil] at same
    exact decode_eq_ok.mpr ⟨free, same⟩

namespace Pdu

def spans (pdu : Pdu) : List Span := pdu.header.spans ++ pdu.kind.body.spans [] pdu.body

theorem encode_of_write {pdu : Pdu} {limit : Int} {data : Octets} (members : pdu.kind.sizeRule = none)
    (written : pdu.write = ⟨data, none⟩) (sized : pdu.header.length = data.length)
    (fits : data.length ≤ limit) : (pdu.encode limit).value.outcome = .ok data := by
  have size := byteLength_of_write members written
  have same : pdu.withLength data.length = pdu := by
    rw [withLength, ← sized]
  rw [encode_of_fits size fits, same]
  exact octetsOfSize_eq_ok.mpr ⟨written, rfl⟩

end Pdu

theorem Frame.settles {registry : Registry} {data : Octets} {pdu : Pdu}
    (decoded : (decode registry true data).value = .ok pdu) (sound : pdu.kind.body.isSound)
    (members : pdu.kind.sizeRule = none) (small : data.length ≤ maxPduSize) :
    Settles (fun octets => (decode registry true octets).value)
      (pdu.encode maxPduSize).value.outcome pdu.spans pdu data := by
  obtain ⟨header, front, back, kind, value, rfl, read, regular, whole, called, body, rfl⟩ :=
    parts_of_decode decoded
  obtain ⟨octets, split, head⟩ := Header.recovers read
  rw [List.append_nil] at split
  subst split
  obtain ⟨octets, split, rest⟩ := kind.body.recovers sound Scope.fits_nil body
  rw [List.append_nil] at split
  subst split
  have covers : (front ++ back).length = Span.extent (Pdu.spans ⟨kind, header, value⟩) := by
    rw [List.length_append, head.size, rest.size, Pdu.spans, Span.extent_append]
  have settled : Span.mapAlong Span.settle (Pdu.spans ⟨kind, header, value⟩) (front ++ back) =
      Span.mapAlong Span.settle header.spans front ++
        Span.mapAlong Span.settle (kind.body.spans [] value) back :=
    Span.mapAlong_append _ _ _ _ _ head.size
  have same := Span.length_mapAlong Span.length_settle _ _ covers
  rw [← covers] at same
  -- Settled or alike, the header that is read is the same one, so its kind reads the body again.
  refine .of_encodes covers (Pdu.encode_of_write members ?_ ?_ ?_) ?_ fun other alike => ?_
  · exact Pdu.write_eq_complete.mpr ⟨_, _, head.written, rest.written, settled⟩
  · rw [same, whole]
  · rw [same]
    exact Int.ofNat_le.mpr small
  · have header' := Header.read_of_write head.written
    rw [Header.norm_of_read read] at header'
    have body' := kind.body.read_of_write sound rest.written
    rw [Layout.norm_of_read _ body] at body'
    rw [settled] at same ⊢
    exact decode_append header' regular (by rw [same, whole]) called body'
  · obtain ⟨front', back', rfl, heads, tails⟩ := Span.alike_append head.size rest.size alike
    have header' := head.reads front' heads [] (Or.inr rfl)
    have body' := rest.reads back' tails [] (Or.inr rfl)
    rw [List.append_nil] at header' body'
    exact decode_append header' regular (by rw [alike.size, whole]) called body'

/-- Whatever decodes encodes to the same octets settled span by span, which decode to the
same value again, and canonical spans are settled as they are. Of the kind of a decoded PDU it is
asked that its layout is sound and that it sums up its members, of the registry nothing. -/
theorem normal_form :
    (∀ kind ∈ RecordKind.withHeaders, ∀ (value : kind.Value) (data : Octets),
      kind.decode data = .ok value →
        Settles kind.decode (kind.encode value) (kind.layout.spans [] value) value data) ∧
    (∀ (registry : Registry) (pdu : Pdu) (data : Octets),
      (Frame.decode registry true data).value = .ok pdu → pdu.kind.body.isSound →
      pdu.kind.sizeRule = none → data.length ≤ maxPduSize →
        Settles (fun octets => (Frame.decode registry true octets).value)
          (pdu.encode maxPduSize).value.outcome pdu.spans pdu data) ∧
    (∀ (span : Span) (octets : Octets), octets.length = span.width → span.IsCanonical octets →
      span.settle octets = octets) := by
  refine ⟨?_, ?_, ?_⟩
  · intro kind listed value data decoded
    exact RecordKind.settles (RecordKind.isSound_of_mem kind listed) decoded
  · intro registry pdu data decoded sound members small
    exact Frame.settles decoded sound members small
  · intro span octets size canonical
    exact span.settle_of_canonical octets size canonical

/-- An entity type of a kind that is not catalogued, and a frame with every reserved bit of
its header set. -/
theorem normal_form_samples :
    (RecordKind.entityType.encode (Enumeration.entityKind.decode 200, (1 : Int),
        Enumeration.country.decode 225, (2 : Int), (3 : Int), (0 : Int), (0 : Int), ()) =
      .ok [0, 1, 0, 225, 2, 3, 0, 0]) ∧
    (Pdu.encode ((Pdu.norm ⟨.unknown, .initial .standard, ([9, 8, 7] : Octets)⟩).withLength 15)
        maxPduSize).value.outcome = .ok [7, 1, 0, 0, 0, 0, 0, 0, 0, 15, 0, 0, 9, 8, 7] ∧
    Span.settle (.padding 1) [0] = [0] := by
  obtain ⟨records, frames, spans⟩ := normal_form
  have first := records RecordKind.entityType (by decide +kernel)
    (Enumeration.entityKind.decode 200, (1 : Int), Enumeration.country.decode 225, (2 : Int),
      (3 : Int), (0 : Int), (0 : Int), ()) [200, 1, 0, 225, 2, 3, 0, 0]
    (by set_option maxRecDepth 4096 in rfl)
  have second := frames .standard
    ((Pdu.norm ⟨.unknown, .initial .standard, ([9, 8, 7] : Octets)⟩).withLength 15)
    [7, 1, 0, 0, 0, 0, 0, 0, 0, 15, 192, 1, 9, 8, 7] (by set_option maxRecDepth 4096 in rfl)
    rfl rfl (by decide)
  refine ⟨?_, ?_, spans (.padding 1) [0] rfl rfl⟩
  · rw [first.encodes]
    decide +kernel
  · rw [second.encodes]
    decide +kernel

/-- A kind that counts what it does not hold gives back another count, and a PDU of a kind of its
own is decoded at sizes above the limit that encoding has. -/
theorem unsettled :
    (∃ pdu, (Frame.decode (Registry.after [.register
          ⟨.other 1, "Tally", 42, 9, .standard, .count "tally" .u8 none .done, true, none, []⟩]) true
        [7, 1, 42, 9, 0, 0, 0, 0, 0, 13, 0, 0, 5]).value = .ok pdu ∧
      (pdu.encode maxPduSize).value.outcome = .ok [7, 1, 42, 9, 0, 0, 0, 0, 0, 13, 0, 0, 0]) ∧
    ¬ ∀ data pdu, (Frame.decodeAs .standard .signal data).value = .ok pdu →
      ∃ octets, (pdu.encode maxPduSize).value.outcome = .ok octets := by
  constructor
  · exact ⟨_, by set_option maxRecDepth 4096 in rfl, by decide +kernel⟩
  · intro always
    let pdu : Pdu := .new .signal (.initial .standard) (EntityId.of 1 2 3, (1 : Int), (0 : Int),
      (0 : Int), (0 : Int), some 65288, (0 : Int), Octets.zeros 8161, ())
    have listed : PduKind.signal ∈ PduKind.catalog := List.mem_of_getElem? (i := 4) rfl
    have room : pdu.kind.body.Holds pdu.body := (PduKind.holds_signal _ _ _ _ _ _ _ _).mpr
      ⟨by decide +kernel, by decide, by decide, by decide, by decide, by decide,
        65288, rfl, by decide, List.length_replicate⟩
    -- Under a limit of its own size the PDU is encoded, and what it is encoded to is accepted.
    have encodes : ∃ data, (pdu.encode 8196).value.outcome = .ok data :=
      (Pdu.encode_isOk_iff rfl).mpr ⟨by decide +kernel, room, 8196, rfl, by decide, by decide⟩
    obtain ⟨data, encoded⟩ := encodes
    have keyed : pdu.header.norm.key = pdu.kind.key ∧
        ∀ length : Int, pdu.kind.stamp { pdu.header.norm with length } =
          { pdu.header.norm with length } := PduKind.key_of_norm listed rfl rfl
    obtain ⟨key, stamped⟩ := keyed
    have owner : Registry.standard.lookup pdu.header.norm.key = some pdu.kind := by
      rw [key]
      rfl
    have decoded := Frame.decode_of_encode (PduKind.isSound_of_mem _ listed) rfl owner stamped
      encoded false
    have accepted : (Frame.decodeAs .standard .signal data).value =
        .ok (pdu.norm.withLength data.length) := by
      simp only [Frame.decodeAs, Logged.map, decoded]
      rfl
    obtain ⟨octets, again⟩ := always data _ accepted
    obtain ⟨size, fits, -⟩ := Pdu.encode_eq_ok again
    have known : (pdu.norm.withLength data.length).byteLength = .ok 8196 := rfl
    rw [known] at size
    have whole : (8196 : Int) = octets.length := Except.ok.inj size
    rw [← whole] at fits
    exact absurd fits (by decide)

end Dis

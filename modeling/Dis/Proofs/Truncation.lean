import Dis.Proofs.RoundTrip
import Dis.Proofs.Stream

/-! Too few octets and too many. What was written ends by itself, so any part of it lacks octets
and nothing else is wrong with it, and whatever follows it is told apart as a surplus. A frame
is told the same way once its length field says how many octets it has. -/

namespace Dis

namespace RecordKind

def withTails : List RecordKind := irregularAxisData :: gridAxisDescriptor :: lengthBoundKinds

theorem isBounded_iff_of_mem : ∀ kind ∈ withHeaders,
    kind.layout.isBounded = false ↔ kind ∈ withTails := by decide +kernel

theorem free_of_isBounded : ∀ kind ∈ withHeaders,
    kind.layout.isBounded → kind.lengthBound = false := by decide +kernel

variable {kind : RecordKind} {value : kind.Value} {data : Octets}

theorem isBounded_of_mem (listed : kind ∈ withHeaders) (other : kind ∉ withTails) :
    kind.layout.isBounded := by
  apply Bool.of_not_eq_false
  intro endless
  exact other ((isBounded_iff_of_mem kind listed).mp endless)

theorem decode_cut (sound : kind.layout.isSound) (bounded : kind.layout.isBounded)
    (free : kind.lengthBound = false) (encoded : kind.encode value = .ok data) {front : Octets}
    (begins : front <+: data) (proper : front ≠ data) :
    ∃ e, kind.decode front = .error e ∧ e.category = .truncated := by
  rcases begins with ⟨back, rfl⟩
  have whole := kind.layout.read_of_write sound (encode_eq_ok.mp encoded)
  have rest : back ≠ [] := by
    rintro rfl
    exact proper (List.append_nil front).symm
  rcases (kind.layout.steady sound bounded).cut whole rest with
    ⟨fault, left, expected, found, refused, short⟩
  refine ⟨.read fault, ?_, ?_⟩
  · rw [decode, free, refused]
    rfl
  · rw [Error.category_read, short]
    rfl

theorem decode_surplus (sound : kind.layout.isSound) (bounded : kind.layout.isBounded)
    (free : kind.lengthBound = false) (encoded : kind.encode value = .ok data) {more : Octets}
    (longer : more ≠ []) :
    kind.decode (data ++ more) =
      .error (.surplus kind.name data.length (data.length + more.length)) := by
  have whole := kind.layout.read_of_write sound (encode_eq_ok.mp encoded)
  have read := (kind.layout.steady sound bounded).read more whole
  rw [List.nil_append] at read
  unfold decode
  rw [free, read]
  cases more with
  | nil => exact absurd rfl longer
  | cons octet rest => simp

end RecordKind

theorem Header.key_congr {data other : Octets} (type : octet data 2 = octet other 2)
    (family : octet data headerFamilyOffset = octet other headerFamilyOffset) :
    (spelled data).key = (spelled other).key := by
  simp only [key, spelled, type, family]

namespace Frame

/-- The octets with their own number in the place of the length. -/
def redeclare (data : Octets) : Octets :=
  data.take headerLengthOffset ++ Octets.ofNat 2 data.length ++ data.drop (headerLengthOffset + 2)

variable {registry : Registry} {kind : PduKind} {front body : Octets}

/-- Nothing else in the header is touched, and the header then declares what there is. -/
theorem redeclare_append (twelve : front.length = pduHeaderSize)
    (room : (front ++ body).length < 65536) :
    ∃ renewed : Octets, redeclare (front ++ body) = renewed ++ body ∧
      renewed.length = pduHeaderSize ∧
      (Header.spelled (renewed ++ body)).key = (Header.spelled front).key ∧
      (Header.spelled (renewed ++ body)).length = ((front ++ body).length : Nat) := by
  rcases Header.exists_twelve front (Nat.le_of_eq twelve.symm) with
    ⟨a, b, c, d, e, f, g, h, i, j, k, l, rest, rfl⟩
  have nothing : rest = [] := by
    apply List.eq_nil_of_length_eq_zero
    simp only [List.length_cons, pduHeaderSize] at twelve
    omega
  subst nothing
  have number := Octets.toNat_ofNat_of_lt 2 _ room
  rcases List.length_eq_two.mp (Octets.length_ofNat 2 _) with ⟨high, low, digits⟩
  rw [digits] at number
  have declared : (Header.spelled ([a, b, c, d, e, f, g, h, high, low, k, l] ++ body)).length =
      (Octets.toNat [high, low] : Nat) := rfl
  refine ⟨[a, b, c, d, e, f, g, h, high, low, k, l], ?_, rfl, ?_, ?_⟩
  · rw [redeclare, digits]
    rfl
  · apply Header.key_congr
    · rfl
    · rfl
  · rw [declared, number]

theorem decode_redeclare (twelve : front.length = pduHeaderSize)
    (owner : registry.lookup (Header.spelled front).key = some kind)
    (room : (front ++ body).length < 65536) :
    ∃ header : Header, header.length = ((front ++ body).length : Nat) ∧ ∀ allowUnknown,
      (decode registry allowUnknown (redeclare (front ++ body))).value =
        readBody kind header body := by
  rcases redeclare_append twelve room with ⟨renewed, same, size, key, declared⟩
  refine ⟨_, declared, fun allowUnknown => ?_⟩
  have enough : pduHeaderSize ≤ (renewed ++ body).length := by
    rw [List.length_append, size]
    exact Nat.le_add_right _ _
  have whole : (Header.spelled (renewed ++ body)).length = ((renewed ++ body).length : Nat) := by
    rw [declared, List.length_append, List.length_append, twelve, size]
  have found := header_eq_ok.mpr ⟨Header.peek_eq_spelled _ enough, whole⟩
  rw [same, decode_of_lookup found (key ▸ owner), ← size, List.drop_left]

section Body

variable {value : kind.body.Value} (steady : kind.body.read.Steady)
variable (twelve : front.length = pduHeaderSize)
variable (owner : registry.lookup (Header.spelled front).key = some kind)
variable (read : kind.body.read body = .ok value [])
include steady twelve owner read

theorem decode_cut {count : Nat} (least : pduHeaderSize ≤ count)
    (short : count < (front ++ body).length) (room : (front ++ body).length < 65536)
    (allowUnknown : Bool) :
    ∃ e, (decode registry allowUnknown (redeclare ((front ++ body).take count))).value = .error e ∧
      e.category = .truncated := by
  have taken : (front ++ body).take count = front ++ body.take (count - pduHeaderSize) := by
    rw [List.take_append, List.take_of_length_le (by omega), twelve]
  have fits : (front ++ body.take (count - pduHeaderSize)).length < 65536 := by
    rw [← taken, List.length_take]
    omega
  have rest : body.drop (count - pduHeaderSize) ≠ [] := by
    rw [List.length_append, twelve] at short
    intro nothing
    have most := List.drop_eq_nil_iff.mp nothing
    omega
  rw [← List.take_append_drop (count - pduHeaderSize) body] at read
  rcases steady.cut read rest with ⟨fault, left, expected, found, refused, lacking⟩
  rcases decode_redeclare twelve owner fits with ⟨header, -, decoded⟩
  refine ⟨.read fault, ?_, ?_⟩
  · rw [taken, decoded]
    exact readBody_eq_error.mpr (Or.inl ⟨fault, left, refused, rfl⟩)
  · rw [Error.category_read, lacking]
    rfl

theorem decode_surplus {more : Octets} (longer : more ≠ [])
    (room : (front ++ body).length + more.length < 65536) (allowUnknown : Bool) :
    ∃ e, (decode registry allowUnknown (redeclare (front ++ body ++ more))).value = .error e ∧
      e.category = .framing ∧ e.extents =
        (some ↑((front ++ body).length + more.length), some ↑(front ++ body).length) := by
  have fits : (front ++ (body ++ more)).length < 65536 := by
    rw [← List.append_assoc, List.length_append]
    exact room
  rcases decode_redeclare twelve owner fits with ⟨header, declared, decoded⟩
  have later := steady.read more read
  refine ⟨.bodyUnread kind.name header.length more.length (body ++ more).length, ?_, rfl, ?_⟩
  · rw [List.append_assoc, decoded]
    exact readBody_eq_error.mpr (Or.inr ⟨value, more, later, longer, rfl⟩)
  · simp only [Error.extents, declared, Prod.mk.injEq, Option.some.injEq, List.length_append]
    push_cast
    omega

end Body
end Frame

theorem PduKind.isBounded_of_mem : ∀ kind ∈ catalog, kind.body.isBounded := by decide +kernel

namespace Pdu

theorem parts_of_encode {pdu : Pdu} {limit : Int} {data : Octets}
    (listed : pdu.kind ∈ PduKind.catalog)
    (type : pdu.header.pduType.number = pdu.kind.pduType)
    (family : pdu.header.protocolFamily.number = pdu.kind.family)
    (encoded : (pdu.encode limit).value.outcome = .ok data) :
    ∃ front body value, data = front ++ body ∧ front.length = pduHeaderSize ∧
      (Header.spelled front).key = pdu.kind.key ∧ data.length < 65536 ∧
      pdu.kind.body.read body = .ok value [] := by
  rcases encode_eq_ok encoded with ⟨-, -, -, written⟩
  rcases write_eq_complete.mp written with ⟨front, body, header, rest, split⟩
  rcases Header.places_write header with ⟨places, -, room⟩
  have twelve := places.size
  have read := Header.read_of_write header
  rcases Header.read_of_enough _ (Nat.le_of_eq twelve.symm) with ⟨found, same, key, -⟩
  rw [read] at same
  injection same with same
  subst same
  have typed : (pdu.withLength data.length).header.pduType.number = pdu.kind.pduType := type
  have named := (PduKind.key_of_norm listed typed family).1
  refine ⟨front, body, _, split, twelve, key.symm.trans named, ?_,
    pdu.kind.body.read_of_write (PduKind.isSound_of_mem _ listed) rest⟩
  have most : (data.length : Int) ≤ 65535 := room.2
  omega

end Pdu

/-- What was encoded, less some octets, is refused for want of octets, and with some more it is
refused for a surplus that says how many there are. It holds of every kind of record that does
not end with all octets there are, and of the PDUs of the catalogue once the length field says
how many octets there are. -/
theorem truncation_law :
    (∀ kind ∈ RecordKind.withHeaders, kind.layout.isBounded = false ↔ kind ∈ RecordKind.withTails) ∧
    (∀ kind ∈ RecordKind.withHeaders, kind ∉ RecordKind.withTails →
      ∀ (value : kind.Value) (data : Octets), kind.encode value = .ok data →
        (∀ front, front <+: data → front ≠ data →
          ∃ e, kind.decode front = .error e ∧ e.category = .truncated) ∧
        ∀ more, more ≠ [] → ∃ e, kind.decode (data ++ more) = .error e ∧ e.category = .framing ∧
          e.extents = (some ↑(data.length + more.length), some ↑data.length)) ∧
    (∀ (registry : Registry) (pdu : Pdu) (limit : Int) (data : Octets) allowUnknown,
      pdu.kind ∈ PduKind.catalog → registry.lookup pdu.kind.key = some pdu.kind →
      pdu.header.pduType.number = pdu.kind.pduType →
      pdu.header.protocolFamily.number = pdu.kind.family →
      (pdu.encode limit).value.outcome = .ok data →
        (∀ count, pduHeaderSize ≤ count → count < data.length →
          ∃ e, (Frame.decode registry allowUnknown (Frame.redeclare (data.take count))).value =
            .error e ∧ e.category = .truncated) ∧
        ∀ more, more ≠ [] → data.length + more.length ≤ 65535 →
          ∃ e, (Frame.decode registry allowUnknown (Frame.redeclare (data ++ more))).value =
            .error e ∧ e.category = .framing ∧
            e.extents = (some ↑(data.length + more.length), some ↑data.length)) ∧
    (∀ kind ∈ PduKind.catalog, Registry.standard.lookup kind.key = some kind) := by
  refine ⟨RecordKind.isBounded_iff_of_mem, ?_, ?_, PduKind.lookup_of_mem⟩
  · intro kind listed other value data encoded
    have bounded := RecordKind.isBounded_of_mem listed other
    have sound := RecordKind.isSound_of_mem kind listed
    have free := RecordKind.free_of_isBounded kind listed bounded
    constructor
    · intro front begins proper
      exact RecordKind.decode_cut sound bounded free encoded begins proper
    · intro more longer
      exact ⟨_, RecordKind.decode_surplus sound bounded free encoded longer, rfl, rfl⟩
  · intro registry pdu limit data allowUnknown listed owner type family encoded
    rcases Pdu.parts_of_encode listed type family encoded with
      ⟨front, body, value, rfl, twelve, key, room, read⟩
    have steady := pdu.kind.body.steady (PduKind.isSound_of_mem _ listed)
      (PduKind.isBounded_of_mem _ listed)
    rw [← key] at owner
    constructor
    · intro count least short
      exact Frame.decode_cut steady twelve owner read least short room allowUnknown
    · intro more longer fits
      exact Frame.decode_surplus steady twelve owner read longer (Nat.lt_succ_of_le fits)
        allowUnknown

/-- Part of an identifier and one that is an octet too long, and a request to create an entity
without its last octet and with one more. -/
theorem truncation_law_samples :
    (∃ e, RecordKind.entityId.decode [0, 1, 0] = .error e ∧ e.category = .truncated) ∧
    (∃ e, RecordKind.entityId.decode ([0, 1, 0, 2, 0, 3] ++ [9]) = .error e ∧
      e.category = .framing ∧ e.extents = (some 7, some 6)) ∧
    (∃ e, (Frame.decode .standard true [7, 1, 11, 5, 0, 0, 0, 0, 0, 27, 0, 0, 0, 1, 0, 2, 0, 3, 0, 4,
        0, 5, 0, 6, 0, 0, 0]).value = .error e ∧ e.category = .truncated) ∧
    ∃ e, (Frame.decode .standard true [7, 1, 11, 5, 0, 0, 0, 0, 0, 29, 0, 0, 0, 1, 0, 2, 0, 3, 0, 4,
        0, 5, 0, 6, 0, 0, 0, 7, 9]).value = .error e ∧ e.category = .framing ∧
      e.extents = (some 29, some 28) := by
  rcases truncation_law with ⟨-, records, pdus, -⟩
  rcases records .entityId (by decide +kernel) (by decide +kernel) (EntityId.of 1 2 3)
    [0, 1, 0, 2, 0, 3] (by decide +kernel) with ⟨cut, surplus⟩
  rcases pdus .standard (.new .createEntity (.initial .standard)
    (EntityId.of 1 2 3, EntityId.of 4 5 6, (7 : Int), ())) maxPduSize
    [7, 1, 11, 5, 0, 0, 0, 0, 0, 28, 0, 0, 0, 1, 0, 2, 0, 3, 0, 4, 0, 5, 0, 6, 0, 0, 0, 7] true
    (List.mem_of_getElem? (i := 6) rfl) rfl rfl rfl (by decide +kernel) with ⟨less, more⟩
  refine ⟨cut _ ⟨[2, 0, 3], rfl⟩ (by decide), surplus [9] (by decide), ?_, ?_⟩
  · exact less 27 (by decide) (by decide)
  · exact more [9] (by decide) (by decide)

end Dis

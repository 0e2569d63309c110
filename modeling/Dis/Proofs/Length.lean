import Dis.Proofs.Header

/-! What encoding a PDU does, step by step: the size is found, held against the limit
and stored, and only then anything is written. -/

namespace Dis

theorem Error.category_sizeExceeded_iff {size limit : Int} :
    (sizeExceeded size limit).category = .sizeExceeded ↔
      Numeral.isShown size ∧ Numeral.isShown limit := by
  rw [category_eq_iff (by decide : Category.sizeExceeded ≠ .value)]
  simp [isWorded, numbers, causeCategory]

namespace PduKind

/-- Is a size rule of the kind's own blind to the length that the header shows? -/
def IgnoresLength (kind : PduKind) : Prop :=
  ∀ rule, kind.sizeRule = some rule → ∀ (header : Header) (stale : Int) (body : kind.body.Value),
    rule { header with length := stale } body = rule header body

theorem ignoresLength_of_members {kind : PduKind} (members : kind.sizeRule = none) :
    kind.IgnoresLength := by
  intro rule ruled
  rw [members] at ruled
  cases ruled

end PduKind

namespace Pdu

variable {pdu : Pdu} {limit : Int}

theorem bodyLength_withLength (ignores : pdu.kind.IgnoresLength) (stale : Int) :
    (pdu.withLength stale).bodyLength = pdu.bodyLength := by
  change pdu.kind.bodyLength { pdu.header with length := stale } pdu.body =
    pdu.kind.bodyLength pdu.header pdu.body
  unfold PduKind.bodyLength
  cases ruled : pdu.kind.sizeRule with
  | none => rfl
  | some rule => simp only [ignores rule ruled]

theorem byteLength_withLength (ignores : pdu.kind.IgnoresLength) (stale : Int) :
    (pdu.withLength stale).byteLength = pdu.byteLength := by
  rw [byteLength, byteLength, bodyLength_withLength ignores]

theorem byteLength_eq_ok {length : Int} :
    pdu.byteLength = .ok length ↔ ∃ n, pdu.bodyLength = .ok n ∧ length = pduHeaderSize + n := by
  unfold byteLength
  cases pdu.bodyLength with
  | ok n => simp [Except.map, eq_comm]
  | error e => simp [Except.map]

theorem write_eq_complete {data : Octets} :
    pdu.write = ⟨data, none⟩ ↔ ∃ front back, pdu.header.write = ⟨front, none⟩ ∧
      pdu.kind.body.write pdu.body = ⟨back, none⟩ ∧ data = front ++ back :=
  Written.append_eq_complete

theorem octetsOfSize_eq_ok {length : Int} {data : Octets} :
    pdu.octetsOfSize length = .ok data ↔ pdu.write = ⟨data, none⟩ ∧ data.length = length := by
  unfold octetsOfSize
  rw [← Written.complete_eq_ok]
  cases pdu.write.complete with
  | error fault => simp
  | ok octets =>
      simp only
      split
      · next same =>
        simp only [Except.ok.injEq]
        constructor
        · rintro rfl
          exact ⟨rfl, same⟩
        · exact And.left
      · next other =>
        simp only [reduceCtorEq, Except.ok.injEq, false_iff, not_and]
        rintro rfl
        exact other

/-- An attempt, once the size is known: the limit comes first, and what is stored next. -/
theorem encode_eq {length : Int} (size : pdu.byteLength = .ok length) (limit : Int) :
    pdu.encode limit =
      if limit < length then
        ⟨⟨.error (.sizeExceeded length limit), pdu⟩, [.rejected pdu.kind.name length limit]⟩
      else ⟨⟨(pdu.withLength length).octetsOfSize length, pdu.withLength length⟩, []⟩ := by
  simp only [encode, finalize, size]
  split <;> rfl

theorem encode_of_above {length : Int} (size : pdu.byteLength = .ok length)
    (above : limit < length) :
    (pdu.encode limit).value = ⟨.error (.sizeExceeded length limit), pdu⟩ := by
  rw [encode_eq size, if_pos above]

theorem encode_of_fits {length : Int} (size : pdu.byteLength = .ok length) (fits : length ≤ limit) :
    (pdu.encode limit).value =
      ⟨(pdu.withLength length).octetsOfSize length, pdu.withLength length⟩ := by
  rw [encode_eq size, if_neg (Int.not_lt.mpr fits)]

theorem encode_cases (pdu : Pdu) (limit : Int) :
    (∃ e, pdu.byteLength = .error e ∧ (pdu.encode limit).value = ⟨.error e, pdu⟩) ∨
    (∃ length, pdu.byteLength = .ok length ∧ limit < length ∧
      (pdu.encode limit).value = ⟨.error (.sizeExceeded length limit), pdu⟩) ∨
    (∃ length, pdu.byteLength = .ok length ∧ length ≤ limit ∧
      (pdu.encode limit).value =
        ⟨(pdu.withLength length).octetsOfSize length, pdu.withLength length⟩) := by
  cases size : pdu.byteLength with
  | error e =>
      refine Or.inl ⟨e, rfl, ?_⟩
      simp [encode, finalize, size, Logged.map, Logged.pure]
  | ok length =>
      by_cases above : limit < length
      · exact Or.inr (Or.inl ⟨length, rfl, above, encode_of_above size above⟩)
      · have fits : length ≤ limit := Int.le_of_not_gt above
        exact Or.inr (Or.inr ⟨length, rfl, fits, encode_of_fits size fits⟩)

theorem encode_eq_ok {data : Octets} (encoded : (pdu.encode limit).value.outcome = .ok data) :
    pdu.byteLength = .ok data.length ∧ data.length ≤ limit ∧
      (pdu.encode limit).value.pdu = pdu.withLength data.length ∧
      (pdu.withLength data.length).write = ⟨data, none⟩ := by
  rcases encode_cases pdu limit with
    ⟨e, -, done⟩ | ⟨length, -, -, done⟩ | ⟨length, size, fits, done⟩
  · rw [done] at encoded
    cases encoded
  · rw [done] at encoded
    cases encoded
  · rw [done] at encoded ⊢
    obtain ⟨written, rfl⟩ := octetsOfSize_eq_ok.mp encoded
    exact ⟨size, fits, rfl, written⟩

end Pdu

/-! The size of a value is found without writing it, and it is the number of octets that
writing it puts out. -/

theorem RecordKind.encode_eq_ok {kind : RecordKind} {value : kind.Value} {data : Octets} :
    kind.encode value = .ok data ↔ kind.layout.write value = ⟨data, none⟩ := by
  rw [← Written.complete_eq_ok, encode]
  cases (kind.layout.write value).complete with
  | ok octets => simp [Except.mapError]
  | error fault => simp [Except.mapError]

theorem RecordKind.byteLength_of_encode {kind : RecordKind} (listed : kind ∈ withHeaders)
    {value : kind.Value} {data : Octets} (encoded : kind.encode value = .ok data) :
    kind.byteLength value = .ok data.length := by
  obtain ⟨counted, size⟩ := kind.layout.size_of_write (encode_eq_ok.mp encoded)
  unfold byteLength
  split
  · next fixed said =>
    have static : kind.layout.fixedSize? = some fixed := by
      rcases fixedSize_of_mem kind listed with none | same
      · rw [said] at none
        cases none
      · rw [← same, said]
    rw [kind.layout.sizeIn_of_fixedSize? static] at size
    rw [size]
  · rw [if_pos counted, Layout.size, size]

theorem PduKind.bodyLength_of_write {kind : PduKind} (members : kind.sizeRule = none)
    (header : Header) {body : kind.body.Value} {octets : Octets}
    (written : kind.body.write body = ⟨octets, none⟩) :
    kind.bodyLength header body = .ok octets.length := by
  rcases kind.body.size_of_write written with ⟨counted, size⟩
  rw [bodyLength, members]
  simp only [counted, if_true, Layout.size, size]

namespace Pdu

variable {pdu : Pdu} {limit : Int} {data : Octets}

theorem byteLength_of_write (members : pdu.kind.sizeRule = none)
    (written : pdu.write = ⟨data, none⟩) : pdu.byteLength = .ok data.length := by
  obtain ⟨front, back, header, body, rfl⟩ := write_eq_complete.mp written
  have twelve := (Header.places_write header).1.size
  refine byteLength_eq_ok.mpr ⟨back.length, PduKind.bodyLength_of_write members _ body, ?_⟩
  rw [List.length_append, twelve]
  push_cast
  rfl

end Pdu

end Dis

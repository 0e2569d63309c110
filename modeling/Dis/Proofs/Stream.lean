import Dis.Proofs.Acceptance
import Dis.Proofs.Operation

/-! PDUs on a stream. A header of twelve octets says where the next PDU starts, and its body is
taken off the stream before anything in it is looked at. So reading a PDU from a stream and
decoding a frame accept the same octets, though they test them in another order. -/

namespace Dis

/-- Twelve octets are a header in either shape, and its key and length are the same in both. -/
theorem Header.read_of_enough (shape : HeaderShape) {data : Octets}
    (enough : pduHeaderSize ≤ data.length) :
    ∃ header, Header.read shape data = .ok header (data.drop pduHeaderSize) ∧
      header.key = (spelled data).key ∧ header.length = (spelled data).length ∧
      (shape = .ofFamily (spelled data).protocolFamily.number → header = spelled data) := by
  rcases exists_twelve data enough with ⟨a, b, c, d, e, f, g, h, i, j, k, l, rest, rfl⟩
  have twelve := read_twelve shape a b c d e f g h i j k l
  simp only [ofOctets_singleton, toNat_singleton,
    IntFormat.ofOctets_eq_toNat .u32 rfl [e, f, g, h] rfl,
    IntFormat.ofOctets_eq_toNat .u16 rfl [i, j] rfl] at twelve
  rcases recovers twelve with ⟨octets, same, found⟩
  rw [List.append_nil] at same
  subst same
  have read := found.reads _ ⟨rfl, rfl⟩ rest (Or.inl rfl)
  refine ⟨_, read, rfl, rfl, fun settled => ?_⟩
  have raw : shape = .ofFamily (d.toNat : Int) := settled.trans (HeaderShape.ofFamily_decode _)
  subst raw
  rfl

theorem Header.enough_of_read {shape : HeaderShape} {header : Header} {input left : Octets}
    (read : Header.read shape input = .ok header left) : pduHeaderSize ≤ input.length := by
  rcases places_read read with ⟨octets, family, length, rfl, places, -⟩
  rw [List.length_append, places.size]
  exact Nat.le_add_right _ _

theorem Header.holds_length_spelled (data : Octets) :
    IntFormat.u16.Holds (spelled data).length := by
  have told : (spelled data).length =
      (Octets.toNat ((data.drop headerLengthOffset).take 2) : Nat) := rfl
  have small := Octets.toNat_lt ((data.drop headerLengthOffset).take 2)
  have few : 256 ^ ((data.drop headerLengthOffset).take 2).length ≤ 256 ^ 2 :=
    Nat.pow_le_pow_right (by decide) (List.length_take_le 2 _)
  rw [told]
  exact ⟨Int.natCast_nonneg _, Int.ofNat_le.mpr (Nat.le_of_lt_succ (Nat.lt_of_lt_of_le small few))⟩

namespace PduKind

variable {kind : PduKind} {cursor : Cursor}

theorem deserializeBody_eq (kind : PduKind) (header : Header) (cursor : Cursor) :
    kind.deserializeBody header cursor =
      if header.length < pduHeaderSize then (.error (.lengthBelowHeader header.length), cursor)
      else if cursor.remaining < header.bodyLength then
        (.error (.cursorShort header.bodyLength cursor.position cursor.remaining), cursor)
      else (Frame.readBody kind header (cursor.ahead.take header.bodyLength.toNat),
        cursor.advance header.bodyLength.toNat) := by
  unfold deserializeBody Frame.checkLength
  by_cases below : header.length < pduHeaderSize
  · simp only [if_pos below]
  · have nonneg : 0 ≤ header.bodyLength := Int.sub_nonneg_of_le (Int.le_of_not_gt below)
    rcases Int.eq_ofNat_of_zero_le nonneg with ⟨size, body⟩
    simp only [if_neg below, body, Int.toNat_natCast]
    by_cases short : cursor.remaining < (size : Int)
    · rw [if_pos short, Cursor.read_of_lt (Int.ofNat_lt.mp short)]
      rfl
    · rw [if_neg short, Cursor.read_of_le (by omega)]
      rfl

theorem deserialize_eq (shaped : kind.header = .ofFamily kind.family)
    (enough : pduHeaderSize ≤ cursor.remaining) {header : Header}
    (shown : header = Header.spelled cursor.ahead) :
    kind.deserialize cursor =
      if header.key = kind.key then
        kind.deserializeBody header (cursor.advance pduHeaderSize)
      else
        (.error (.otherKey kind.name header.key.pduType header.key.family),
          cursor.advance pduHeaderSize) := by
  have within : pduHeaderSize ≤ cursor.ahead.length := by
    rw [cursor.length_ahead]
    exact enough
  rcases Header.read_of_enough kind.header within with ⟨found, read, keyed, -, same⟩
  rw [← shown] at keyed same
  have inside : cursor.position ≤ cursor.length :=
    Cursor.inside_of_remaining (Nat.lt_of_lt_of_le (by decide) enough)
  have ran := Cursor.run_of_ok inside (List.take_append_drop pduHeaderSize cursor.ahead).symm read
  rw [List.length_take, Nat.min_eq_left within] at ran
  have named : found.pduType.number = kind.pduType ∧ found.protocolFamily.number = kind.family ↔
      header.key = kind.key := by
    rw [← keyed]
    exact (PduKey.mk.injEq ..).to_iff.symm
  simp only [deserialize, ran, named]
  by_cases key : header.key = kind.key
  · -- The key settles the shape, so the header that was read is the one that stands ahead.
    have family : header.protocolFamily.number = kind.family := congrArg PduKey.family key
    rw [if_pos key, if_pos key, same (by rw [shaped, family])]
  · rw [if_neg key, if_neg key, ← keyed]
    rfl

/-- What reading a PDU comes to, by the header that stands ahead: where the cursor goes, and
which octets the body is read from. -/
structure Resumes (kind : PduKind) (cursor : Cursor) (header : Header)
    (result : Except Error Pdu × Cursor) : Prop where
  other : header.key ≠ kind.key →
    ∃ e, result = (.error e, cursor.advance pduHeaderSize) ∧ e.category = .decode
  below : header.key = kind.key → header.length < pduHeaderSize →
    ∃ e, result = (.error e, cursor.advance pduHeaderSize) ∧ e.category = .framing
  cut : header.key = kind.key → cursor.remaining < header.length →
    ∃ e, result = (.error e, cursor.advance pduHeaderSize) ∧ e.category = .truncated
  framed (size : Nat) : header.key = kind.key → header.length = size → pduHeaderSize ≤ size →
    size ≤ cursor.remaining →
    result = (Frame.readBody kind header ((cursor.ahead.take size).drop pduHeaderSize),
      cursor.advance size)

theorem resumes_deserialize (shaped : kind.header = .ofFamily kind.family)
    (enough : pduHeaderSize ≤ cursor.remaining) :
    Resumes kind cursor (Header.spelled cursor.ahead) (kind.deserialize cursor) := by
  rw [deserialize_eq shaped enough rfl, deserializeBody_eq]
  have narrow := Header.holds_length_spelled cursor.ahead
  generalize Header.spelled cursor.ahead = header at narrow
  have left := cursor.remaining_advance pduHeaderSize
  have body : header.bodyLength = header.length - pduHeaderSize := rfl
  constructor
  · intro other
    rw [if_neg other]
    exact ⟨_, rfl, rfl⟩
  · intro key below
    rw [if_pos key, if_pos below]
    exact ⟨_, rfl, rfl⟩
  · intro key short
    rw [if_pos key, if_neg (by omega), if_pos (by omega)]
    -- What is asked for are fewer octets than a header can declare, so that it can be worded.
    have worded : Numeral.isShown header.bodyLength := by
      apply IntFormat.u16.isShown_of_holds
      rcases narrow with ⟨-, most⟩
      exact ⟨Int.sub_nonneg_of_le (by omega), by omega⟩
    refine ⟨_, rfl, ?_⟩
    simp [Error.category, Error.isWorded, Error.numbers, Error.causeCategory, worded]
  · intro size key declared least fits
    have count : header.bodyLength.toNat = size - pduHeaderSize := by omega
    rw [if_pos key, if_neg (by omega), if_neg (by omega), count, Cursor.ahead_advance,
      Cursor.advance_advance, Nat.add_sub_cancel' least, List.drop_take]

theorem enough_of_deserialize {pdu : Pdu} {later : Cursor}
    (read : kind.deserialize cursor = (.ok pdu, later)) : pduHeaderSize ≤ cursor.remaining := by
  unfold deserialize at read
  rcases ran : cursor.run (Header.read kind.header) with ⟨outcome, behind⟩
  rw [ran] at read
  cases outcome with
  | ok header =>
      rcases Cursor.read_of_run ran with ⟨rest, found⟩
      rw [← cursor.length_ahead]
      exact Header.enough_of_read found
  | error e => cases read

/-- A PDU that was read stood there whole, as long as its header says. -/
theorem framed_of_deserialize (shaped : kind.header = .ofFamily kind.family) {pdu : Pdu}
    {later : Cursor} (read : kind.deserialize cursor = (.ok pdu, later)) :
    ∃ size : Nat, pduHeaderSize ≤ size ∧ size ≤ cursor.remaining ∧
      (Header.spelled cursor.ahead).key = kind.key ∧
      (Header.spelled cursor.ahead).length = size ∧
      Frame.readBody kind (Header.spelled cursor.ahead)
        ((cursor.ahead.take size).drop pduHeaderSize) = .ok pdu ∧
      later = cursor.advance size := by
  have resumes := resumes_deserialize shaped (enough_of_deserialize read)
  rw [read] at resumes
  have key : (Header.spelled cursor.ahead).key = kind.key := by
    by_contra other
    rcases resumes.other other with ⟨e, failed, -⟩
    cases failed
  have declared : (Header.spelled cursor.ahead).length =
      (Octets.toNat ((cursor.ahead.drop headerLengthOffset).take 2) : Nat) := rfl
  generalize Octets.toNat ((cursor.ahead.drop headerLengthOffset).take 2) = size at declared
  have least : pduHeaderSize ≤ size := by
    by_contra below
    rcases resumes.below key (by omega) with ⟨e, failed, -⟩
    cases failed
  have fits : size ≤ cursor.remaining := by
    by_contra short
    rcases resumes.cut key (by omega) with ⟨e, failed, -⟩
    cases failed
  rcases Prod.mk.inj (resumes.framed size key declared least fits) with ⟨body, stop⟩
  exact ⟨size, least, fits, key, declared, body.symm, stop⟩

end PduKind

namespace Frame

variable {registry : Registry} {kind : PduKind} {allowUnknown : Bool} {data : Octets} {pdu : Pdu}

/-- A PDU was read by the kind that owns its key, or nobody owns it and it is kept whole. -/
theorem owner_of_decode (decoded : (decode registry allowUnknown data).value = .ok pdu) :
    ∃ header, Frame.header data = .ok header ∧
      (registry.lookup header.key = some pdu.kind ∧
          readBody pdu.kind header (data.drop pduHeaderSize) = .ok pdu ∨
        allowUnknown ∧ pdu.kind = .unknown) := by
  rcases header_of_decode decoded with ⟨header, found⟩
  refine ⟨header, found, ?_⟩
  rw [decode_eq, found] at decoded
  dsimp only at decoded
  cases owner : registry.lookup header.key with
  | none =>
      rw [owner] at decoded
      dsimp only at decoded
      split at decoded
      · next allowed =>
        cases decoded
        exact Or.inr ⟨allowed, rfl⟩
      · cases decoded
  | some reader =>
      rw [owner] at decoded
      dsimp only at decoded
      rcases readBody_eq_ok.mp decoded with ⟨value, -, rfl⟩
      exact Or.inl ⟨rfl, decoded⟩

theorem decode_owned_iff (regular : registry.IsRegular) (listed : kind ∈ registry.kinds)
    (other : kind ≠ .unknown) :
    (decode registry allowUnknown data).value = .ok pdu ∧ pdu.kind = kind ↔
      pduHeaderSize ≤ data.length ∧ (Header.spelled data).length = data.length ∧
        (Header.spelled data).key = kind.key ∧
        readBody kind (Header.spelled data) (data.drop pduHeaderSize) = .ok pdu := by
  constructor
  · rintro ⟨decoded, rfl⟩
    rcases owner_of_decode decoded with ⟨header, found, ⟨owner, read⟩ | ⟨-, unknown⟩⟩
    · rcases header_eq_ok.mp found with ⟨peeked, whole⟩
      rcases Header.spelled_of_peek peeked with ⟨enough, rfl⟩
      exact ⟨enough, whole, (regular.lookup_iff.mp owner).2.symm, read⟩
    · exact absurd unknown other
  · rintro ⟨enough, whole, key, read⟩
    have found : Frame.header data = .ok (Header.spelled data) :=
      header_eq_ok.mpr ⟨Header.peek_eq_spelled data enough, whole⟩
    have owner := regular.lookup_iff.mpr ⟨listed, key.symm⟩
    rcases readBody_eq_ok.mp read with ⟨value, -, rfl⟩
    refine ⟨?_, rfl⟩
    rw [decode_eq, found]
    dsimp only
    rw [owner]
    exact read

end Frame

namespace PduKind

variable {registry : Registry} {kind : PduKind} {data : Octets} {pdu : Pdu}

theorem deserialize_whole_iff (shaped : kind.header = .ofFamily kind.family) :
    kind.deserialize (.ofOctets data) = (.ok pdu, ⟨data, data.length⟩) ↔
      pduHeaderSize ≤ data.length ∧ (Header.spelled data).length = data.length ∧
        (Header.spelled data).key = kind.key ∧
        Frame.readBody kind (Header.spelled data) (data.drop pduHeaderSize) = .ok pdu := by
  constructor
  · intro read
    rcases framed_of_deserialize shaped read with ⟨size, least, -, key, declared, body, stop⟩
    have whole : data.length = 0 + size := congrArg Cursor.position stop
    rw [Nat.zero_add] at whole
    subst whole
    rw [Cursor.ahead_ofOctets, List.take_length] at body
    exact ⟨least, declared, key, body⟩
  · rintro ⟨enough, whole, key, read⟩
    have room : pduHeaderSize ≤ (Cursor.ofOctets data).remaining := enough
    have resumes := resumes_deserialize shaped room
    rw [Cursor.ahead_ofOctets] at resumes
    rw [resumes.framed data.length key whole enough (Nat.le_refl _), Cursor.ahead_ofOctets,
      List.take_length, read]
    simp [Cursor.advance, Cursor.ofOctets]

end PduKind

namespace Registry

/-- Is no registered kind a form of another? -/
def IsFlat (registry : Registry) : Prop :=
  ∀ kind ∈ registry.kinds, ∀ other ∈ registry.kinds, kind.isA other → kind = other

theorem isFlat_standard : IsFlat .standard := by
  have names : (PduKind.catalog.map PduKind.name).Nodup := by decide +kernel
  have apart : ∀ kind ∈ PduKind.catalog, ∀ other ∈ PduKind.catalog,
      kind.isA other → kind.name = other.name := by decide +kernel
  intro kind listed other present same
  exact List.inj_on_of_nodup_map names listed present (apart kind listed other present same)

end Registry

namespace Frame

variable {registry : Registry} {kind : PduKind} {data : Octets} {pdu : Pdu}

theorem mem_of_decode (decoded : (decode registry false data).value = .ok pdu) :
    pdu.kind ∈ registry.kinds := by
  rcases owner_of_decode decoded with ⟨header, -, ⟨owner, -⟩ | ⟨allowed, -⟩⟩
  · exact (Registry.lookup_eq_some owner).1
  · cases allowed

theorem decodeAs_eq_ok (flat : registry.IsFlat) (listed : kind ∈ registry.kinds) :
    (decodeAs registry kind data).value = .ok pdu ↔
      (decode registry false data).value = .ok pdu ∧ pdu.kind = kind := by
  unfold decodeAs Logged.map
  cases decoded : (decode registry false data).value with
  | error e => simp
  | ok found =>
      have present := mem_of_decode decoded
      dsimp only
      by_cases form : found.kind.isA kind
      · rw [if_pos form]
        constructor
        · intro same
          cases same
          exact ⟨rfl, flat _ present _ listed form⟩
        · exact And.left
      · rw [if_neg form]
        constructor
        · intro same
          cases same
        · rintro ⟨same, rfl⟩
          cases same
          exact absurd (by simp [PduKind.isA]) form

theorem header_take {size : Nat} (declared : (Header.spelled data).length = size)
    (least : pduHeaderSize ≤ size) (fits : size ≤ data.length) :
    Frame.header (data.take size) = .ok (Header.spelled data) := by
  have front : (data.take size).take pduHeaderSize = data.take pduHeaderSize := by
    rw [List.take_take, Nat.min_eq_left least]
  have peeked : Header.peek (data.take size) = .ok (Header.spelled data) := by
    rw [← Header.peek_take, front, Header.peek_take]
    exact Header.peek_eq_spelled data (Nat.le_trans least fits)
  apply header_eq_ok.mpr
  rw [List.length_take, Nat.min_eq_left fits]
  exact ⟨peeked, declared⟩

end Frame

/-- The three ways to decode a PDU of a registered kind accept the same octets, where no kind is
a form of another. From a stream with room for a header, reading ends behind the header if it is
of another kind, or declares less than a header or more than there is; in all other cases it ends
where the header says that the next PDU starts, and is what decoding the frame up to there is. -/
theorem stream_law (calls : List Registry.Call) (flat : (Registry.after calls).IsFlat) :
    (∀ kind ∈ (Registry.after calls).kinds, kind ≠ .unknown → ∀ allowUnknown data pdu,
      ((Frame.decodeAs (.after calls) kind data).value = .ok pdu ↔
        (Frame.decode (.after calls) allowUnknown data).value = .ok pdu ∧ pdu.kind = kind) ∧
      ((Frame.decodeAs (.after calls) kind data).value = .ok pdu ↔
        kind.deserialize (.ofOctets data) = (.ok pdu, ⟨data, data.length⟩))) ∧
    (∀ kind ∈ (Registry.after calls).kinds, ∀ cursor : Cursor, pduHeaderSize ≤ cursor.remaining →
      kind.Resumes cursor (Header.spelled cursor.ahead) (kind.deserialize cursor) ∧
      ∀ size : Nat, (Header.spelled cursor.ahead).key = kind.key →
        (Header.spelled cursor.ahead).length = size → pduHeaderSize ≤ size →
        size ≤ cursor.remaining →
        (∀ allowUnknown, (kind.deserialize cursor).1 =
          (Frame.decode (.after calls) allowUnknown (cursor.ahead.take size)).value) ∧
        (kind.deserialize cursor).2.ahead = cursor.ahead.drop size) := by
  have regular := Registry.isRegular_after calls
  constructor
  · intro kind listed other allowUnknown data pdu
    have shaped := regular.shaped kind listed
    rw [Frame.decodeAs_eq_ok flat listed, Frame.decode_owned_iff regular listed other,
      Frame.decode_owned_iff regular listed other, PduKind.deserialize_whole_iff shaped]
    exact ⟨Iff.rfl, Iff.rfl⟩
  · intro kind listed cursor enough
    have resumes := PduKind.resumes_deserialize (regular.shaped kind listed) enough
    refine ⟨resumes, fun size key declared least fits => ?_⟩
    have owner := regular.lookup_iff.mpr ⟨listed, key.symm⟩
    have whole := Frame.header_take declared least (cursor.length_ahead.symm ▸ fits)
    rw [resumes.framed size key declared least fits]
    refine ⟨fun allowUnknown => ?_, cursor.ahead_advance size⟩
    rw [Frame.decode_eq, whole]
    dsimp only
    rw [owner]

/-- Two octets in, a body that is an octet too long for its kind, with three octets behind it,
and a header of another kind; and a frame on its own. -/
theorem stream_law_samples :
    let frame : Octets := [7, 1, 11, 5, 0, 0, 0, 0, 0, 28, 0, 0, 0, 1, 0, 2, 0, 3, 0, 4, 0, 5, 0, 6,
      0, 0, 0, 7]
    (PduKind.createEntity.deserialize ⟨[0, 0, 7, 1, 11, 5, 0, 0, 0, 0, 0, 29, 0, 0, 0, 1, 0, 2, 0,
        3, 0, 4, 0, 5, 0, 6, 0, 0, 0, 7, 9, 1, 2, 3], 2⟩).2.ahead = [1, 2, 3] ∧
    (∃ e, PduKind.createEntity.deserialize ⟨[0, 0, 7, 1, 12, 5, 0, 0, 0, 0, 0, 28, 0, 0], 2⟩ =
      (.error e, ⟨[0, 0, 7, 1, 12, 5, 0, 0, 0, 0, 0, 28, 0, 0], 14⟩) ∧ e.category = .decode) ∧
    ∀ pdu, (Frame.decodeAs .standard .createEntity frame).value = .ok pdu ↔
      PduKind.createEntity.deserialize (.ofOctets frame) = (.ok pdu, ⟨frame, 28⟩) := by
  intro frame
  rcases stream_law [] Registry.isFlat_standard with ⟨agree, streams⟩
  have listed : PduKind.createEntity ∈ (Registry.after []).kinds :=
    List.mem_of_getElem? (i := 6) rfl
  refine ⟨?_, ?_, fun pdu => (agree _ listed ?_ true frame pdu).2⟩
  · exact ((streams _ listed ⟨_, 2⟩ (by decide)).2 29 (by decide) rfl (by decide) (by decide)).2
  · exact (streams _ listed ⟨_, 2⟩ (by decide)).1.other (by decide)
  · intro same
    exact absurd (congrArg PduKind.name same) (by decide)

end Dis

import Dis.Proofs.Refusal

/-! The size of a PDU and the gate in front of encoding. The size is held against the limit
before anything is stored or written, and what is written must be as long. A kind that sums up
its members never asks the header, the only part that an attempt changes; one with a size rule of
its own may. -/

namespace Dis

theorem Atom.isPresent_complete (atom : Atom) (given : Option atom.Value) (demand : Nat) :
    atom.isPresent (atom.complete given demand) := by
  cases atom <;> rfl

namespace Layout

/-- Have the records that a draft gives all their numbers of bits? The draft itself may leave
out its own. -/
def draftIsCounted : (layout : Layout) → layout.Draft → Bool
  | done, _ => true
  | tail _, _ => true
  | atom _ _ rest, (_, d) => rest.draftIsCounted d
  | padding _ rest, d => rest.draftIsCounted d
  | word _ _ rest, (_, d) => rest.draftIsCounted d
  | count _ _ _ rest, d => rest.draftIsCounted d
  | tag _ _ _ rest, d => rest.draftIsCounted d
  | sized _ _ _ rest, (_, d) => rest.draftIsCounted d
  | record _ _ inner rest, (x, d) => x.all inner.isCounted && rest.draftIsCounted d
  | records _ _ inner _ rest, (xs, d) =>
    xs.all (fun xs => xs.all inner.isCounted) && rest.draftIsCounted d
  | choice _ _ _ inner₀ _ inner₁ rest, (x, d) =>
    x.all (fun
      | .inl x => inner₀.isCounted x
      | .inr x => inner₁.isCounted x) && rest.draftIsCounted d

theorem draftIsCounted_blank (layout : Layout) : layout.draftIsCounted layout.blank := by
  induction layout <;> simp_all [draftIsCounted, blank]

theorem isCounted_complete (layout : Layout) (draft : layout.Draft)
    (given : layout.draftIsCounted draft) : layout.isCounted (layout.complete draft) := by
  induction layout with
  | done => rfl
  | tail name => rfl
  | atom name a rest ih =>
      have later := ih draft.2 given
      exact Bool.and_eq_true_iff.mpr ⟨a.isPresent_complete _ _, later⟩
  | padding count rest ih => exact ih draft given
  | word octets fields rest ih => exact ih draft.2 given
  | count name format limit rest ih => exact ih draft given
  | tag name e format rest ih => exact ih draft given
  | sized name s extent rest ih => exact ih draft.2 given
  | record name kind inner rest ihInner ih =>
      rcases draft with ⟨x, draft⟩
      rcases Bool.and_eq_true_iff.mp given with ⟨first, later⟩
      apply Bool.and_eq_true_iff.mpr
      cases x with
      | none => exact ⟨ihInner _ inner.draftIsCounted_blank, ih draft later⟩
      | some x => exact ⟨first, ih draft later⟩
  | records name kind inner counter rest ihInner ih =>
      rcases draft with ⟨xs, draft⟩
      rcases Bool.and_eq_true_iff.mp given with ⟨first, later⟩
      apply Bool.and_eq_true_iff.mpr
      cases xs with
      | none => exact ⟨rfl, ih draft later⟩
      | some xs => exact ⟨first, ih draft later⟩
  | choice name teller kind₀ inner₀ kind₁ inner₁ rest ih₀ ih₁ ih =>
      rcases draft with ⟨x, draft⟩
      rcases Bool.and_eq_true_iff.mp given with ⟨first, later⟩
      apply Bool.and_eq_true_iff.mpr
      cases x with
      | none => exact ⟨ih₀ _ inner₀.draftIsCounted_blank, ih draft later⟩
      | some x => exact ⟨first, ih draft later⟩

end Layout

namespace Pdu

variable {pdu : Pdu} {size limit : Int}

theorem exists_byteLength (counted : pdu.kind.sizeRule = none → pdu.kind.body.isCounted pdu.body) :
    ∃ size, pdu.byteLength = .ok size := by
  cases found : pdu.byteLength with
  | ok size => exact ⟨size, rfl⟩
  | error e =>
      rcases byteLength_eq_error.mp found with ⟨members, uncounted, -⟩
      rw [counted members] at uncounted
      cases uncounted

theorem withLength_withLength (stale : Int) :
    (pdu.withLength stale).withLength size = pdu.withLength size := rfl

theorem category_of_octetsOfSize {e : Error} (refused : pdu.octetsOfSize size = .error e) :
    e.category ≠ .sizeExceeded := by
  have cause : e.causeCategory ≠ .sizeExceeded := by
    unfold octetsOfSize at refused
    split at refused
    · cases refused
      simp only [Error.causeCategory]
      unfold Error.writeCategory
      split <;> simp
    · split at refused <;> cases refused
      simp [Error.causeCategory]
  unfold Error.category
  split
  · exact cause
  · simp

/-- An attempt under a limit, for a PDU of that size. -/
structure Gated (pdu : Pdu) (size limit : Int) (attempt : Logged Encoding) : Prop where
  raised : Numeral.isShown size → Numeral.isShown limit →
    ((∃ e, attempt.value.outcome = .error e ∧ e.category = .sizeExceeded) ↔ limit < size)
  refused : limit < size →
    attempt = ⟨⟨.error (.sizeExceeded size limit), pdu⟩, [.rejected pdu.kind.name size limit]⟩
  warned : ∀ event ∈ attempt.events, event.level = .warning
  stored : size ≤ limit → attempt.events = [] ∧ attempt.value.pdu = pdu.withLength size

theorem gated_encode (found : pdu.byteLength = .ok size) (limit : Int) :
    Gated pdu size limit (pdu.encode limit) := by
  by_cases above : limit < size
  · have attempt := encode_eq found limit
    rw [if_pos above] at attempt
    rw [attempt]
    constructor
    · intro size limit
      exact iff_of_true ⟨_, rfl, Error.category_sizeExceeded_iff.mpr ⟨size, limit⟩⟩ above
    · exact fun _ => rfl
    · intro event logged
      rw [List.mem_singleton.mp logged]
      rfl
    · exact fun fits => absurd above (Int.not_lt.mpr fits)
  · have attempt := encode_eq found limit
    rw [if_neg above] at attempt
    rw [attempt]
    constructor
    · intro _ _
      refine iff_of_false ?_ above
      rintro ⟨e, refused, named⟩
      exact category_of_octetsOfSize refused named
    · exact fun exceeds => absurd exceeds above
    · exact nofun
    · exact fun _ => ⟨rfl, rfl⟩

theorem encode_of_le (found : pdu.byteLength = .ok size) {more : Int} (fits : size ≤ limit)
    (raised : limit ≤ more) : pdu.encode more = pdu.encode limit := by
  have wider : ¬ more < size := Int.not_lt.mpr (Int.le_trans fits raised)
  rw [encode_eq found, encode_eq found, if_neg wider, if_neg (Int.not_lt.mpr fits)]

theorem encode_withLength (ignores : pdu.kind.IgnoresLength) (found : pdu.byteLength = .ok size)
    (stale limit : Int) :
    ((pdu.withLength stale).encode limit).value.outcome = (pdu.encode limit).value.outcome ∧
      ((pdu.withLength stale).encode limit).events = (pdu.encode limit).events := by
  have same := (byteLength_withLength ignores stale).trans found
  rw [encode_eq found, encode_eq same]
  split <;> exact ⟨rfl, rfl⟩

theorem encode_again (ignores : pdu.kind.IgnoresLength) (found : pdu.byteLength = .ok size)
    {data : Octets} (encoded : (pdu.encode limit).value.outcome = .ok data) :
    (pdu.encode limit).value.pdu.encode limit = ⟨⟨.ok data, (pdu.encode limit).value.pdu⟩, []⟩ := by
  by_cases above : limit < size
  · rw [encode_eq found, if_pos above] at encoded
    cases encoded
  · have same := (byteLength_withLength ignores size).trans found
    rw [encode_eq found, if_neg above] at encoded ⊢
    rw [encode_eq same, if_neg above]
    simp only at encoded
    rw [withLength_withLength, encoded]

/-- A size rule that is wrong about the body, or about a body that has no octets, lets no
octets out. -/
theorem refused_of_wrong_rule {rule : Header → pdu.kind.body.Value → Int}
    (ruled : pdu.kind.sizeRule = some rule)
    (wrong : ∀ octets, pdu.kind.body.write pdu.body = ⟨octets, none⟩ →
      rule pdu.header pdu.body ≠ octets.length) (limit : Int) :
    ∃ e, (pdu.encode limit).value.outcome = .error e := by
  cases outcome : (pdu.encode limit).value.outcome with
  | error e => exact ⟨e, rfl⟩
  | ok data =>
      obtain ⟨size, -, -, written⟩ := encode_eq_ok outcome
      obtain ⟨front, back, header, body, rfl⟩ := write_eq_complete.mp written
      obtain ⟨n, length, total⟩ := byteLength_eq_ok.mp size
      rw [bodyLength, PduKind.bodyLength, ruled] at length
      have twelve := (Header.places_write header).1.size
      rw [List.length_append, twelve] at total
      push_cast at total
      refine absurd ?_ (wrong back body)
      rw [Except.ok.inj length]
      omega

end Pdu

/-- Encoding under a limit: refused exactly above the size of the PDU, whatever else about it
has no wire form, and then with one warning and no effect. Otherwise the size in the header is
all that changes, and a higher limit changes nothing once the PDU has been encoded. What the
header held before makes no difference to a kind that does not ask for it, so encoding again
returns the same octets. -/
theorem size_gate (pdu : Pdu)
    (counted : pdu.kind.sizeRule = none → pdu.kind.body.isCounted pdu.body) :
    ∃ size, pdu.byteLength = .ok size ∧
      (∀ limit, pdu.Gated size limit (pdu.encode limit)) ∧
      (∀ limit data more, (pdu.encode limit).value.outcome = .ok data → limit ≤ more →
        pdu.encode more = pdu.encode limit) ∧
      (pdu.kind.IgnoresLength →
        (∀ stale limit,
          ((pdu.withLength stale).encode limit).value.outcome = (pdu.encode limit).value.outcome ∧
          ((pdu.withLength stale).encode limit).events = (pdu.encode limit).events) ∧
        ∀ limit data, (pdu.encode limit).value.outcome = .ok data →
          (pdu.encode limit).value.pdu.encode limit =
            ⟨⟨.ok data, (pdu.encode limit).value.pdu⟩, []⟩) ∧
      (pdu.kind ∈ PduKind.catalog ∨ pdu.kind = .unknown → ∀ limit, pdu.IsShown limit →
        ∀ e, (pdu.encode limit).value.outcome = .error e → e.isEncodeError) ∧
      (∀ header draft, pdu.kind.body.draftIsCounted draft →
        ∃ size, (Pdu.new pdu.kind header (pdu.kind.body.complete draft)).byteLength = .ok size) := by
  rcases Pdu.exists_byteLength counted with ⟨size, found⟩
  refine ⟨size, found, Pdu.gated_encode found, ?_, ?_, ?_, ?_⟩
  · intro limit data more encoded raised
    rcases Pdu.encode_eq_ok encoded with ⟨written, fits, -⟩
    exact Pdu.encode_of_le written fits raised
  · intro ignores
    constructor
    · exact Pdu.encode_withLength ignores found
    · intro limit data encoded
      exact Pdu.encode_again ignores found encoded
  · intro listed limit shown
    have members : pdu.kind.sizeRule = none := by
      rcases listed with listed | unknown
      · exact PduKind.sizeRule_of_mem _ listed
      · rw [unknown]
        rfl
    exact (Pdu.isEncodeError_iff_of_mem listed shown).mpr (counted members)
  · intro header draft given
    apply Pdu.exists_byteLength
    intro _
    exact pdu.kind.body.isCounted_complete draft given

/-- A PDU of an exercise out of range: one octet short of room for it, the limit is what stops
it, and with that octet its size is stored all the same. -/
theorem size_gate_samples :
    let pdu := Pdu.new .createEntity { Header.initial .standard with exerciseId := 300 }
      (EntityId.of 1 2 3, EntityId.of 4 5 6, (7 : Int), ())
    pdu.encode 27 = ⟨⟨.error (.sizeExceeded 28 27), pdu⟩, [.rejected "CreateEntityPdu" 28 27]⟩ ∧
      (pdu.encode 28).value.pdu = pdu.withLength 28 ∧
      ((pdu.withLength 9).encode 28).value.outcome = (pdu.encode 28).value.outcome := by
  intro pdu
  rcases size_gate pdu (fun _ => rfl) with ⟨size, found, gated, -, repeats, -⟩
  have same : size = 28 := by
    have known : pdu.byteLength = .ok 28 := rfl
    rw [known] at found
    cases found
    rfl
  subst same
  have ignores : pdu.kind.IgnoresLength := PduKind.ignoresLength_of_members rfl
  exact ⟨(gated 27).refused (by decide), ((gated 28).stored (by decide)).2,
    ((repeats ignores).1 9 28).1⟩

/-- A size rule that asks the header for its length, so that what it held before decides; a
fraction that has no eighths, which ends an attempt in neither octets nor an error of encoding;
and a limit of more digits than are ever shown. -/
theorem ungated :
    (∃ e, (Pdu.encode ⟨{ PduKind.unknown with sizeRule := some fun header _ => header.length },
        { Header.initial .standard with length := 2 }, ([9, 8, 7] : Octets)⟩ 99).value.outcome =
          .error e) ∧
    (Pdu.encode ⟨{ PduKind.unknown with sizeRule := some fun header _ => header.length },
        { Header.initial .standard with length := 3 }, ([9, 8, 7] : Octets)⟩ 99).value.outcome =
      .ok [7, 1, 0, 0, 0, 0, 0, 0, 0, 15, 0, 0, 9, 8, 7] ∧
    (∃ e, (Pdu.encode ⟨{ PduKind.unknown with
          body := .sub "position_error" RecordKind.positionError .done, sizeRule := none },
        .initial .standard, ((Binary64.nan, Binary64.zero, ()), ())⟩ 99).value.outcome = .error e ∧
      e.category = .value ∧ e.isEncodeError = false) ∧
    ∃ e, (Pdu.encode ⟨.unknown, .initial .standard, ([9, 8, 7] : Octets)⟩
        (-10 ^ Numeral.mostDigits)).value.outcome = .error e ∧ e.category = .value := by
  refine ⟨⟨.sizeMismatch "UnknownPdu" 14 15, ?_⟩, ?_,
    ⟨.write ⟨["position_error", "horizontal"], .fixedPoint .nan .nan⟩, ?_⟩,
    ⟨.sizeExceeded 15 (-10 ^ Numeral.mostDigits), ?_⟩⟩
  · decide +kernel
  · decide +kernel
  · decide +kernel
  · decide +kernel

/-- The size that is found without writing is the number of octets written, and a PDU that
was encoded declares it in its header. A size rule that is wrong lets nothing out. -/
theorem length_law :
    (∀ kind ∈ RecordKind.withHeaders, ∀ (value : kind.Value) (data : Octets),
      kind.encode value = .ok data → kind.byteLength value = .ok data.length) ∧
    (∀ (pdu : Pdu) (data : Octets), pdu.kind.sizeRule = none → pdu.write = ⟨data, none⟩ →
      pdu.byteLength = .ok data.length) ∧
    (∀ (pdu : Pdu) (limit : Int) (data : Octets),
      (pdu.encode limit).value.outcome = .ok data →
        (pdu.encode limit).value.pdu.header.length = data.length ∧
        Octets.toNat ((data.drop headerLengthOffset).take 2) = data.length ∧
        pdu.byteLength = .ok data.length ∧
        pdu.bodyLength = .ok (data.length - pduHeaderSize) ∧
        data.length ≤ limit ∧
        (pdu.kind.IgnoresLength →
          (pdu.encode limit).value.pdu.bodyLength = .ok (data.length - pduHeaderSize))) ∧
    (∀ (pdu : Pdu) (rule : Header → pdu.kind.body.Value → Int) (limit : Int),
      pdu.kind.sizeRule = some rule →
      (∀ octets, pdu.kind.body.write pdu.body = ⟨octets, none⟩ →
        rule pdu.header pdu.body ≠ octets.length) →
      ∃ e, (pdu.encode limit).value.outcome = .error e ∧
        (pdu.IsPlain limit → e.isEncodeError)) := by
  refine ⟨?_, ?_, ?_, ?_⟩
  · intro kind listed value data encoded
    exact RecordKind.byteLength_of_encode listed encoded
  · intro pdu data members written
    exact Pdu.byteLength_of_write members written
  · intro pdu limit data encoded
    obtain ⟨size, fits, stored, written⟩ := Pdu.encode_eq_ok encoded
    obtain ⟨front, back, header, -, rfl⟩ := Pdu.write_eq_complete.mp written
    have body : pdu.bodyLength = .ok ((front ++ back).length - pduHeaderSize) := by
      obtain ⟨n, body, total⟩ := Pdu.byteLength_eq_ok.mp size
      rw [body, total]
      congr 1
      omega
    refine ⟨by rw [stored]; rfl, ?_, size, body, fits, fun ignores => ?_⟩
    · exact Int.ofNat_inj.mp (Header.length_write header back)
    · rw [stored, Pdu.bodyLength_withLength ignores, body]
  · intro pdu rule limit ruled wrong
    obtain ⟨e, refused⟩ := Pdu.refused_of_wrong_rule ruled wrong limit
    exact ⟨e, refused, fun plain => Pdu.isEncodeError_iff.mpr plain e refused⟩

/-- An identifier, a PDU as it stands and as it is encoded, and one whose size rule counts an
octet too many. -/
theorem length_law_samples :
    RecordKind.entityId.byteLength (EntityId.of 1 2 3) = .ok 6 ∧
    Pdu.byteLength (.new .createEntity (.initial .standard)
      (EntityId.of 1 2 3, EntityId.of 4 5 6, (7 : Int), ())) = .ok 28 ∧
    (Pdu.encode (.new .createEntity (.initial .standard)
      (EntityId.of 1 2 3, EntityId.of 4 5 6, (7 : Int), ())) maxPduSize).value.pdu.bodyLength =
        .ok 16 ∧
    ∃ e, (Pdu.encode ⟨{ PduKind.unknown with
          sizeRule := some fun _ (os : Octets) => os.length + 1 },
        .initial .standard, ([9, 8, 7] : Octets)⟩ 15).value.outcome = .error e ∧
      e.isEncodeError := by
  obtain ⟨records, pdus, encodings, wrong⟩ := length_law
  have encoded : (Pdu.encode (.new .createEntity (.initial .standard)
      (EntityId.of 1 2 3, EntityId.of 4 5 6, (7 : Int), ())) maxPduSize).value.outcome =
      .ok [7, 1, 11, 5, 0, 0, 0, 0, 0, 28, 0, 0, 0, 1, 0, 2, 0, 3, 0, 4, 0, 5, 0, 6, 0, 0, 0, 7] := by
    decide +kernel
  refine ⟨?_, ?_, (encodings _ maxPduSize _ encoded).2.2.2.2.2 ?_, ?_⟩
  · exact records RecordKind.entityId (by decide +kernel) _ [0, 1, 0, 2, 0, 3] (by decide +kernel)
  · exact pdus _
      [7, 1, 11, 5, 0, 0, 0, 0, 0, 0, 0, 0, 0, 1, 0, 2, 0, 3, 0, 4, 0, 5, 0, 6, 0, 0, 0, 7]
      rfl (by decide +kernel)
  · exact PduKind.ignoresLength_of_members rfl
  · obtain ⟨e, refused, plain⟩ := wrong ⟨{ PduKind.unknown with
        sizeRule := some fun _ (os : Octets) => os.length + 1 }, .initial .standard,
      ([9, 8, 7] : Octets)⟩ _ 15 rfl (by rintro octets ⟨⟩; decide)
    refine ⟨e, refused, plain ⟨nofun, fun size found => ⟨fun _ => ?_, fun fits => ?_⟩⟩⟩
    · cases found
      decide +kernel
    · cases found
      exact absurd fits (by decide)

/-- A size rule that counts an octet too many stops nobody who only writes; one that is wrong
about a fraction without eighths does not get to be wrong; and one that asks the header for its
length may answer another number once the size is stored there. -/
theorem misleading_size_rule :
    (Pdu.write ⟨{ PduKind.unknown with sizeRule := some fun _ (os : Octets) => os.length + 1 },
        .initial .standard, ([9, 8] : Octets)⟩).octets.length = 14 ∧
    (Pdu.write ⟨{ PduKind.unknown with sizeRule := some fun _ (os : Octets) => os.length + 1 },
        .initial .standard, ([9, 8] : Octets)⟩).fault = none ∧
    (Pdu.byteLength ⟨{ PduKind.unknown with sizeRule := some fun _ (os : Octets) => os.length + 1 },
        .initial .standard, ([9, 8] : Octets)⟩) = .ok 15 ∧
    (∃ e, (Pdu.encode ⟨{ PduKind.unknown with
          body := .sub "position_error" RecordKind.positionError .done,
          sizeRule := some fun _ _ => 3 },
        .initial .standard, ((Binary64.nan, Binary64.zero, ()), ())⟩ 99).value.outcome = .error e ∧
      e.category = .value ∧ e.isEncodeError = false) ∧
    (Pdu.encode ⟨{ PduKind.unknown with
          sizeRule := some fun header _ => if header.length = 0 then 3 else 99 },
        .initial .standard, ([9, 8, 7] : Octets)⟩ 99).value.outcome =
      .ok [7, 1, 0, 0, 0, 0, 0, 0, 0, 15, 0, 0, 9, 8, 7] ∧
    (Pdu.encode ⟨{ PduKind.unknown with
          sizeRule := some fun header _ => if header.length = 0 then 3 else 99 },
        .initial .standard, ([9, 8, 7] : Octets)⟩ 99).value.pdu.bodyLength = .ok 99 := by
  refine ⟨rfl, rfl, rfl,
    ⟨.write ⟨["position_error", "horizontal"], .fixedPoint .nan .nan⟩, ?_⟩, ?_, ?_⟩
  · decide +kernel
  · decide +kernel
  · decide +kernel

end Dis

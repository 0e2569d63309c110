import Dis.Proofs.Registry

/-! When a frame decodes. It is a header whose shape its own family settles and whose
length is that of the frame, and a body that the kind of that header reads to the end. -/

namespace Dis

theorem HeaderShape.ofFamily_decode (family : Int) :
    ofFamily (Enumeration.protocolFamily.decode family).number = ofFamily family := by
  rw [Enumeration.number_decode]
  split
  · rfl
  · next unknown =>
    have other : family ≠ liveEntityFamily := by
      rintro rfl
      exact unknown (by decide)
    rw [ofFamily, ofFamily, if_neg other]
    rfl

theorem RecordKind.decode_eq_ok {kind : RecordKind} {value : kind.Value} {data : Octets} :
    kind.decode data = .ok value ↔
      kind.lengthBound = false ∧ kind.layout.read data = .ok value [] := by
  unfold decode
  cases kind.lengthBound with
  | true => simp
  | false =>
      cases kind.layout.read data with
      | error fault left => simp
      | ok found rest => cases rest <;> simp

namespace Header

variable {header : Header} {data : Octets}

theorem decode_eq_ok {shape : HeaderShape} :
    decode shape data = .ok header ↔ Header.read shape data = .ok header [] := by
  have free : shape.kind.lengthBound = false := by cases shape <;> rfl
  rw [Header.read, Reader.map_eq_ok, decode]
  constructor
  · intro decoded
    cases found : shape.kind.decode data with
    | error e =>
        rw [found] at decoded
        cases decoded
    | ok value =>
        rw [found] at decoded
        injection decoded with same
        exact ⟨value, (RecordKind.decode_eq_ok.mp found).2, same⟩
  · rintro ⟨value, read, rfl⟩
    rw [RecordKind.decode_eq_ok.mpr ⟨free, read⟩]
    rfl

/-- The raw family octet and the family that is read settle the same shape. -/
theorem peek_eq_ok :
    peek data = .ok header ↔ ∃ front back, data = front ++ back ∧
      Header.read header.shape front = .ok header [] ∧
      header.shape = .ofFamily header.protocolFamily.number := by
  unfold peek
  constructor
  · intro peeked
    split at peeked
    · cases peeked
    · have read := decode_eq_ok.mp peeked
      obtain ⟨octets, family, length, split, places, shape, named, -⟩ := places_read read
      rw [List.append_nil] at split
      have raw := places.family_eq (data.drop pduHeaderSize)
      rw [← split, List.take_append_drop] at raw
      refine ⟨_, _, (List.take_append_drop pduHeaderSize data).symm, shape ▸ read, ?_⟩
      rw [shape, raw, named, HeaderShape.ofFamily_decode]
  · rintro ⟨front, back, rfl, read, regular⟩
    obtain ⟨octets, family, length, split, places, -, named, -⟩ := places_read read
    rw [List.append_nil] at split
    subst split
    have enough : ¬ (front ++ back).length < pduHeaderSize := by
      rw [List.length_append, places.size]
      omega
    have same : HeaderShape.ofFamily (IntFormat.u8.ofOctets family) = header.shape := by
      rw [regular, named, HeaderShape.ofFamily_decode]
    rw [if_neg enough]
    simp only [places.family_eq back, same, ← places.size, List.take_left]
    exact decode_eq_ok.mpr read

end Header

namespace Frame

variable {registry : Registry} {allowUnknown : Bool} {data : Octets} {header : Header} {pdu : Pdu}

theorem header_eq_ok :
    Frame.header data = .ok header ↔
      Header.peek data = .ok header ∧ header.length = data.length := by
  unfold Frame.header
  cases peeked : Header.peek data with
  | error e => simp [bind, Except.bind]
  | ok found =>
      obtain ⟨front, back, rfl, read, -⟩ := Header.peek_eq_ok.mp peeked
      have twelve := Header.length_of_read read
      simp only [bind, Except.bind, pure, Except.pure, Except.ok.injEq]
      by_cases whole : found.length = (front ++ back).length
      · have least : ¬ found.length < pduHeaderSize := by
          rw [whole, List.length_append]
          omega
        simp only [checkLength, if_neg least, if_pos whole, Except.ok.injEq]
        exact ⟨fun same => ⟨same, same ▸ whole⟩, And.left⟩
      · have other : ¬ (found = header ∧ header.length = (front ++ back).length) := by
          rintro ⟨rfl, same⟩
          exact whole same
        unfold checkLength
        split
        · exact iff_of_false (fun ended => nomatch ended) other
        · simp only [if_neg whole]
          exact iff_of_false (fun ended => nomatch ended) other

theorem readBody_eq_ok {kind : PduKind} {body : Octets} :
    readBody kind header body = .ok pdu ↔
      ∃ value, kind.body.read body = .ok value [] ∧ pdu = .new kind header value := by
  unfold readBody
  cases kind.body.read body with
  | error fault left => simp
  | ok value rest => cases rest <;> simp [eq_comm]

theorem readBody_eq_error {kind : PduKind} {body : Octets} {e : Error} :
    readBody kind header body = .error e ↔
      (∃ fault left, kind.body.read body = .error fault left ∧ e = .read fault) ∨
      ∃ value rest, kind.body.read body = .ok value rest ∧ rest ≠ [] ∧
        e = .bodyUnread kind.name header.length rest.length body.length := by
  unfold readBody
  cases kind.body.read body with
  | error fault left => simp [eq_comm]
  | ok value rest => cases rest <;> simp [eq_comm]

theorem header_of_decode (decoded : (decode registry allowUnknown data).value = .ok pdu) :
    ∃ header, Frame.header data = .ok header := by
  unfold decode at decoded
  split at decoded
  · cases decoded
  · next header found => exact ⟨header, found⟩

theorem decode_of_lookup {kind : PduKind} (found : Frame.header data = .ok header)
    (owner : registry.lookup ⟨header.pduType.number, header.protocolFamily.number⟩ = some kind) :
    (decode registry allowUnknown data).value = readBody kind header (data.drop pduHeaderSize) := by
  simp only [decode, found, owner]
  rfl

theorem decode_of_header (found : Frame.header data = .ok header) :
    (decode registry true data).value =
      readBody (registry.reader header) header (data.drop pduHeaderSize) := by
  unfold Registry.reader
  cases owner : registry.lookup ⟨header.pduType.number, header.protocolFamily.number⟩ with
  | none => simp only [decode, found, owner, if_true, Option.getD_none]
  | some kind => exact decode_of_lookup found owner

theorem decode_append {front back : Octets} {kind : PduKind} {value : kind.body.Value}
    (read : Header.read header.shape front = .ok header [])
    (regular : header.shape = .ofFamily header.protocolFamily.number)
    (whole : header.length = (front ++ back).length) (called : registry.reader header = kind)
    (body : kind.body.read back = .ok value []) :
    (decode registry true (front ++ back)).value = .ok ⟨kind, header, value⟩ := by
  have found := header_eq_ok.mpr ⟨Header.peek_eq_ok.mpr ⟨front, back, rfl, read, regular⟩, whole⟩
  rw [decode_of_header found, called, ← Header.length_of_read read, List.drop_left]
  refine readBody_eq_ok.mpr ⟨value, body, ?_⟩
  rw [Registry.new_reader (Header.norm_of_read read) called]

theorem parts_of_decode (decoded : (decode registry true data).value = .ok pdu) :
    ∃ header front back kind value, data = front ++ back ∧
      Header.read header.shape front = .ok header [] ∧
      header.shape = .ofFamily header.protocolFamily.number ∧ header.length = data.length ∧
      registry.reader header = kind ∧ kind.body.read back = .ok value [] ∧
      pdu = ⟨kind, header, value⟩ := by
  obtain ⟨header, found⟩ := header_of_decode decoded
  rw [decode_of_header found] at decoded
  obtain ⟨peeked, whole⟩ := header_eq_ok.mp found
  obtain ⟨front, back, rfl, read, regular⟩ := Header.peek_eq_ok.mp peeked
  rw [← Header.length_of_read read, List.drop_left] at decoded
  obtain ⟨value, body, rfl⟩ := readBody_eq_ok.mp decoded
  refine ⟨header, front, back, _, value, rfl, read, regular, whole, rfl, body, ?_⟩
  rw [Registry.new_reader (Header.norm_of_read read) rfl]

end Frame
end Dis

/-! Peeking at a header. Twelve octets are enough for one and there is none that they do not
spell, so the header of a frame is found place by place. -/

namespace Dis.Header

/-- The key by which the header finds its kind. -/
def key (header : Header) : PduKey := ⟨header.pduType.number, header.protocolFamily.number⟩

def octet (data : Octets) (place : Nat) : Nat := (data.getD place 0).toNat

/-- The header that the first twelve octets spell, each member at its place. -/
def spelled (data : Octets) : Header where
  protocolVersion := Enumeration.protocolVersion.decode (octet data 0)
  exerciseId := octet data 1
  pduType := Enumeration.pduType.decode (octet data 2)
  protocolFamily := Enumeration.protocolFamily.decode (octet data headerFamilyOffset)
  timestamp := Octets.toNat ((data.drop 4).take 4)
  length := Octets.toNat ((data.drop headerLengthOffset).take 2)
  trailer :=
    match HeaderShape.ofFamily (octet data headerFamilyOffset) with
    | .standard => .status (BitFields.unpack FlagWord.pduStatus.fields (octet data 10), ())
    | .liveEntity => .subprotocol (Enumeration.liveEntitySubprotocol.decode (octet data 10))

theorem exists_twelve (data : Octets) (enough : pduHeaderSize ≤ data.length) :
    ∃ a b c d e f g h i j k l rest,
      data = a :: b :: c :: d :: e :: f :: g :: h :: i :: j :: k :: l :: rest := by
  match data, enough with
  | a :: b :: c :: d :: e :: f :: g :: h :: i :: j :: k :: l :: rest, _ =>
    exact ⟨a, b, c, d, e, f, g, h, i, j, k, l, rest, rfl⟩

-- Both shapes read the same places, whatever the octets are.
theorem read_twelve (shape : HeaderShape) (a b c d e f g h i j k l : UInt8) :
    Header.read shape [a, b, c, d, e, f, g, h, i, j, k, l] = .ok
      { protocolVersion := Enumeration.protocolVersion.decode (IntFormat.u8.ofOctets [a])
        exerciseId := IntFormat.u8.ofOctets [b]
        pduType := Enumeration.pduType.decode (IntFormat.u8.ofOctets [c])
        protocolFamily := Enumeration.protocolFamily.decode (IntFormat.u8.ofOctets [d])
        timestamp := IntFormat.u32.ofOctets [e, f, g, h]
        length := IntFormat.u16.ofOctets [i, j]
        trailer := match shape with
          | .standard => .status (BitFields.unpack FlagWord.pduStatus.fields (Octets.toNat [k]), ())
          | .liveEntity =>
            .subprotocol (Enumeration.liveEntitySubprotocol.decode (IntFormat.u8.ofOctets [k])) }
      [] := by
  cases shape <;> rfl

theorem toNat_singleton (octet : UInt8) : Octets.toNat [octet] = octet.toNat := by
  simp [Octets.toNat]

theorem ofOctets_singleton (octet : UInt8) : IntFormat.u8.ofOctets [octet] = octet.toNat := by
  rw [IntFormat.ofOctets_eq_toNat _ rfl [octet] rfl, toNat_singleton]

theorem peek_eq_spelled (data : Octets) (enough : pduHeaderSize ≤ data.length) :
    peek data = .ok (spelled data) := by
  obtain ⟨a, b, c, d, e, f, g, h, i, j, k, l, rest, rfl⟩ := exists_twelve data enough
  rw [peek, if_neg (by omega), decode_eq_ok]
  refine (read_twelve _ a b c d e f g h i j k l).trans ?_
  simp only [ofOctets_singleton, toNat_singleton, IntFormat.ofOctets_eq_toNat .u32 rfl [e, f, g, h] rfl,
    IntFormat.ofOctets_eq_toNat .u16 rfl [i, j] rfl]
  rfl

theorem spelled_of_peek {data : Octets} {header : Header} (peeked : peek data = .ok header) :
    pduHeaderSize ≤ data.length ∧ header = spelled data := by
  by_cases short : data.length < pduHeaderSize
  · rw [peek, if_pos short] at peeked
    cases peeked
  · have enough : pduHeaderSize ≤ data.length := Nat.le_of_not_lt short
    rw [peek_eq_spelled data enough] at peeked
    exact ⟨enough, (Except.ok.inj peeked).symm⟩

theorem peek_take (data : Octets) : peek (data.take pduHeaderSize) = peek data := by
  by_cases enough : pduHeaderSize ≤ data.length
  · have same : spelled (data.take pduHeaderSize) = spelled data := by
      obtain ⟨a, b, c, d, e, f, g, h, i, j, k, l, rest, rfl⟩ := exists_twelve data enough
      rfl
    have twelve : pduHeaderSize ≤ (data.take pduHeaderSize).length := by
      rw [List.length_take]
      omega
    rw [peek_eq_spelled _ twelve, peek_eq_spelled _ enough, same]
  · rw [List.take_of_length_le (by omega)]

end Dis.Header

import Dis.Proofs.Acceptance
import Dis.Proofs.RoundTrip
import Mathlib.Tactic.IntervalCases

/-! Relays. What a registry has no kind for is kept as octets and sent on, and whoever knows the
kind then reads the same from what was sent as from what came in. The header that is sent has
numbers that are catalogued and no reserved bits, so it spells the header that was read. -/

namespace Dis.Header

/-- The octet of the member that an octet decodes to. -/
def relabel (e : Enumeration) (octet : UInt8) : UInt8 :=
  if e.Knows octet.toNat then octet else UInt8.ofNat e.fallback.2

/-- What is sent for the octet in front of the padding: a status without its reserved bits,
or a subprotocol. -/
def resend : HeaderShape → UInt8 → UInt8
  | .standard, octet => UInt8.ofNat (octet.toNat % 64)
  | .liveEntity, octet => relabel .liveEntitySubprotocol octet

theorem settle_code (e : Enumeration) (octet : UInt8) :
    Span.settle (.code e .u8) [octet] = [relabel e octet] := by
  have one (n : Nat) : IntFormat.u8.octets n = [UInt8.ofNat n] := by
    have small : ((n : Int) % (256 : Nat)).toNat = n % 2 ^ 8 := by omega
    change Octets.ofNat 1 ((n : Int) % (256 : Nat)).toNat = _
    rw [small, ← UInt8.ofNat_mod_size]
    rfl
  rw [Span.settle, ofOctets_singleton, relabel, one]
  split <;> rfl

theorem settle_status (octet : UInt8) :
    Span.settle (.word 1 FlagWord.pduStatus.fields) [octet] = [UInt8.ofNat (octet.toNat % 64)] := by
  have low : ∀ n : Fin 256, BitFields.settle FlagWord.pduStatus.fields n = n % 64 := by
    decide +kernel
  have same : BitFields.settle FlagWord.pduStatus.fields octet.toNat = octet.toNat % 64 :=
    low ⟨octet.toNat, octet.toNat_lt⟩
  rw [Span.settle, toNat_singleton, same]
  rfl

theorem shape_spelled (data : Octets) :
    (spelled data).shape = .ofFamily (octet data headerFamilyOffset) := by
  unfold spelled shape
  cases HeaderShape.ofFamily (octet data headerFamilyOffset) <;> rfl

def trailerSpan : HeaderShape → Span
  | .standard => .word 1 FlagWord.pduStatus.fields
  | .liveEntity => .code .liveEntitySubprotocol .u8

theorem settle_trailer (shape : HeaderShape) (octet padding : UInt8) :
    Span.mapAlong Span.settle [trailerSpan shape, .padding 1] [octet, padding] =
      [resend shape octet, 0] := by
  cases shape with
  | standard => exact congrArg (· ++ [0]) (settle_status octet)
  | liveEntity => exact congrArg (· ++ [0]) (settle_code .liveEntitySubprotocol octet)

theorem spans_eq (header : Header) : header.spans =
    [.code .protocolVersion .u8, .plain 1, .code .pduType .u8, .code .protocolFamily .u8, .plain 4,
      .plain 2, trailerSpan header.shape, .padding 1] := by
  obtain ⟨_, _, _, _, _, _, trailer⟩ := header
  cases trailer <;> rfl

theorem write_spelled (a b c d e f g h i j k l : UInt8) (rest : Octets) :
    (spelled (a :: b :: c :: d :: e :: f :: g :: h :: i :: j :: k :: l :: rest)).write =
      ⟨[relabel .protocolVersion a, b, relabel .pduType c, relabel .protocolFamily d,
        e, f, g, h, i, j, resend (.ofFamily d.toNat) k, 0], none⟩ := by
  have peeked := peek_eq_spelled (a :: b :: c :: d :: e :: f :: g :: h :: i :: j :: k :: l :: rest)
    (Nat.le_add_left 12 rest.length)
  obtain ⟨front, back, split, read, -⟩ := peek_eq_ok.mp peeked
  have twelve := length_of_read read
  obtain ⟨octets, same, recovers⟩ := Header.recovers read
  rw [List.append_nil] at same
  obtain ⟨rfl, -⟩ := List.append_inj
    (show [a, b, c, d, e, f, g, h, i, j, k, l] ++ rest = front ++ back from split) twelve.symm
  rw [recovers.written, ← same, spans_eq, shape_spelled]
  change Written.mk (Span.settle (.code .protocolVersion .u8) [a] ++ ([b] ++
    (Span.settle (.code .pduType .u8) [c] ++ (Span.settle (.code .protocolFamily .u8) [d] ++
      ([e, f, g, h] ++ ([i, j] ++
        Span.mapAlong Span.settle [trailerSpan (.ofFamily d.toNat), .padding 1] [k, l])))))) none = _
  rw [settle_code, settle_code, settle_code, settle_trailer]
  rfl

end Dis.Header

namespace Dis.Frame

open Header (octet)

/-- A frame and what is sent on for it. Octets of the header that are not the same stand for
numbers that no catalogue knows, are a status whose reserved bits were set, or are padding. -/
structure Relayed (data sent : Octets) : Prop where
  size : sent.length = data.length
  body : sent.drop pduHeaderSize = data.drop pduHeaderSize
  version : Enumeration.protocolVersion.Knows (octet data 0) → octet sent 0 = octet data 0
  pduType : Enumeration.pduType.Knows (octet data 2) → octet sent 2 = octet data 2
  family : Enumeration.protocolFamily.Knows (octet data headerFamilyOffset) →
    octet sent headerFamilyOffset = octet data headerFamilyOffset
  plain (place : Nat) : place = 1 ∨ 4 ≤ place ∧ place < 10 → octet sent place = octet data place
  status : HeaderShape.ofFamily (octet data headerFamilyOffset) = .standard →
    octet sent 10 = octet data 10 % 64
  subprotocol : HeaderShape.ofFamily (octet data headerFamilyOffset) = .liveEntity →
    Enumeration.liveEntitySubprotocol.Knows (octet data 10) → octet sent 10 = octet data 10

theorem relayed_of_spelled (a b c d e f g h i j k l : UInt8) (rest : Octets) :
    Relayed (a :: b :: c :: d :: e :: f :: g :: h :: i :: j :: k :: l :: rest)
      ([Header.relabel .protocolVersion a, b, Header.relabel .pduType c,
        Header.relabel .protocolFamily d, e, f, g, h, i, j,
        Header.resend (.ofFamily d.toNat) k, 0] ++ rest) where
  size := rfl
  body := rfl
  version knows := congrArg UInt8.toNat (if_pos knows)
  pduType knows := congrArg UInt8.toNat (if_pos knows)
  family knows := congrArg UInt8.toNat (if_pos knows)
  plain place between := by
    rcases between with rfl | ⟨least, most⟩
    · rfl
    · interval_cases place <;> rfl
  status shape := by
    have small : k.toNat % 64 < 2 ^ 8 := by omega
    change HeaderShape.ofFamily d.toNat = .standard at shape
    change (Header.resend (.ofFamily d.toNat) k).toNat = k.toNat % 64
    rw [shape, Header.resend, UInt8.toNat_ofNat_of_lt' small]
  subprotocol shape knows := by
    change HeaderShape.ofFamily d.toNat = .liveEntity at shape
    change (Header.resend (.ofFamily d.toNat) k).toNat = k.toNat
    rw [shape]
    exact congrArg UInt8.toNat (if_pos knows)

theorem decode_congr (registry : Registry) (allowUnknown : Bool) {data other : Octets}
    (size : other.length = data.length) (peeked : Header.peek other = Header.peek data)
    (body : other.drop pduHeaderSize = data.drop pduHeaderSize) :
    (decode registry allowUnknown other).value = (decode registry allowUnknown data).value := by
  have same : Frame.header other = Frame.header data := by
    rw [Frame.header, Frame.header, peeked, size]
  rw [decode_eq, decode_eq, same, body]

theorem encode_unknown {data : Octets} {header : Header} (small : data.length ≤ maxPduSize)
    (peeked : Header.peek data = .ok header) (whole : header.length = data.length) :
    ∃ sent, (Pdu.encode ⟨.unknown, header, data.drop pduHeaderSize⟩ maxPduSize).value.outcome =
        .ok sent ∧ Relayed data sent ∧ Header.peek sent = .ok header := by
  obtain ⟨enough, rfl⟩ := Header.spelled_of_peek peeked
  obtain ⟨a, b, c, d, e, f, g, h, i, j, k, l, rest, rfl⟩ := Header.exists_twelve data enough
  have written := Header.write_spelled a b c d e f g h i j k l rest
  have relayed := relayed_of_spelled a b c d e f g h i j k l rest
  obtain ⟨front, back, -, read, regular⟩ := Header.peek_eq_ok.mp peeked
  refine ⟨_, Pdu.encode_of_write rfl ?_ ?_ ?_, relayed, ?_⟩
  · exact Written.append_eq_complete.mpr ⟨_, _, written, rfl, rfl⟩
  · rw [relayed.size]
    exact whole
  · rw [relayed.size]
    exact_mod_cast small
  · refine Header.peek_eq_ok.mpr ⟨_, _, rfl, ?_, regular⟩
    rw [Header.read_of_write written, Header.norm_of_read read]

/-- A relay that has no kind for a frame is transparent: it keeps the frame as octets and sends
it on, and any registry makes of what was sent what it makes of the frame itself. -/
theorem relay_transparent (first second : Registry) (data : Octets) (header : Header)
    (small : data.length ≤ maxPduSize) (peeked : Header.peek data = .ok header)
    (whole : header.length = data.length) (free : first.lookup header.key = none) :
    (decode first true data).value = .ok ⟨.unknown, header, data.drop pduHeaderSize⟩ ∧
      ∃ sent, (Pdu.encode ⟨.unknown, header, data.drop pduHeaderSize⟩ maxPduSize).value.outcome =
          .ok sent ∧ Relayed data sent ∧
        ∀ allowUnknown, (decode second allowUnknown sent).value =
          (decode second allowUnknown data).value := by
  constructor
  · rw [decode_eq, header_eq_ok.mpr ⟨peeked, whole⟩]
    simp only [free, if_true]
  · obtain ⟨sent, encoded, relayed, again⟩ := encode_unknown small peeked whole
    refine ⟨sent, encoded, relayed, ?_⟩
    intro allowUnknown
    apply decode_congr second allowUnknown relayed.size
    · rw [again, peeked]
    · exact relayed.body

/-- A request to create an entity, with an unknown version, every reserved bit set and octets in
its padding, goes through a relay that has no kind for it. -/
theorem relay_transparent_samples :
    (Registry.standard.unregister .createEntity).lookup ⟨11, 5⟩ = none ∧
      ∃ sent, (Pdu.encode ⟨.unknown, Header.spelled [200, 1, 11, 5, 0, 0, 0, 0, 0, 28, 255, 9],
          ([0, 1, 0, 2, 0, 3, 0, 4, 0, 5, 0, 6, 0, 0, 0, 7] : Octets)⟩ maxPduSize).value.outcome =
            .ok sent ∧ sent.length = 28 ∧
        (decode .standard false sent).value = .ok ⟨.createEntity,
          Header.spelled [200, 1, 11, 5, 0, 0, 0, 0, 0, 28, 255, 9],
          (EntityId.of 1 2 3, EntityId.of 4 5 6, (7 : Int), ())⟩ := by
  have decoded : (decode .standard false [200, 1, 11, 5, 0, 0, 0, 0, 0, 28, 255, 9,
      0, 1, 0, 2, 0, 3, 0, 4, 0, 5, 0, 6, 0, 0, 0, 7]).value = .ok ⟨.createEntity,
        Header.spelled [200, 1, 11, 5, 0, 0, 0, 0, 0, 28, 255, 9],
        (EntityId.of 1 2 3, EntityId.of 4 5 6, (7 : Int), ())⟩ := by
    set_option maxRecDepth 4096 in
    rfl
  have peeked := Header.peek_eq_spelled [200, 1, 11, 5, 0, 0, 0, 0, 0, 28, 255, 9,
      0, 1, 0, 2, 0, 3, 0, 4, 0, 5, 0, 6, 0, 0, 0, 7] (by decide)
  have free : (Registry.standard.unregister .createEntity).lookup ⟨11, 5⟩ = none := rfl
  obtain ⟨-, sent, encoded, relayed, again⟩ :=
    relay_transparent (Registry.standard.unregister .createEntity) .standard
      [200, 1, 11, 5, 0, 0, 0, 0, 0, 28, 255, 9, 0, 1, 0, 2, 0, 3, 0, 4, 0, 5, 0, 6, 0, 0, 0, 7]
      _ (by decide) peeked (by decide) free
  refine ⟨free, sent, encoded, relayed.size, ?_⟩
  rw [again, decoded]

end Dis.Frame

import Dis.Proofs.Frame
import Dis.Proofs.Layout.Consumption
import Dis.Proofs.Layout.Grammar

/-! What decoding a frame comes to, for any octets at all: the lengths are compared first, then
a kind is looked up, and its grammar decides about the body. Whatever is refused is refused
with an error of malformed traffic. -/

namespace Dis.Frame

theorem header_eq (data : Octets) : Frame.header data =
    if data.length < pduHeaderSize then .error (.headerCut data.length)
    else if (Header.spelled data).length < pduHeaderSize then
      .error (.lengthBelowHeader (Header.spelled data).length)
    else if (Header.spelled data).length = data.length then .ok (Header.spelled data)
    else .error (.lengthMismatch (Header.spelled data).length data.length) := by
  unfold Frame.header
  by_cases short : data.length < pduHeaderSize
  · rw [if_pos short, Header.peek, if_pos short]
    rfl
  · rw [if_neg short, Header.peek_eq_spelled data (by omega)]
    simp only [bind, Except.bind, pure, Except.pure, checkLength]
    by_cases below : (Header.spelled data).length < pduHeaderSize
    · simp only [if_pos below]
    · simp only [if_neg below]

theorem decode_eq (registry : Registry) (allowUnknown : Bool) (data : Octets) :
    (decode registry allowUnknown data).value =
      match Frame.header data with
      | .error e => .error e
      | .ok header =>
        match registry.lookup header.key with
        | some kind => readBody kind header (data.drop pduHeaderSize)
        | none =>
          if allowUnknown then .ok ⟨.unknown, header, data.drop pduHeaderSize⟩
          else .error (.unsupported header.pduType header.protocolFamily) := by
  unfold decode Header.key
  cases Frame.header data with
  | error e => rfl
  | ok header =>
      dsimp only
      cases registry.lookup ⟨header.pduType.number, header.protocolFamily.number⟩ with
      | some kind => rfl
      | none => cases allowUnknown <;> rfl

section Errors

variable {registry : Registry} {allowUnknown : Bool} {data : Octets} {e : Error}

theorem isDecodeError_of_header (refused : Frame.header data = .error e) : e.isDecodeError := by
  rw [header_eq] at refused
  split at refused
  · cases refused
    rfl
  · split at refused
    · cases refused
      rfl
    · split at refused <;> cases refused
      rfl

theorem category_of_readFault (fault : Located ReadFault) :
    (Error.read fault).category = .decode ∨ (Error.read fault).category = .truncated := by
  obtain ⟨path, fault⟩ := fault
  cases fault with
  | short expected found => exact Or.inr rfl
  | overLimit => exact Or.inl rfl
  | notAscii octets => exact Or.inl rfl

theorem isDecodeError_of_readBody {kind : PduKind} {header : Header}
    (refused : readBody kind header data = .error e) : e.isDecodeError := by
  rcases readBody_eq_error.mp refused with ⟨fault, left, -, rfl⟩ | ⟨value, rest, -, -, rfl⟩
  · unfold Error.isDecodeError
    rcases category_of_readFault fault with plain | truncated
    · rw [plain]
    · rw [truncated]
  · rfl

theorem isDecodeError_of_decode
    (refused : (decode registry allowUnknown data).value = .error e) : e.isDecodeError := by
  rw [decode_eq] at refused
  split at refused
  · next other found =>
    cases refused
    exact isDecodeError_of_header found
  · next header found =>
    split at refused
    · exact isDecodeError_of_readBody refused
    · split at refused <;> cases refused
      rfl

end Errors

/-- What becomes of a body whose kind is known, by how its parse ends. -/
structure ReadsBody (kind : PduKind) (header : Header) (body : Octets)
    (outcome : Except Error Pdu) : Prop where
  whole (pdu : Pdu) : outcome = .ok pdu ↔
    ∃ value, kind.body.read body = .ok value [] ∧ pdu = ⟨kind, header, value⟩
  unread (count : Nat) : (∃ e, outcome = .error e ∧ e.category = .framing ∧
      e.extents = (some header.length, some ↑(pduHeaderSize + count))) ↔
    ∃ value front rest, body = front ++ rest ∧ front.length = count ∧ rest ≠ [] ∧
      kind.body.read body = .ok value rest
  broken : (∃ e, outcome = .error e ∧ (e.category = .decode ∨ e.category = .truncated)) ↔
    ∃ fault left, kind.body.read body = .error fault left

theorem readsBody {kind : PduKind} {header : Header} {body : Octets}
    (named : kind.stamp header = header) (whole : header.length = ↑(pduHeaderSize + body.length)) :
    ReadsBody kind header body (readBody kind header body) where
  whole pdu := by
    rw [readBody_eq_ok]
    simp only [Pdu.new, named]
  unread count := by
    have taken (front rest : Octets) (split : body = front ++ rest) :
        header.length - (rest.length : Nat) = ↑(pduHeaderSize + front.length) := by
      rw [whole, split, List.length_append]
      push_cast
      omega
    constructor
    · rintro ⟨e, refused, framing, extents⟩
      rcases readBody_eq_error.mp refused with ⟨fault, left, -, rfl⟩ | ⟨value, rest, read, left, rfl⟩
      · rcases category_of_readFault fault with plain | truncated
        · rw [plain] at framing
          cases framing
        · rw [truncated] at framing
          cases framing
      · obtain ⟨front, split⟩ := (kind.body.consumes []).read read
        have counted : front.length = count := by
          simp only [Error.extents, Prod.mk.injEq, Option.some.injEq,
            taken front rest split.symm] at extents
          omega
        exact ⟨value, front, rest, split.symm, counted, left, read⟩
    · rintro ⟨value, front, rest, split, rfl, left, read⟩
      refine ⟨_, readBody_eq_error.mpr (Or.inr ⟨value, rest, read, left, rfl⟩), rfl, ?_⟩
      rw [Error.extents, taken front rest split]
  broken := by
    constructor
    · rintro ⟨e, refused, other⟩
      rcases readBody_eq_error.mp refused with ⟨fault, left, failed, -⟩ | ⟨_, _, -, -, rfl⟩
      · exact ⟨fault, left, failed⟩
      · rcases other with other | other <;> cases other
    · rintro ⟨fault, left, failed⟩
      exact ⟨_, readBody_eq_error.mpr (Or.inl ⟨fault, left, failed, rfl⟩),
        category_of_readFault fault⟩

theorem stamp_spelled {registry : Registry} {kind : PduKind} {data : Octets}
    (enough : pduHeaderSize ≤ data.length)
    (owner : registry.lookup (Header.spelled data).key = some kind) :
    kind.stamp (Header.spelled data) = Header.spelled data := by
  obtain ⟨front, back, -, read, -⟩ := Header.peek_eq_ok.mp (Header.peek_eq_spelled data enough)
  apply Registry.stamp_reader (Header.norm_of_read read)
  exact congrArg (·.getD .unknown) owner

/-- What decoding has to come to, for each of the ways in which octets can be no frame of the
length that they declare, or no frame of a kind that reads them. -/
structure Decides (registry : Registry) (allowUnknown : Bool) (data : Octets) (declared : Nat)
    (outcome : Except Error Pdu) : Prop where
  cut : data.length < pduHeaderSize → ∃ e, outcome = .error e ∧ e.category = .truncated
  below : pduHeaderSize ≤ data.length → declared < pduHeaderSize →
    ∃ e, outcome = .error e ∧ e.category = .framing ∧ e.extents = (some ↑declared, none)
  mismatch : pduHeaderSize ≤ data.length → pduHeaderSize ≤ declared → declared ≠ data.length →
    ∃ e, outcome = .error e ∧ e.category = .framing ∧
      e.extents = (some ↑declared, some ↑data.length)
  unowned : pduHeaderSize ≤ data.length → declared = data.length →
    registry.lookup (Header.spelled data).key = none →
    if allowUnknown then
      outcome = .ok ⟨.unknown, Header.spelled data, data.drop pduHeaderSize⟩
    else ∃ e, outcome = .error e ∧ e.category = .unsupported
  owned (kind : PduKind) : pduHeaderSize ≤ data.length → declared = data.length →
    registry.lookup (Header.spelled data).key = some kind →
    ReadsBody kind (Header.spelled data) (data.drop pduHeaderSize) outcome
  malformed (e : Error) : outcome = .error e → e.isDecodeError

theorem decides_decode (registry : Registry) (allowUnknown : Bool) (data : Octets) :
    Decides registry allowUnknown data (Octets.toNat ((data.drop headerLengthOffset).take 2))
      (decode registry allowUnknown data).value := by
  have shown : (Header.spelled data).length =
      (Octets.toNat ((data.drop headerLengthOffset).take 2) : Int) := rfl
  generalize Octets.toNat ((data.drop headerLengthOffset).take 2) = declared at shown ⊢
  -- Past the three tests of the lengths the header is the one that the octets spell.
  have accepted (enough : pduHeaderSize ≤ data.length) (whole : declared = data.length) :
      Frame.header data = .ok (Header.spelled data) := by
    rw [header_eq, shown, if_neg (by omega), if_neg (by omega), if_pos (by omega)]
  constructor
  · intro short
    have refused : Frame.header data = .error (.headerCut data.length) := by
      rw [header_eq, if_pos short]
    exact ⟨_, by rw [decode_eq, refused], rfl⟩
  · intro enough small
    have refused : Frame.header data = .error (.lengthBelowHeader declared) := by
      rw [header_eq, shown, if_neg (by omega), if_pos (by omega)]
    exact ⟨_, by rw [decode_eq, refused], rfl, rfl⟩
  · intro enough large other
    have refused : Frame.header data = .error (.lengthMismatch declared data.length) := by
      rw [header_eq, shown, if_neg (by omega), if_neg (by omega), if_neg (by omega)]
    exact ⟨_, by rw [decode_eq, refused], rfl, rfl⟩
  · intro enough whole free
    simp only [decode_eq, accepted enough whole, free]
    split
    · rfl
    · exact ⟨_, rfl, rfl⟩
  · intro kind enough whole owner
    simp only [decode_eq, accepted enough whole, owner]
    apply readsBody (stamp_spelled enough owner)
    rw [shown, whole, List.length_drop]
    omega
  · intro e refused
    exact isDecodeError_of_decode refused

/-- The grammar of frames: octets that spell a PDU, as many as their header declares. -/
structure Spells (registry : Registry) (allowUnknown : Bool) (pdu : Pdu) (data : Octets) : Prop where
  enough : pduHeaderSize ≤ data.length
  whole : Octets.toNat ((data.drop headerLengthOffset).take 2) = data.length
  header : pdu.header = Header.spelled data
  kind : registry.lookup pdu.header.key = some pdu.kind ∨
    registry.lookup pdu.header.key = none ∧ allowUnknown ∧ pdu.kind = .unknown
  body : pdu.kind.body.Spells [] pdu.body (data.drop pduHeaderSize)

theorem decode_eq_ok {registry : Registry} {allowUnknown : Bool} {data : Octets} {pdu : Pdu}
    (sound : ∀ kind ∈ registry.kinds, kind.body.isSound) :
    (decode registry allowUnknown data).value = .ok pdu ↔
      Spells registry allowUnknown pdu data := by
  have decides := decides_decode registry allowUnknown data
  constructor
  · intro decoded
    obtain ⟨header, found⟩ := header_of_decode decoded
    obtain ⟨peeked, declared⟩ := header_eq_ok.mp found
    obtain ⟨enough, rfl⟩ := Header.spelled_of_peek peeked
    have whole : Octets.toNat ((data.drop headerLengthOffset).take 2) = data.length :=
      Int.natCast_inj.mp declared
    cases owner : registry.lookup (Header.spelled data).key with
    | none =>
        have kept := decides.unowned enough whole owner
        by_cases allowed : allowUnknown
        · rw [if_pos allowed, decoded] at kept
          cases kept
          exact ⟨enough, whole, rfl, Or.inr ⟨owner, allowed, rfl⟩, rfl⟩
        · rw [if_neg allowed, decoded] at kept
          obtain ⟨e, same, -⟩ := kept
          cases same
    | some kind =>
        obtain ⟨value, read, rfl⟩ := ((decides.owned kind enough whole owner).whole pdu).mp decoded
        have listed := (Registry.lookup_eq_some owner).1
        exact ⟨enough, whole, rfl, Or.inl owner, (kind.body.read_eq_ok (sound kind listed)).mp read⟩
  · obtain ⟨kind, header, value⟩ := pdu
    rintro ⟨enough, whole, rfl, owner | ⟨free, allowed, rfl⟩, body⟩
    · have listed := (Registry.lookup_eq_some owner).1
      have read := (kind.body.read_eq_ok (sound kind listed)).mpr body
      exact ((decides.owned kind enough whole owner).whole _).mpr ⟨value, read, rfl⟩
    · have kept := decides.unowned enough whole free
      rw [if_pos allowed] at kept
      rw [kept, show data.drop pduHeaderSize = value from body]

/-- Decoding accepts what its grammar spells and nothing else: the lengths agree, and what
follows the header is spelled by the kind that the registry finds for it. All other octets are
refused as malformed traffic, and nothing behind them is ever looked for. -/
theorem decode_accepts :
    (∀ registry allowUnknown data,
      Decides registry allowUnknown data (Octets.toNat ((data.drop headerLengthOffset).take 2))
        (decode registry allowUnknown data).value) ∧
    (∀ kind : PduKind, kind.body.read.Consumes) ∧
    (∀ kind : PduKind, kind.body.isSound →
      kind.body.read.HasGrammar (kind.body.Spells []) kind.body.isBounded) ∧
    (∀ (registry : Registry) allowUnknown data pdu,
      (∀ kind ∈ registry.kinds, kind.body.isSound) →
      ((decode registry allowUnknown data).value = .ok pdu ↔
        Spells registry allowUnknown pdu data)) := by
  refine ⟨decides_decode, ?_, ?_, ?_⟩
  · intro kind
    exact kind.body.consumes []
  · intro kind sound
    exact kind.body.hasGrammar sound
  · intro registry allowUnknown data pdu sound
    exact decode_eq_ok sound

/-- A comment that counts nearly 2^32 records and holds none, and a request to create an
entity, as it is and with an octet too many. -/
theorem decode_accepts_samples :
    (∃ e, (decode .standard false [7, 1, 22, 5, 0, 0, 0, 0, 0, 32, 0, 0, 0, 1, 0, 2, 0, 3, 0, 4,
        0, 5, 0, 6, 255, 255, 255, 255, 0, 0, 0, 0]).value = .error e ∧
      (e.category = .decode ∨ e.category = .truncated)) ∧
    (∃ e, (decode .standard false [7, 1, 11, 5, 0, 0, 0, 0, 0, 29, 0, 0, 0, 1, 0, 2, 0, 3, 0, 4,
        0, 5, 0, 6, 0, 0, 0, 7, 9]).value = .error e ∧
      e.category = .framing ∧ e.extents = (some 29, some 28)) ∧
    PduKind.createEntity.body.Spells [] (EntityId.of 1 2 3, EntityId.of 4 5 6, (7 : Int), ())
      [0, 1, 0, 2, 0, 3, 0, 4, 0, 5, 0, 6, 0, 0, 0, 7] ∧
    (decode .standard false [7, 1, 11, 5, 0, 0, 0, 0, 0, 28, 0, 0, 0, 1, 0, 2, 0, 3, 0, 4,
        0, 5, 0, 6, 0, 0, 0, 7]).value =
      .ok ⟨.createEntity, Header.spelled [7, 1, 11, 5, 0, 0, 0, 0, 0, 28, 0, 0],
        (EntityId.of 1 2 3, EntityId.of 4 5 6, (7 : Int), ())⟩ := by
  obtain ⟨decides, -, grammars, accepts⟩ := decode_accepts
  have grammar := grammars .createEntity (by decide +kernel)
    (EntityId.of 1 2 3, EntityId.of 4 5 6, (7 : Int), ())
  have read : PduKind.createEntity.body.read [0, 1, 0, 2, 0, 3, 0, 4, 0, 5, 0, 6, 0, 0, 0, 7] =
      .ok (EntityId.of 1 2 3, EntityId.of 4 5 6, (7 : Int), ()) [] := by
    set_option maxRecDepth 4096 in
    rfl
  obtain ⟨octets, same, spelled⟩ := grammar.takes read
  rw [List.append_nil] at same
  subst same
  refine ⟨?_, ?_, spelled, ?_⟩
  · refine ((decides .standard false _).owned .comment (by decide) (by decide) rfl).broken.mpr ?_
    exact ⟨_, _, by set_option maxRecDepth 4096 in rfl⟩
  · refine ((decides .standard false _).owned .createEntity (by decide) (by decide) rfl).unread 16
      |>.mpr ?_
    exact ⟨_, [0, 1, 0, 2, 0, 3, 0, 4, 0, 5, 0, 6, 0, 0, 0, 7], [9], rfl, rfl, by decide,
      by set_option maxRecDepth 4096 in rfl⟩
  · exact (accepts .standard false _ _ PduKind.isSound_of_mem).mpr
      ⟨by decide, by decide, rfl, Or.inl rfl, spelled⟩

/-! Dispatch. A frame that decodes goes to the kind that its header calls for, in any registry
that a history of calls leads to, and keeps the header that peeking shows. -/

/-- What is known of a PDU by the octets it was decoded from. -/
structure Dispatches (registry : Registry) (data : Octets) (pdu : Pdu) : Prop where
  header : Header.peek data = .ok pdu.header
  shape : pdu.header.shape = .ofFamily pdu.header.protocolFamily.number
  owned (kind : PduKind) : registry.lookup pdu.header.key = some kind → pdu.kind = kind
  unknown : pdu.kind = .unknown ↔
    registry.lookup pdu.header.key = none ∨ registry.lookup pdu.header.key = some .unknown

theorem dispatches_of_decode {registry : Registry} {allowUnknown : Bool} {data : Octets}
    {pdu : Pdu} (decoded : (decode registry allowUnknown data).value = .ok pdu) :
    Dispatches registry data pdu := by
  obtain ⟨header, found⟩ := header_of_decode decoded
  obtain ⟨peeked, whole⟩ := header_eq_ok.mp found
  obtain ⟨front, back, -, read, regular⟩ := Header.peek_eq_ok.mp peeked
  rw [decode_eq, found] at decoded
  dsimp only at decoded
  cases owner : registry.lookup header.key with
  | none =>
      rw [owner] at decoded
      dsimp only at decoded
      split at decoded
      · cases decoded
        constructor
        · exact peeked
        · exact regular
        · intro kind called
          rw [owner] at called
          cases called
        · exact iff_of_true rfl (Or.inl owner)
      · cases decoded
  | some kind =>
      rw [owner] at decoded
      obtain ⟨value, -, rfl⟩ := readBody_eq_ok.mp decoded
      have called : registry.reader header = kind := congrArg (·.getD .unknown) owner
      rw [Registry.new_reader (Header.norm_of_read read) called]
      constructor
      · exact peeked
      · exact regular
      · intro other same
        rw [owner] at same
        exact Option.some.inj same
      · rw [owner]
        simp

end Dis.Frame

namespace Dis.Registry

/-- After any history each key has one owner at most, a kind with that key and a header of its
family's shape. What is refused, done already or not the owner's to undo leaves the registry as
it is, and the order of registrations does not tell. Whatever is decoded then is of the kind
that its header calls for, and its header is the one that its first twelve octets show. -/
theorem dispatch_law (calls : List Call) :
    (((after calls).kinds.map PduKind.key).Nodup ∧
      (∀ key kind, (after calls).lookup key = some kind ↔
        kind ∈ (after calls).kinds ∧ kind.key = key) ∧
      ∀ kind ∈ (after calls).kinds, kind.header = .ofFamily kind.family) ∧
    (∀ kind, ((after calls).register kind).1 = .ok () ↔ kind.header = .ofFamily kind.family ∧
      ∀ owner, (after calls).lookup kind.key = some owner → owner.token = kind.token) ∧
    (∀ kind e, ((after calls).register kind).1 = .error e →
      ((after calls).register kind).2 = after calls) ∧
    (∀ kind, (after calls).lookup kind.key = some kind →
      (after calls).register kind = (.ok (), after calls)) ∧
    (∀ kind, ¬ (after calls).Owns kind → (after calls).unregister kind = after calls) ∧
    (∀ kinds others : List PduKind, kinds.Perm others → (kinds.map PduKind.key).Nodup →
      (∀ kind ∈ kinds, kind.header = .ofFamily kind.family ∧
        (after calls).lookup kind.key = none) →
      (∀ kind ∈ kinds, (after (calls ++ kinds.map .register)).lookup kind.key = some kind) ∧
      ∀ key, (after (calls ++ kinds.map .register)).lookup key =
        (after (calls ++ others.map .register)).lookup key) ∧
    (∀ allowUnknown data pdu, (Frame.decode (after calls) allowUnknown data).value = .ok pdu →
      Frame.Dispatches (after calls) data pdu) ∧
    (∀ data, Header.peek (data.take pduHeaderSize) = Header.peek data) := by
  have regular := isRegular_after calls
  refine ⟨⟨regular.unique, fun key kind => regular.lookup_iff, regular.shaped⟩,
    ?_, ?_, ?_, ?_, ?_, ?_, ?_⟩
  · intro kind
    exact register_isOk_iff
  · intro kind e refused
    exact register_of_refused refused
  · intro kind owner
    exact regular.register_again owner
  · intro kind other
    exact unregister_of_not_owns other
  · intro kinds others same apart fresh
    have first := after_append_register apart fresh
    have second := after_append_register ((same.map PduKind.key).nodup_iff.mp apart)
      fun kind listed => fresh kind (same.mem_iff.mpr listed)
    constructor
    · intro kind listed
      rw [(isRegular_after _).lookup_iff, first]
      exact ⟨List.mem_append_right _ listed, rfl⟩
    · intro key
      apply lookup_perm (isRegular_after _) (isRegular_after _)
      rw [first, second]
      exact same.append_left _
  · intro allowUnknown data pdu decoded
    exact Frame.dispatches_of_decode decoded
  · intro data
    exact Header.peek_take data

/-- A second kind of the same name for a key, which is refused and removes nothing; a kind that
is known, two that are free in either order, and a frame that nobody reads. -/
theorem dispatch_law_samples :
    ((after [.unregister .createEntity]).register { PduKind.fire with token := .other 1 }).2 =
      after [.unregister .createEntity] ∧
    (after [.unregister .createEntity]).unregister { PduKind.fire with token := .other 1 } =
      after [.unregister .createEntity] ∧
    (after [.unregister .createEntity]).register .fire =
      (.ok (), after [.unregister .createEntity]) ∧
    (after ([.unregister .createEntity] ++ [.unknown, .createEntity].map .register)).lookup ⟨11, 5⟩ =
      (after ([.unregister .createEntity] ++ [.createEntity, .unknown].map .register)).lookup
        ⟨11, 5⟩ ∧
    Frame.Dispatches (after [.unregister .createEntity])
      [7, 1, 11, 5, 0, 0, 0, 0, 0, 13, 0, 0, 9]
      ⟨.unknown, Header.spelled [7, 1, 11, 5, 0, 0, 0, 0, 0, 13, 0, 0], ([9] : Octets)⟩ := by
  obtain ⟨-, -, refused, known, foreign, fresh, dispatches, -⟩ :=
    dispatch_law [.unregister .createEntity]
  have shaped : ∀ kind ∈ [PduKind.unknown, .createEntity], kind.header = .ofFamily kind.family ∧
      (after [.unregister .createEntity]).lookup kind.key = none := by
    simp only [List.forall_mem_cons]
    exact ⟨⟨rfl, rfl⟩, ⟨rfl, rfl⟩, List.forall_mem_nil _⟩
  refine ⟨refused _ _ rfl, foreign _ ?_, known _ rfl, ?_, dispatches true _ _ ?_⟩
  · rintro ⟨owner, found, same⟩
    cases found
    cases same
  · exact (fresh _ _ (.swap ..) (by decide) shaped).2 ⟨11, 5⟩
  · set_option maxRecDepth 4096 in
    rfl

/-- A frame can be kept as octets though its key has an owner: the kind that keeps octets may
itself be registered. -/
theorem unknown_owner : ¬ ∀ (calls : List Call) (allowUnknown : Bool) (data : Octets) (pdu : Pdu),
    (Frame.decode (after calls) allowUnknown data).value = .ok pdu →
      (pdu.kind = .unknown ↔ (after calls).lookup pdu.header.key = none) := by
  intro always
  have decoded : (Frame.decode (after [.register .unknown]) true
      [7, 1, 0, 0, 0, 0, 0, 0, 0, 14, 0, 0, 122, 122]).value =
      .ok ⟨.unknown, Header.spelled [7, 1, 0, 0, 0, 0, 0, 0, 0, 14, 0, 0], ([122, 122] : Octets)⟩ := by
    set_option maxRecDepth 4096 in
    rfl
  have free := (always [.register .unknown] true _ _ decoded).mp rfl
  cases free

end Dis.Registry

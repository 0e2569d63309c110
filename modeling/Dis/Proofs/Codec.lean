import Dis.Codec
import Dis.Proofs.Domain
import Dis.Proofs.Layout.Extent
import Dis.Proofs.RoundTrip
import Dis.Proofs.Walk

/-! The codec under a configuration that was checked. The ranges that are checked make room for
every header that the codec creates and keep what it sends within a frame; what it sends comes
back, by itself or among the frames of other exercises. -/

namespace Dis

namespace Config

/-- What the codec relies on. -/
structure IsValid (config : Config) : Prop where
  exercise : 0 ≤ config.exerciseId ∧ config.exerciseId ≤ 255
  version : config.protocolVersion = 5 ∨ config.protocolVersion = 6 ∨ config.protocolVersion = 7
  size : pduHeaderSize ≤ config.maxPduSize ∧ config.maxPduSize ≤ Dis.maxPduSize

theorem check_holds {α : Type} {P : α → Prop} {entries : List (String × Setting)} {name : String}
    {default : α} {read : Setting → Except Complaint α} (start : P default)
    (each : ∀ setting value, read setting = .ok value → P value) :
    P (check entries name default read).value := by
  unfold check
  cases entries.lookup name with
  | none => exact start
  | some setting =>
      cases found : read setting with
      | error complaint => simpa only [found] using start
      | ok value => simpa only [found] using each setting value found

theorem bounds_of_intIn {least greatest n : Int} {setting : Setting}
    (read : intIn least greatest setting = .ok n) : least ≤ n ∧ n ≤ greatest := by
  unfold intIn at read
  cases number : setting.toInt with
  | error complaint =>
      rw [number] at read
      cases read
  | ok found =>
      rw [number] at read
      simp only [bind, Except.bind, pure, Except.pure] at read
      split at read
      · next inside =>
        cases read
        exact inside
      · cases read

theorem valid_of_version {n : Int} {setting : Setting} (read : version setting = .ok n) :
    n = 5 ∨ n = 6 ∨ n = 7 := by
  unfold version at read
  cases number : setting.toInt with
  | error complaint =>
      rw [number] at read
      cases read
  | ok found =>
      rw [number] at read
      simp only [bind, Except.bind, pure, Except.pure] at read
      split at read
      · next valid =>
        cases read
        simpa [isValidProtocolVersion, protocolVersion1995, protocolVersion1998,
          protocolVersion2012, or_assoc] using valid
      · cases read

theorem isValid_of_entries {entries : List (String × Setting)} {config : Config}
    (accepted : ofEntries entries = .ok config) : config.IsValid := by
  simp only [ofEntries] at accepted
  split at accepted
  · cases accepted
    constructor
    · exact check_holds (by decide) fun _ _ => bounds_of_intIn
    · exact check_holds (by decide) fun _ _ => valid_of_version
    · exact check_holds (by decide) fun _ _ => bounds_of_intIn
  · cases accepted

theorem isValid_of_setting {setting : Setting} {config : Config}
    (accepted : ofSetting setting = .ok config) : config.IsValid := by
  cases setting with
  | table entries => exact isValid_of_entries accepted
  | _ => cases accepted

end Config

namespace Header

open IntFormat (u8)

theorem octets_of_holds {n : Int} (holds : u8.Holds n) :
    ∃ octet : UInt8, u8.octets n = [octet] ∧ (octet.toNat : Int) = n := by
  refine ⟨UInt8.ofNat (n % (256 : Nat)).toNat, rfl, ?_⟩
  have bounds : 0 ≤ n ∧ n ≤ 255 := holds
  rw [UInt8.toNat_ofNat']
  omega

theorem starts_of_common {rest : Layout} {v : rest.Value} {version : Code .protocolVersion}
    {type : Code .pduType} {family : Code .protocolFamily} {exercise timestamp length : Int}
    {octets : Octets} (written : (HeaderShape.common rest).write
      (version, exercise, type, family, timestamp, length, v) = ⟨octets, none⟩) :
    ∃ first second more, octets = first :: second :: more ∧
      (first.toNat : Int) = version.number ∧ (second.toNat : Int) = exercise := by
  obtain ⟨front, back, head, tail, rfl⟩ := Written.append_eq_complete.mp written
  obtain ⟨front', back', head', tail', rfl⟩ := Written.append_eq_complete.mp tail
  obtain ⟨holds, rfl⟩ := IntFormat.write_eq_complete.mp (Written.under_eq_complete.mp head)
  obtain ⟨holds', rfl⟩ := IntFormat.write_eq_complete.mp (Written.under_eq_complete.mp head')
  obtain ⟨first, same, number⟩ := octets_of_holds holds
  obtain ⟨second, same', number'⟩ := octets_of_holds holds'
  refine ⟨first, second, back', ?_, number, number'⟩
  rw [same, same']
  rfl

theorem starts_of_write {header : Header} {octets : Octets}
    (written : header.write = ⟨octets, none⟩) :
    ∃ first second more, octets = first :: second :: more ∧
      (first.toNat : Int) = header.protocolVersion.number ∧
      (second.toNat : Int) = header.exerciseId := by
  obtain ⟨version, exercise, type, family, timestamp, length, trailer⟩ := header
  cases trailer with
  | status status => exact starts_of_common written
  | subprotocol subprotocol => exact starts_of_common written

theorem holds_initial (shape : HeaderShape) : (Header.initial shape).Holds := by
  cases shape <;> decide +kernel

theorem exerciseId_norm (header : Header) : header.norm.exerciseId = header.exerciseId := by
  obtain ⟨version, exercise, type, family, timestamp, length, trailer⟩ := header
  cases trailer <;> rfl

end Header

theorem PduKind.holds_codes : ∀ kind ∈ catalog,
    IntFormat.u8.Holds kind.typeCode.number ∧ IntFormat.u8.Holds kind.familyCode.number := by
  decide +kernel

namespace Codec

variable {codec : Codec} {kind : PduKind} {timestamp : Int} {body : kind.body.Value}

def header (codec : Codec) (kind : PduKind) (timestamp : Int) : Header :=
  .new kind.header kind.typeCode kind.familyCode codec.config.exerciseId 0 timestamp
    (Enumeration.protocolVersion.decode codec.config.protocolVersion)

theorem create_eq : codec.create kind timestamp body =
    ⟨kind, codec.header kind timestamp, body⟩ := by
  unfold create Pdu.new
  rw [PduKind.stamp_eq_self rfl rfl]
  rfl

theorem number_version (valid : codec.config.IsValid) :
    (Enumeration.protocolVersion.decode codec.config.protocolVersion).number =
      codec.config.protocolVersion := by
  have known : Enumeration.protocolVersion.Knows codec.config.protocolVersion := by
    rcases valid.version with same | same | same <;> rw [same] <;> decide
  exact Enumeration.number_decode_of_knows _ _ known

theorem holds_header (valid : codec.config.IsValid) (listed : kind ∈ PduKind.catalog)
    (least : 0 ≤ timestamp) (most : timestamp < 2 ^ 32) :
    (codec.header kind timestamp).Holds := by
  obtain ⟨typed, known⟩ := PduKind.holds_codes kind listed
  refine ⟨?_, valid.exercise, typed, known, ⟨least, Int.le_sub_one_of_lt most⟩, ?_⟩
  · rw [header, Header.new, number_version valid]
    rcases valid.version with same | same | same <;> rw [same] <;> decide
  · exact (Header.holds_initial kind.header).2.2.2.2.2

theorem exists_byteLength (codec : Codec) (timestamp : Int) (listed : kind ∈ PduKind.catalog)
    (holds : kind.body.Holds body) :
    ∃ size : Nat, (codec.create kind timestamp body).byteLength = .ok size := by
  obtain ⟨octets, written⟩ := kind.body.exists_write_iff.mpr holds
  refine ⟨pduHeaderSize + octets.length, ?_⟩
  rw [create_eq, Pdu.byteLength_eq_ok]
  have sized := PduKind.bodyLength_of_write (PduKind.sizeRule_of_mem kind listed)
    (codec.header kind timestamp) written
  refine ⟨octets.length, sized, ?_⟩
  push_cast
  rfl

theorem PduKind.most_of_mem : ∀ kind ∈ PduKind.catalog,
    kind.body.isBounded ∧ Numeral.isShown (pduHeaderSize + kind.body.most) := by
  decide +kernel

/-- No PDU that there is room for has a size of more digits than are ever shown. -/
theorem isShown_byteLength (listed : kind ∈ PduKind.catalog) (holds : kind.body.Holds body)
    {size : Int} (sized : (codec.create kind timestamp body).byteLength = .ok size) :
    Numeral.isShown size := by
  obtain ⟨octets, written⟩ := kind.body.exists_write_iff.mpr holds
  obtain ⟨bounded, few⟩ := PduKind.most_of_mem kind listed
  have within := kind.body.length_write_le (PduKind.isSound_of_mem kind listed) bounded written
  rw [create_eq] at sized
  obtain ⟨n, found, rfl⟩ := Pdu.byteLength_eq_ok.mp sized
  have same := PduKind.bodyLength_of_write (PduKind.sizeRule_of_mem kind listed)
    (codec.header kind timestamp) written
  rw [Pdu.bodyLength, same] at found
  have whole := Except.ok.inj found
  exact Numeral.isShown_of_natAbs_le few (by omega)

theorem size_of_encode {data : Octets} {size : Nat}
    (sized : (codec.create kind timestamp body).byteLength = .ok size)
    (encoded : (codec.encode (codec.create kind timestamp body)).value.outcome = .ok data) :
    data.length = size := by
  have same := (Pdu.encode_eq_ok encoded).1
  rw [sized] at same
  injection same with same
  exact (Int.natCast_inj.mp same).symm

theorem exists_encode (valid : codec.config.IsValid) (listed : kind ∈ PduKind.catalog)
    (least : 0 ≤ timestamp) (most : timestamp < 2 ^ 32) (holds : kind.body.Holds body) {size : Nat}
    (sized : (codec.create kind timestamp body).byteLength = .ok size)
    (fits : size ≤ codec.config.maxPduSize) :
    ∃ data, (codec.encode (codec.create kind timestamp body)).value.outcome = .ok data := by
  apply (Pdu.encode_isOk_iff (PduKind.sizeRule_of_mem kind listed)).mpr
  refine ⟨?_, holds, size, sized, fits, ?_⟩
  · rw [create_eq]
    exact holds_header valid listed least most
  · have bound := Int.le_trans fits valid.size.2
    have : maxPduSize = 8192 := rfl
    omega

theorem isShown_maxPduSize (valid : codec.config.IsValid) :
    Numeral.isShown codec.config.maxPduSize := by
  have least := valid.size.1
  have most := valid.size.2
  apply IntFormat.u16.isShown_of_holds
  refine ⟨Int.le_trans (by decide) least, Int.le_trans most (by decide)⟩

theorem refused_iff (valid : codec.config.IsValid) (listed : kind ∈ PduKind.catalog)
    (least : 0 ≤ timestamp) (most : timestamp < 2 ^ 32) (holds : kind.body.Holds body) {size : Nat}
    (sized : (codec.create kind timestamp body).byteLength = .ok size) :
    (∃ e, (codec.encode (codec.create kind timestamp body)).value.outcome = .error e ∧
      e.category = .sizeExceeded) ↔ codec.config.maxPduSize < size := by
  constructor
  · rintro ⟨e, refused, -⟩
    apply Int.lt_of_not_ge
    intro fits
    obtain ⟨data, encoded⟩ := exists_encode valid listed least most holds sized fits
    rw [encoded] at refused
    cases refused
  · intro above
    have shown := isShown_byteLength listed holds sized
    refine ⟨.sizeExceeded size codec.config.maxPduSize, ?_, ?_⟩
    · rw [encode, Pdu.encode_of_above sized above]
    · exact Error.category_sizeExceeded_iff.mpr ⟨shown, isShown_maxPduSize valid⟩

theorem starts_of_encode (valid : codec.config.IsValid) {data : Octets}
    (encoded : (codec.encode (codec.create kind timestamp body)).value.outcome = .ok data) :
    ∃ first second more, data = first :: second :: more ∧
      (first.toNat : Int) = codec.config.protocolVersion ∧
      (second.toNat : Int) = codec.config.exerciseId := by
  rw [create_eq] at encoded
  obtain ⟨front, back, head, -, rfl⟩ :=
    Pdu.write_eq_complete.mp (Pdu.encode_eq_ok encoded).2.2.2
  obtain ⟨first, second, more, rfl, version, exercise⟩ := Header.starts_of_write head
  exact ⟨first, second, more ++ back, rfl, version.trans (number_version valid), exercise⟩

theorem decode_of_encode {registry : Registry} (listed : kind ∈ PduKind.catalog)
    (owner : registry.lookup kind.key = some kind) {data : Octets}
    (encoded : (codec.encode (codec.create kind timestamp body)).value.outcome = .ok data)
    (allowUnknown : Bool) :
    (Frame.decode registry allowUnknown data).value =
      .ok ((codec.create kind timestamp body).norm.withLength data.length) := by
  obtain ⟨typed, known, shaped⟩ := PduKind.isRegular_of_mem kind listed
  have type : (codec.header kind timestamp).pduType.number = kind.pduType :=
    Enumeration.number_decode_of_knows _ _ typed
  have family : (codec.header kind timestamp).protocolFamily.number = kind.family :=
    Enumeration.number_decode_of_knows _ _ known
  have shape : (codec.header kind timestamp).shape = kind.header := by
    unfold header
    cases kind.header <;> rfl
  obtain ⟨key, stamped⟩ := PduKind.key_of_norm listed type family
  rw [create_eq] at encoded ⊢
  apply Frame.decode_of_encode (PduKind.isSound_of_mem kind listed) ?_ ?_ stamped encoded
  · rw [shape, family, shaped]
  · rw [key, owner]

theorem exercise_of_create (length : Int) :
    ((codec.create kind timestamp body).norm.withLength length).header.exerciseId =
      codec.config.exerciseId := by
  rw [create_eq]
  exact Header.exerciseId_norm _

end Codec

namespace Frame

variable {registry : Registry} {allowUnknown : Bool} {frame : Octets} {pdu : Pdu}

/-- A frame whose kind is known is decoded without a report, whatever becomes of other frames. -/
theorem decode_of_known (decoded : (decode registry false frame).value = .ok pdu)
    (allowUnknown : Bool) : decode registry allowUnknown frame = .pure (.ok pdu) := by
  unfold decode at decoded ⊢
  cases found : Frame.header frame with
  | error e =>
      rw [found] at decoded
      cases decoded
  | ok header =>
      rw [found] at decoded
      dsimp only at decoded ⊢
      split at decoded
      · exact congrArg Logged.pure decoded
      · cases decoded

theorem step_of_known (mode : WalkMode) (offset : Nat)
    (decoded : (decode registry false frame).value = .ok pdu) :
    step registry mode offset frame = ⟨[.pdu pdu], none⟩ := by
  have known := decode_of_known decoded mode.allowUnknown
  have stepped := step_of_decode mode offset (congrArg Logged.value known)
  rw [stepped, known]
  rfl

theorem walkFrom_of_known {frames : List Octets} {pdus : List Pdu} (mode : WalkMode) (offset : Nat)
    (decodes : Decodes registry false frames pdus) :
    walkFrom registry mode offset frames.flatten = ⟨pdus.map Item.pdu, none⟩ := by
  induction decodes generalizing offset with
  | nil => exact walkFrom_nil mode offset
  | @cons frame pdu frames pdus decoded later ih =>
      have stepped := step_of_known mode offset decoded
      have kept : (step registry mode offset frame).error = none := by rw [stepped]
      rw [List.flatten_cons, walkFrom_of_step (frameLength_of_decode decoded _) kept, stepped, ih]
      rfl

end Frame

namespace Codec

variable {codec : Codec} {registry : Registry}

/-- A frame that the codec sends, or one that a known kind reads and that belongs to another
exercise, with the PDU that it stands for. -/
inductive Arrives (codec : Codec) (registry : Registry) : Octets → Pdu → Prop where
  | own {kind : PduKind} {timestamp : Int} {body : kind.body.Value} {data : Octets} :
      kind ∈ PduKind.catalog →
      (codec.encode (codec.create kind timestamp body)).value.outcome = .ok data →
      Arrives codec registry data ((codec.create kind timestamp body).norm.withLength data.length)
  | foreign {data : Octets} {pdu : Pdu} : (Frame.decode registry false data).value = .ok pdu →
      pdu.header.exerciseId ≠ codec.config.exerciseId → Arrives codec registry data pdu

theorem Arrives.decode (registered : ∀ kind ∈ PduKind.catalog, registry.lookup kind.key = some kind)
    {data : Octets} {pdu : Pdu} (arrives : codec.Arrives registry data pdu) :
    (Frame.decode registry false data).value = .ok pdu := by
  cases arrives with
  | own listed encoded => exact decode_of_encode listed (registered _ listed) encoded false
  | foreign decoded other => exact decoded

/-- Is the PDU handed out? -/
def follows (codec : Codec) (pdu : Pdu) : Bool :=
  !codec.config.filterExercise || pdu.header.exerciseId == codec.config.exerciseId

def ignored (pdu : Pdu) : Event := .ignored pdu.kind.name pdu.header.exerciseId

theorem follow_pdu (pdu : Pdu) : codec.follow (.pdu pdu) =
    if codec.follows pdu then .pdu pdu else .event (ignored pdu) := by
  unfold follow follows ignored
  cases codec.config.filterExercise with
  | false => rfl
  | true =>
      by_cases own : pdu.header.exerciseId = codec.config.exerciseId
      · simp [own]
      · simp [own]

theorem walk_of_arrives
    (registered : ∀ kind ∈ PduKind.catalog, registry.lookup kind.key = some kind)
    {frames : List Octets} {pdus : List Pdu}
    (arrive : List.Forall₂ (codec.Arrives registry) frames pdus) :
    codec.walk registry frames.flatten = ⟨pdus.map fun pdu => codec.follow (.pdu pdu), none⟩ := by
  have decodes : Frame.Decodes registry false frames pdus :=
    arrive.imp fun _ _ one => one.decode registered
  simp only [walk, Frame.walk, Frame.walkFrom_of_known _ _ decodes, List.map_map]
  rfl

theorem pdus_map_follow (codec : Codec) (items : List Frame.Item) (error : Option Error) :
    Frame.Walk.pdus ⟨items.map codec.follow, error⟩ =
      (Frame.Walk.pdus ⟨items, error⟩).filter codec.follows := by
  unfold Frame.Walk.pdus
  induction items with
  | nil => rfl
  | cons item rest ih =>
      cases item with
      | event report => simpa [follow] using ih
      | pdu pdu =>
          by_cases kept : codec.follows pdu
          · simpa [follow_pdu, kept] using ih
          · simpa [follow_pdu, kept] using ih

theorem pdus_of_follow (pdus : List Pdu) :
    Frame.Walk.pdus ⟨pdus.map fun pdu => codec.follow (.pdu pdu), none⟩ =
      pdus.filter codec.follows := by
  have all : Frame.Walk.pdus ⟨pdus.map Frame.Item.pdu, none⟩ = pdus := by
    simp [Frame.Walk.pdus, List.filterMap_map]
  have filtered := codec.pdus_map_follow (pdus.map Frame.Item.pdu) none
  rw [all, List.map_map] at filtered
  exact filtered

theorem events_of_follow (pdus : List Pdu) :
    Frame.Walk.events ⟨pdus.map fun pdu => codec.follow (.pdu pdu), none⟩ =
      (pdus.filter fun pdu => !codec.follows pdu).map ignored := by
  induction pdus with
  | nil => rfl
  | cons pdu rest ih =>
      simp only [Frame.Walk.events] at ih ⊢
      by_cases kept : codec.follows pdu
      · simp [follow_pdu, kept, ← ih]
      · simp [follow_pdu, kept, ← ih]

/-- A configuration that was checked closes the loop: what the codec creates it encodes or refuses
for its size alone, what it encodes it reads back, and it follows its exercise among others. -/
theorem closes_loop (setting : Setting) (config : Config) (registry : Registry)
    (accepted : Config.ofSetting setting = .ok config)
    (registered : ∀ kind ∈ PduKind.catalog, registry.lookup kind.key = some kind) :
    config.IsValid ∧
    (∀ kind ∈ PduKind.catalog, ∀ (timestamp : Int) (body : kind.body.Value),
      0 ≤ timestamp → timestamp < 2 ^ 32 → kind.body.Holds body →
      ∃ size : Nat, (create ⟨config⟩ kind timestamp body).byteLength = .ok size ∧
        ((∃ e, (encode ⟨config⟩ (create ⟨config⟩ kind timestamp body)).value.outcome = .error e ∧
          e.category = .sizeExceeded) ↔ config.maxPduSize < size) ∧
        (size ≤ config.maxPduSize → ∃ first second more,
          (encode ⟨config⟩ (create ⟨config⟩ kind timestamp body)).value.outcome =
            .ok (first :: second :: more) ∧
          (first :: second :: more).length = size ∧ (first.toNat : Int) = config.protocolVersion ∧
          (second.toNat : Int) = config.exerciseId ∧
          (decode ⟨config⟩ registry (first :: second :: more)).value =
            .ok ((create ⟨config⟩ kind timestamp body).norm.withLength size) ∧
          ((create ⟨config⟩ kind timestamp body).norm.withLength size).header.exerciseId =
            config.exerciseId ∧
          ((create ⟨config⟩ kind timestamp body).withLength size).Becomes
            ((create ⟨config⟩ kind timestamp body).norm.withLength size))) ∧
    (∀ (frames : List Octets) (pdus : List Pdu),
      List.Forall₂ (Arrives ⟨config⟩ registry) frames pdus →
      (walk ⟨config⟩ registry frames.flatten).error = none ∧
      (config.filterExercise = false →
        (walk ⟨config⟩ registry frames.flatten).pdus = pdus ∧
        (walk ⟨config⟩ registry frames.flatten).events = []) ∧
      (config.filterExercise = true →
        (walk ⟨config⟩ registry frames.flatten).pdus =
          pdus.filter (fun pdu => pdu.header.exerciseId == config.exerciseId) ∧
        (walk ⟨config⟩ registry frames.flatten).events =
          (pdus.filter fun pdu => pdu.header.exerciseId != config.exerciseId).map ignored)) ∧
    ∀ pdu, (ignored pdu).level = .debug ∧ (ignored pdu).message =
      "Ignoring " ++ pdu.kind.name ++ " from exercise " ++ toString pdu.header.exerciseId := by
  have valid := Config.isValid_of_setting accepted
  refine ⟨valid, ?_, ?_, ?_⟩
  · intro kind listed timestamp body least most holds
    obtain ⟨size, sized⟩ := exists_byteLength ⟨config⟩ timestamp listed holds
    refine ⟨size, sized, refused_iff valid listed least most holds sized, ?_⟩
    intro fits
    obtain ⟨data, encoded⟩ := exists_encode valid listed least most holds sized fits
    have whole := size_of_encode sized encoded
    have again := decode_of_encode listed (registered kind listed) encoded config.skipUnknownPdus
    have becomes := Pdu.becomes_of_encode encoded
    obtain ⟨first, second, more, rfl, version, exercise⟩ := starts_of_encode valid encoded
    rw [whole] at again becomes
    exact ⟨first, second, more, encoded, whole, version, exercise, again,
      exercise_of_create size, becomes⟩
  · intro frames pdus arrive
    rw [walk_of_arrives registered arrive, pdus_of_follow, events_of_follow]
    refine ⟨rfl, ?_, ?_⟩
    · intro all
      simp [follows, all]
    · intro filtered
      have own : follows ⟨config⟩ = fun pdu => pdu.header.exerciseId == config.exerciseId := by
        funext pdu
        simp [follows, filtered]
      rw [own]
      exact ⟨rfl, rfl⟩
  · intro pdu
    exact ⟨rfl, rfl⟩

/-- A PDU of exercise 3 and one of exercise 1, where only exercise 3 is followed. -/
theorem closes_loop_samples :
    Config.ofSetting (.table [("exercise_id", .int 3), ("filter_exercise", .bool true)]) =
      .ok { exerciseId := 3, filterExercise := true } ∧
    (decode ⟨{ exerciseId := 3, filterExercise := true }⟩ .standard
        [7, 3, 11, 5, 0, 0, 0, 9, 0, 28, 0, 0, 0, 1, 0, 2, 0, 3, 0, 4, 0, 5, 0, 6,
          0, 0, 0, 7]).value =
      .ok ((create ⟨{ exerciseId := 3, filterExercise := true }⟩ .createEntity 9
        (EntityId.of 1 2 3, EntityId.of 4 5 6, (7 : Int), ())).norm.withLength 28) ∧
    (walk ⟨{ exerciseId := 3, filterExercise := true }⟩ .standard
        ([7, 3, 11, 5, 0, 0, 0, 9, 0, 28, 0, 0, 0, 1, 0, 2, 0, 3, 0, 4, 0, 5, 0, 6, 0, 0, 0, 7] ++
          [7, 1, 11, 5, 0, 0, 0, 0, 0, 28, 0, 0, 0, 1, 0, 2, 0, 3, 0, 4, 0, 5, 0, 6,
            0, 0, 0, 7])).events =
      [.ignored "CreateEntityPdu" 1] := by
  have accepted : Config.ofSetting
      (.table [("exercise_id", .int 3), ("filter_exercise", .bool true)]) =
      .ok { exerciseId := 3, filterExercise := true } := by decide +kernel
  have listed : PduKind.createEntity ∈ PduKind.catalog := List.mem_of_getElem? (i := 6) rfl
  have encoded : (encode ⟨{ exerciseId := 3, filterExercise := true }⟩
      (create ⟨{ exerciseId := 3, filterExercise := true }⟩ .createEntity 9
        (EntityId.of 1 2 3, EntityId.of 4 5 6, (7 : Int), ()))).value.outcome =
      .ok [7, 3, 11, 5, 0, 0, 0, 9, 0, 28, 0, 0, 0, 1, 0, 2, 0, 3, 0, 4, 0, 5, 0, 6,
        0, 0, 0, 7] := by
    decide +kernel
  have decoded : (Frame.decode .standard false
      [7, 1, 11, 5, 0, 0, 0, 0, 0, 28, 0, 0, 0, 1, 0, 2, 0, 3, 0, 4, 0, 5, 0, 6,
        0, 0, 0, 7]).value =
      .ok ⟨.createEntity, Header.spelled [7, 1, 11, 5, 0, 0, 0, 0, 0, 28, 0, 0],
        (EntityId.of 1 2 3, EntityId.of 4 5 6, (7 : Int), ())⟩ := by
    set_option maxRecDepth 4096 in
    rfl
  obtain ⟨-, each, follows, -⟩ := closes_loop _ _ .standard accepted PduKind.lookup_of_mem
  refine ⟨accepted, ?_, ?_⟩
  · obtain ⟨size, sized, -, sent⟩ := each .createEntity listed 9
      (EntityId.of 1 2 3, EntityId.of 4 5 6, (7 : Int), ()) (by decide) (by decide)
      ⟨by decide +kernel, by decide +kernel, by decide +kernel, trivial⟩
    cases sized
    obtain ⟨first, second, more, same, -, -, -, again, -⟩ := sent (by decide)
    rw [encoded] at same
    cases same
    exact again
  · have arrive := List.Forall₂.cons (Arrives.own listed encoded)
      (List.Forall₂.cons (Arrives.foreign decoded (by decide)) List.Forall₂.nil)
    exact ((follows _ _ arrive).2.2 rfl).2

end Codec
end Dis

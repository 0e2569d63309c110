import Dis.Proofs.Truncation

/-! Values one behind the other. Each puts down its own octets and no more, and a reader of its
kind takes them off again and no more, wherever the cursor stands. So a sequence of values of any
kinds that end by themselves is read back one by one. -/

namespace Dis

theorem Header.steady (shape : HeaderShape) : (Header.read shape).Steady :=
  (shape.kind.layout.steady (isSound shape) (isBounded shape)).map _

theorem HeaderShape.listed (shape : HeaderShape) : shape.kind ∈ RecordKind.withHeaders := by
  cases shape <;> simp [RecordKind.withHeaders]

theorem Layout.write_of_read (layout : Layout) (sound : layout.isSound) {v : layout.Value}
    {input left : Octets} (read : layout.read input = .ok v left) :
    ∃ front back, input = front ++ left ∧ layout.write v = ⟨back, none⟩ ∧
      back.length = front.length := by
  rcases layout.recovers sound Scope.fits_nil read with ⟨front, split, recovers⟩
  refine ⟨front, _, split, recovers.written, ?_⟩
  rw [Span.length_mapAlong Span.length_settle _ _ recovers.size, recovers.size]

namespace RecordKind

theorem read_nil_of_mem : ∀ kind ∈ withHeaders, kind.lengthBound = false →
    (match kind.layout.read [] with
      | .ok _ _ => true
      | .error _ _ => false) = false := by decide +kernel

variable {kind : RecordKind} {value : kind.Value} {cursor later : Cursor}

theorem advance_of_deserialize (listed : kind ∈ withHeaders)
    (read : kind.deserialize cursor = (.ok value, later)) :
    ∃ size : Nat, kind.byteLength value = .ok size ∧ later = cursor.advance size := by
  unfold deserialize at read
  cases free : kind.lengthBound with
  | true =>
      rw [free] at read
      cases read
  | false =>
      rw [free] at read
      rcases Cursor.read_of_run read with ⟨rest, parsed⟩
      have inside : cursor.position ≤ cursor.length := by
        by_contra outside
        have nothing : cursor.ahead = [] := List.drop_eq_nil_of_le (Nat.le_of_not_le outside)
        have refused := read_nil_of_mem kind listed free
        rw [nothing] at parsed
        rw [parsed] at refused
        cases refused
      rcases kind.layout.write_of_read (isSound_of_mem kind listed) parsed with
        ⟨front, back, split, written, size⟩
      have ran := Cursor.run_of_ok inside split parsed
      rw [ran] at read
      refine ⟨front.length, ?_, (Prod.mk.inj read).2.symm⟩
      rw [byteLength_of_encode listed (encode_eq_ok.mpr written), size]

theorem deserialize_of_write (listed : kind ∈ withHeaders) (other : kind ∉ withTails)
    {octets more : Octets} (written : kind.layout.write value = ⟨octets, none⟩)
    (inside : cursor.position ≤ cursor.length) (ahead : cursor.ahead = octets ++ more) :
    kind.deserialize cursor = (.ok (kind.layout.norm value), cursor.advance octets.length) := by
  have bounded := isBounded_of_mem listed other
  have sound := isSound_of_mem kind listed
  have whole := kind.layout.read_of_write sound written
  have read := (kind.layout.steady sound bounded).read more whole
  rw [← ahead] at read
  rw [deserialize, free_of_isBounded kind listed bounded]
  exact Cursor.run_of_ok inside ahead read

end RecordKind

namespace PduKind

variable {kind : PduKind} {pdu : Pdu} {cursor later : Cursor}

theorem advance_of_deserialize (listed : kind ∈ catalog)
    (read : kind.deserialize cursor = (.ok pdu, later)) :
    ∃ size : Nat, pdu.byteLength = .ok size ∧ later = cursor.advance size := by
  rcases framed_of_deserialize (isRegular_of_mem kind listed).2.2 read with
    ⟨size, least, fits, -, -, parsed, rfl⟩
  rcases Frame.readBody_eq_ok.mp parsed with ⟨value, body, rfl⟩
  rcases kind.body.write_of_read (isSound_of_mem kind listed) body with
    ⟨front, back, split, written, same⟩
  have total : pduHeaderSize + back.length = size := by
    have length := congrArg List.length split
    rw [List.append_nil, List.length_drop, List.length_take, cursor.length_ahead] at length
    omega
  refine ⟨size, Pdu.byteLength_eq_ok.mpr ⟨back.length, ?_, ?_⟩, rfl⟩
  · exact bodyLength_of_write (sizeRule_of_mem kind listed) _ written
  · omega

end PduKind

namespace Pdu

/-- Is the header of the shape, type and family of the kind? -/
def IsRegular (pdu : Pdu) : Prop :=
  pdu.header.shape = pdu.kind.header ∧ pdu.header.pduType.number = pdu.kind.pduType ∧
    pdu.header.protocolFamily.number = pdu.kind.family

theorem deserialize_of_write {pdu : Pdu} {cursor : Cursor} {octets more : Octets}
    (listed : pdu.kind ∈ PduKind.catalog) (regular : pdu.IsRegular)
    (written : pdu.write = ⟨octets, none⟩) (declared : pdu.header.length = octets.length)
    (inside : cursor.position ≤ cursor.length) (ahead : cursor.ahead = octets ++ more) :
    pdu.kind.deserialize cursor = (.ok pdu.norm, cursor.advance octets.length) := by
  rcases regular with ⟨shape, type, family⟩
  rcases PduKind.key_of_norm listed type family with ⟨key, stamped⟩
  rcases write_eq_complete.mp written with ⟨front, body, header, rest, rfl⟩
  rw [List.append_assoc] at ahead
  have twelve := (Header.places_write header).1.size
  have read := (Header.steady _).read (body ++ more) (Header.read_of_write header)
  rw [← ahead, shape] at read
  have ran := Cursor.run_of_ok inside ahead read
  rw [twelve] at ran
  have declares : pdu.header.norm.length = pduHeaderSize + (body.length : Int) := by
    rw [pdu.header.length_norm, declared, List.length_append, twelve]
    rfl
  have count : pdu.header.norm.bodyLength = body.length := by
    rw [Header.bodyLength, declares]
    omega
  have behind : (cursor.advance pduHeaderSize).ahead = body ++ more := by
    rw [Cursor.ahead_advance, ahead, ← twelve, List.drop_left]
  have left : (cursor.advance pduHeaderSize).remaining = body.length + more.length := by
    rw [← Cursor.length_ahead, behind, List.length_append]
  have parsed : Frame.readBody pdu.kind pdu.header.norm body = .ok pdu.norm := by
    apply Frame.readBody_eq_ok.mpr
    refine ⟨_, pdu.kind.body.read_of_write (PduKind.isSound_of_mem _ listed) rest, ?_⟩
    rw [Pdu.new, stamped pdu.header.norm.length]
    rfl
  rw [PduKind.deserialize, ran]
  dsimp only
  rw [if_pos (PduKey.mk.inj key), PduKind.deserializeBody_eq, count, if_neg (by omega),
    if_neg (by omega), Int.toNat_natCast, behind, List.take_left, parsed, Cursor.advance_advance,
    List.length_append, twelve]

end Pdu

namespace Wire

namespace Kind

/-- Is it one of the library's own kinds, which the catalogue of PDUs and of records list? -/
def IsListed : Kind → Prop
  | record kind => kind ∈ RecordKind.withHeaders
  | header _ => True
  | pdu kind => kind ∈ PduKind.catalog

end Kind

namespace Value

/-- The value that is read after one was written. -/
def norm : Value → Value
  | record r => .record ⟨r.kind, r.kind.layout.norm r.value⟩
  | header h => .header h.norm
  | pdu p => .pdu p.norm

def Becomes (before after : Value) : Prop :=
  match before with
  | record r => ∃ value, r.kind.layout.Becomes r.value value ∧ after = .record ⟨r.kind, value⟩
  | header h => ∃ later, h.Becomes later ∧ after = .header later
  | pdu p => ∃ later, p.Becomes later ∧ after = .pdu later

/-- Only PDUs can be irregular. -/
def IsRegular : Value → Prop
  | pdu p => p.IsRegular
  | _ => True

variable {value : Value} {octets : Octets} {limit : Int}

/-- An attempt that leaves the value as it is puts out what writing it does, and a PDU then
declares as much. -/
theorem write_of_encode (encoded : (value.encode limit).value = (.ok octets, value)) :
    value.write = ⟨octets, none⟩ ∧ ∀ p, value = .pdu p → p.header.length = octets.length := by
  cases value with
  | record r =>
      refine ⟨RecordKind.encode_eq_ok.mp (Prod.mk.inj encoded).1, fun p same => ?_⟩
      cases same
  | header h =>
      refine ⟨RecordKind.encode_eq_ok.mp (Prod.mk.inj encoded).1, fun p same => ?_⟩
      cases same
  | pdu p =>
      rcases Prod.mk.inj encoded with ⟨encoded, kept⟩
      rcases Pdu.encode_eq_ok encoded with ⟨-, -, stored, written⟩
      injection kept with kept
      rw [stored] at kept
      rw [kept] at written
      refine ⟨written, ?_⟩
      rintro _ ⟨⟩
      exact congrArg (·.header.length) kept.symm

theorem byteLength_of_write (listed : value.kind.IsListed)
    (written : value.write = ⟨octets, none⟩) : value.byteLength = .ok octets.length := by
  cases value with
  | record r =>
      exact RecordKind.byteLength_of_encode listed (RecordKind.encode_eq_ok.mpr written)
  | header h =>
      exact RecordKind.byteLength_of_encode h.shape.listed (RecordKind.encode_eq_ok.mpr written)
  | pdu p => exact Pdu.byteLength_of_write (PduKind.sizeRule_of_mem _ listed) written

theorem becomes_norm (written : value.write = ⟨octets, none⟩) : value.Becomes value.norm := by
  cases value with
  | record r => exact ⟨_, r.kind.layout.becomes_norm written, rfl⟩
  | header h => exact ⟨_, ⟨_, Layout.becomes_norm _ written, rfl⟩, rfl⟩
  | pdu p =>
      rcases Pdu.write_eq_complete.mp written with ⟨front, back, header, body, -⟩
      have front : p.header.Becomes p.header.norm := ⟨_, Layout.becomes_norm _ header, rfl⟩
      exact ⟨_, ⟨_, _, front, p.kind.body.becomes_norm body, rfl⟩, rfl⟩

theorem deserialize_of_write {cursor : Cursor} {more : Octets} (listed : value.kind.IsListed)
    (ends : ∀ kind ∈ RecordKind.withTails, value.kind ≠ .record kind) (regular : value.IsRegular)
    (written : value.write = ⟨octets, none⟩)
    (declared : ∀ p, value = .pdu p → p.header.length = octets.length)
    (inside : cursor.position ≤ cursor.length) (ahead : cursor.ahead = octets ++ more) :
    value.kind.deserialize cursor = (.ok value.norm, cursor.advance octets.length) := by
  cases value with
  | record r =>
      have other : r.kind ∉ RecordKind.withTails := fun tailed => ends _ tailed rfl
      have read := RecordKind.deserialize_of_write listed other written inside ahead
      simp only [kind, Kind.deserialize, read]
      rfl
  | header h =>
      have other : h.shape.kind ∉ RecordKind.withTails := by
        cases h.shape <;> decide +kernel
      have read := RecordKind.deserialize_of_write h.shape.listed other written inside ahead
      simp only [kind, Kind.deserialize, read]
      rfl
  | pdu p =>
      have read := Pdu.deserialize_of_write listed regular written (declared p rfl) inside ahead
      simp only [kind, Kind.deserialize, read]
      rfl

end Value

theorem Kind.advance_of_deserialize {kind : Kind} {cursor later : Cursor} {value : Value}
    (listed : kind.IsListed) (read : kind.deserialize cursor = (.ok value, later)) :
    ∃ size : Nat, value.byteLength = .ok size ∧ later = cursor.advance size := by
  cases kind with
  | record kind =>
      rcases result : kind.deserialize cursor with ⟨outcome, stop⟩
      simp only [deserialize, result] at read
      cases outcome with
      | error e => cases read
      | ok found =>
          cases read
          exact RecordKind.advance_of_deserialize listed result
  | header shape =>
      rcases result : shape.kind.deserialize cursor with ⟨outcome, stop⟩
      simp only [deserialize, result] at read
      cases outcome with
      | error e => cases read
      | ok found =>
          cases read
          rcases RecordKind.advance_of_deserialize shape.listed result with ⟨size, sized, same⟩
          refine ⟨size, ?_, same⟩
          rw [← sized]
          cases shape <;> rfl
  | pdu kind =>
      rcases result : kind.deserialize cursor with ⟨outcome, stop⟩
      simp only [deserialize, result] at read
      cases outcome with
      | error e => cases read
      | ok found =>
          cases read
          exact PduKind.advance_of_deserialize listed result

/-- A value of one of the library's own kinds that ends by itself and encodes to those octets
as it stands, a PDU with its size in the header. -/
structure Value.Composes (value : Value) (octets : Octets) : Prop where
  listed : value.kind.IsListed
  ends : ∀ kind ∈ RecordKind.withTails, value.kind ≠ .record kind
  regular : value.IsRegular
  encoded : ∃ limit, (value.encode limit).value = (.ok octets, value)

end Wire

namespace Cursor

/-- Writes the values in order, up to the first that cannot be written. -/
def serializeAll : List Wire.Value → Cursor → Except Error Unit × Cursor
  | [], cursor => (.ok (), cursor)
  | value :: rest, cursor =>
    match cursor.put value.write with
    | (.ok (), cursor) => serializeAll rest cursor
    | (.error e, cursor) => (.error e, cursor)

/-- Reads a value of each kind in order, up to the first that cannot be read. -/
def deserializeAll : List Wire.Kind → Cursor → Except Error (List Wire.Value) × Cursor
  | [], cursor => (.ok [], cursor)
  | kind :: rest, cursor =>
    match kind.deserialize cursor with
    | (.ok value, cursor) =>
      let (values, cursor) := deserializeAll rest cursor
      (values.map (value :: ·), cursor)
    | (.error e, cursor) => (.error e, cursor)

variable {pieces : List (Wire.Value × Octets)}

theorem serializeAll_of_write (written : ∀ piece ∈ pieces, piece.1.write = ⟨piece.2, none⟩)
    (cursor : Cursor) :
    cursor.serializeAll (pieces.map Prod.fst) =
      (.ok (), cursor.write (pieces.map Prod.snd).flatten) := by
  induction pieces generalizing cursor with
  | nil => exact congrArg (Prod.mk _) cursor.write_nil.symm
  | cons piece rest ih =>
      have first := written piece List.mem_cons_self
      have later := ih (fun other listed => written other (List.mem_cons_of_mem piece listed))
        (cursor.write piece.2)
      rw [List.map_cons, serializeAll, first, List.map_cons, List.flatten_cons, ← write_write]
      exact later

theorem deserializeAll_of_composes (composes : ∀ piece ∈ pieces, piece.1.Composes piece.2)
    {cursor : Cursor} {more : Octets} (inside : cursor.position ≤ cursor.length)
    (ahead : cursor.ahead = (pieces.map Prod.snd).flatten ++ more) :
    cursor.deserializeAll (pieces.map fun piece => piece.1.kind) =
      (.ok (pieces.map fun piece => piece.1.norm),
        cursor.advance (pieces.map fun piece => piece.2.length).sum) := by
  induction pieces generalizing cursor with
  | nil => rfl
  | cons piece rest ih =>
      rw [List.map_cons, List.flatten_cons, List.append_assoc] at ahead
      rcases composes piece List.mem_cons_self with ⟨listed, ends, regular, limit, encoded⟩
      rcases Wire.Value.write_of_encode encoded with ⟨written, declared⟩
      have first := Wire.Value.deserialize_of_write listed ends regular written declared inside
        ahead
      have enough : piece.2.length ≤ cursor.remaining := by
        rw [← length_ahead, ahead, List.length_append]
        exact Nat.le_add_right _ _
      have behind : (cursor.advance piece.2.length).ahead =
          (rest.map Prod.snd).flatten ++ more := by
        rw [ahead_advance, ahead, List.drop_left]
      have later := ih (fun other listed => composes other (List.mem_cons_of_mem piece listed))
        (inside_advance inside enough) behind
      rw [List.map_cons, deserializeAll, first]
      dsimp only
      rw [later, advance_advance, List.map_cons, List.map_cons, List.sum_cons]
      rfl

end Cursor

/-- Values on one cursor. Each is written over as many octets as its size says, wherever the
cursor stands; a value that was read took as many as its size says; and a sequence that was
written is read back in order from any place, with each read ending where the next begins and
nothing taken of what follows. -/
theorem composition_law :
    (∀ (value : Wire.Value) octets limit (cursor : Cursor), value.kind.IsListed →
      (value.encode limit).value = (.ok octets, value) →
        cursor.put value.write = (.ok (), ⟨cursor.octets.take cursor.position ++ octets ++
          cursor.octets.drop (cursor.position + octets.length), cursor.position + octets.length⟩) ∧
        value.byteLength = .ok octets.length) ∧
    (∀ (kind : Wire.Kind) (cursor later : Cursor) value, kind.IsListed →
      kind.deserialize cursor = (.ok value, later) →
        ∃ size : Nat, value.byteLength = .ok size ∧
          later = ⟨cursor.octets, cursor.position + size⟩) ∧
    (∀ pieces : List (Wire.Value × Octets), (∀ piece ∈ pieces, piece.1.Composes piece.2) →
      (∀ cursor : Cursor, cursor.serializeAll (pieces.map Prod.fst) =
        (.ok (), cursor.write (pieces.map Prod.snd).flatten)) ∧
      (∀ lead tail count,
        Cursor.deserializeAll ((pieces.take count).map fun piece => piece.1.kind)
            ⟨lead ++ (pieces.map Prod.snd).flatten ++ tail, lead.length⟩ =
          (.ok ((pieces.take count).map fun piece => piece.1.norm),
            ⟨lead ++ (pieces.map Prod.snd).flatten ++ tail,
              lead.length + ((pieces.take count).map fun piece => piece.2.length).sum⟩)) ∧
      (∀ lead tail, (Cursor.deserializeAll (pieces.map fun piece => piece.1.kind)
        ⟨lead ++ (pieces.map Prod.snd).flatten ++ tail, lead.length⟩).2.ahead = tail) ∧
      ∀ piece ∈ pieces,
        piece.1.byteLength = .ok piece.2.length ∧ piece.1.Becomes piece.1.norm) := by
  refine ⟨?_, ?_, ?_⟩
  · intro value octets limit cursor listed encoded
    have written := (Wire.Value.write_of_encode encoded).1
    rw [written]
    exact ⟨rfl, Wire.Value.byteLength_of_write listed written⟩
  · intro kind cursor later value listed read
    exact Wire.Kind.advance_of_deserialize listed read
  · intro pieces composes
    have written : ∀ piece ∈ pieces, piece.1.write = ⟨piece.2, none⟩ := by
      intro piece listed
      rcases (composes piece listed).encoded with ⟨limit, encoded⟩
      exact (Wire.Value.write_of_encode encoded).1
    refine ⟨Cursor.serializeAll_of_write written, ?_, ?_, ?_⟩
    · intro lead tail count
      have split : (pieces.map Prod.snd).flatten ++ tail =
          ((pieces.take count).map Prod.snd).flatten ++
            (((pieces.drop count).map Prod.snd).flatten ++ tail) := by
        rw [← List.append_assoc, ← List.flatten_append, ← List.map_append, List.take_append_drop]
      exact Cursor.deserializeAll_of_composes
        (fun piece listed => composes piece (List.mem_of_mem_take listed))
        (Cursor.inside_ofParts lead _ tail) ((Cursor.ahead_ofParts lead _ tail).trans split)
    · intro lead tail
      have ahead := Cursor.ahead_ofParts lead (pieces.map Prod.snd).flatten tail
      have total : (pieces.map fun piece => piece.2.length).sum =
          (pieces.map Prod.snd).flatten.length := by
        rw [List.length_flatten, List.map_map]
        rfl
      rw [Cursor.deserializeAll_of_composes composes (Cursor.inside_ofParts lead _ tail) ahead,
        Cursor.ahead_advance, ahead, total, List.drop_left]
    · intro piece listed
      exact ⟨Wire.Value.byteLength_of_write (composes piece listed).listed (written piece listed),
        Wire.Value.becomes_norm (written piece listed)⟩

/-- An identifier written into the middle of other octets and read back from there, and one
with a request to create an entity behind it, with two octets behind both. -/
theorem composition_law_samples :
    let first : Wire.Value := .record ⟨.entityId, EntityId.of 1 2 3⟩
    let second : Wire.Value := .pdu (Pdu.withLength (.new .createEntity (.initial .standard)
      (EntityId.of 1 2 3, EntityId.of 4 5 6, (7 : Int), ())) 28)
    let octets : Octets := [7, 1, 11, 5, 0, 0, 0, 0, 0, 28, 0, 0, 0, 1, 0, 2, 0, 3, 0, 4, 0, 5,
      0, 6, 0, 0, 0, 7]
    Cursor.put ⟨[5, 5, 5], 1⟩ first.write = (.ok (), ⟨[5, 0, 1, 0, 2, 0, 3], 7⟩) ∧
    (∃ size : Nat, first.byteLength = .ok size ∧
      (⟨[5, 0, 1, 0, 2, 0, 3], 7⟩ : Cursor) = ⟨[5, 0, 1, 0, 2, 0, 3], 1 + size⟩) ∧
    Cursor.deserializeAll [first.kind, second.kind]
        (.ofOctets ([0, 1, 0, 2, 0, 3] ++ octets ++ [9, 9])) =
      (.ok [first.norm, second.norm], ⟨[0, 1, 0, 2, 0, 3] ++ octets ++ [9, 9], 34⟩) := by
  intro first second octets
  rcases composition_law with ⟨puts, takes, sequences⟩
  have listed : RecordKind.entityId ∈ RecordKind.withHeaders := by decide +kernel
  have identifier : first.Composes [0, 1, 0, 2, 0, 3] := by
    refine ⟨listed, ?_, trivial, maxPduSize, rfl⟩
    intro kind tailed same
    injection same with same
    subst same
    exact absurd tailed (by decide +kernel)
  have request : second.Composes octets := by
    refine ⟨List.mem_of_getElem? (i := 6) rfl, ?_, ⟨rfl, rfl, rfl⟩, maxPduSize, ?_⟩
    · intro kind tailed same
      cases same
    · exact Prod.ext (by decide +kernel) rfl
  refine ⟨(puts first _ maxPduSize ⟨[5, 5, 5], 1⟩ listed rfl).1, ?_, ?_⟩
  · have read : Wire.Kind.deserialize (.record .entityId) ⟨[5, 0, 1, 0, 2, 0, 3], 1⟩ =
        (.ok first, ⟨[5, 0, 1, 0, 2, 0, 3], 7⟩) := by
      set_option maxRecDepth 4096 in
      rfl
    exact takes (.record .entityId) ⟨[5, 0, 1, 0, 2, 0, 3], 1⟩ _ first listed read
  · have composes : ∀ piece ∈ [(first, [0, 1, 0, 2, 0, 3]), (second, octets)],
        piece.1.Composes piece.2 := by
      intro piece present
      rcases List.mem_cons.mp present with rfl | present
      · exact identifier
      · rw [List.mem_singleton.mp present]
        exact request
    exact (sequences _ composes).2.1 [] [9, 9] 2

end Dis

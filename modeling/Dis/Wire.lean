import Dis.Frame

/-! Cursors: octets with one position for reading and writing. -/

namespace Dis

structure Cursor where
  octets : Octets
  position : Nat
  deriving DecidableEq

namespace Cursor

def ofOctets (octets : Octets) : Cursor := ⟨octets, 0⟩

variable (cursor : Cursor)

def length : Nat := cursor.octets.length

def remaining : Nat := cursor.length - cursor.position

def atEnd : Bool := cursor.remaining == 0

def ahead : Octets := cursor.octets.drop cursor.position

/-- The next octets; the cursor stays where it is if they are not all there. -/
def read (size : Int) : Except Error Octets × Cursor :=
  if size < 0 then (.error (.negativeRead size), cursor)
  else if cursor.remaining < size then
    (.error (.cursorShort size cursor.position cursor.remaining), cursor)
  else
    let octets := cursor.ahead.take size.toNat
    (.ok octets, { cursor with position := cursor.position + octets.length })

/-- Reads the next octets, and steps back over what was read. -/
def peek (size : Int) : Except Error Octets × Cursor :=
  match cursor.read size with
  | (.ok octets, later) =>
    (.ok octets, { later with position := later.position - octets.length })
  | (.error e, later) => (.error e, later)

def take (size : Int) : Except Error Cursor × Cursor :=
  let (octets, cursor) := cursor.read size
  (octets.map ofOctets, cursor)

/-- Overwrites the octets at the position, and extends them past the end. -/
def write (octets : Octets) : Cursor :=
  let position := cursor.position + octets.length
  ⟨cursor.octets.take cursor.position ++ octets ++ cursor.octets.drop position, position⟩

def put (written : Written) : Except Error Unit × Cursor :=
  (match written.fault with
    | none => .ok ()
    | some fault => .error (.write fault),
    cursor.write written.octets)

/-- Runs a reader at the position, which ends where the reader stopped. -/
def run {α : Type} (reader : Reader α) : Except Error α × Cursor :=
  let goTo := fun (rest : Octets) => { cursor with position := cursor.length - rest.length }
  match reader cursor.ahead with
  | .ok value rest => (.ok value, goTo rest)
  | .error fault rest => (.error (.read fault), goTo rest)

end Cursor

namespace RecordKind

def deserialize (kind : RecordKind) (cursor : Cursor) : Except Error kind.Value × Cursor :=
  if kind.lengthBound then (.error (.lengthUnknown kind.name), cursor)
  else cursor.run kind.layout.read

def deserializeWithLength (size : Int) (cursor : Cursor) : Except Error (Option Octets) × Cursor :=
  if size = 0 then (.ok none, cursor)
  else
    let (octets, cursor) := cursor.read size
    (octets.map some, cursor)

end RecordKind

namespace PduKind

/-- Reads the body that a header declares. It is taken off the cursor first, so the
cursor ends behind the PDU whatever its body holds. -/
def deserializeBody (kind : PduKind) (header : Header) (cursor : Cursor) :
    Except Error Pdu × Cursor :=
  match Frame.checkLength header with
  | .error e => (.error e, cursor)
  | .ok () =>
    let (body, cursor) := cursor.read header.bodyLength
    (body.bind (Frame.readBody kind header), cursor)

def deserialize (kind : PduKind) (cursor : Cursor) : Except Error Pdu × Cursor :=
  match cursor.run (Header.read kind.header) with
  | (.error e, cursor) => (.error e, cursor)
  | (.ok header, cursor) =>
    let (pduType, family) := (header.pduType.number, header.protocolFamily.number)
    if pduType = kind.pduType ∧ family = kind.family then
      kind.deserializeBody header cursor
    else (.error (.otherKey kind.name pduType family), cursor)

end PduKind
end Dis

/-! Everything that has a wire form: records, headers and PDUs. -/

namespace Dis.Wire

inductive Kind where
  | record (kind : RecordKind)
  | header (shape : HeaderShape)
  | pdu (kind : PduKind)

inductive Value where
  | record (r : Record)
  | header (h : Header)
  | pdu (p : Pdu)

namespace Kind

def name : Kind → String
  | record kind => kind.name
  | header shape => shape.kind.name
  | pdu kind => kind.name

def isLengthBound : Kind → Bool
  | record kind => kind.lengthBound
  | _ => false

def catalog : List Kind :=
  RecordKind.catalog.map .record ++ [.header .standard, .header .liveEntity] ++
    (PduKind.unknown :: PduKind.simulationManagement :: PduKind.catalog).map .pdu

def decode (registry : Registry) (kind : Kind) (data : Octets) : Logged (Except Error Value) :=
  match kind with
  | record kind => .pure ((kind.decode data).map fun value => .record ⟨kind, value⟩)
  | header shape => .pure ((Header.decode shape data).map .header)
  | pdu kind => (Frame.decodeAs registry kind data).map fun decoded => decoded.map .pdu

def deserialize (kind : Kind) (cursor : Cursor) : Except Error Value × Cursor :=
  match kind with
  | record kind =>
    let (value, cursor) := kind.deserialize cursor
    (value.map fun value => .record ⟨kind, value⟩, cursor)
  | header shape =>
    let (value, cursor) := shape.kind.deserialize cursor
    (value.map fun value => .header (.ofValue shape value), cursor)
  | pdu kind =>
    let (decoded, cursor) := kind.deserialize cursor
    (decoded.map .pdu, cursor)

end Kind

namespace Value

def kind : Value → Kind
  | record r => .record r.kind
  | header h => .header h.shape
  | pdu p => .pdu p.kind

def byteLength : Value → Except Error Int
  | record r => r.byteLength
  | header h => h.toRecord.byteLength
  | pdu p => p.byteLength

def write : Value → Written
  | record r => r.kind.layout.write r.value
  | header h => h.write
  | pdu p => p.write

/-- The octets of the value, and the value that the attempt leaves: only PDUs have a
limit, and only PDUs store their size. -/
def encode (limit : Int) (value : Value) : Logged (Except Error Octets × Value) :=
  match value with
  | record r => .pure (r.encode, value)
  | header h => .pure (h.encode, value)
  | pdu p => (p.encode limit).map fun encoding => (encoding.outcome, pdu encoding.pdu)

def finalize (limit : Int) (value : Value) : Logged (Except Error (Int × Value)) :=
  match value with
  | pdu p => (p.finalize limit).map fun done => done.map fun (length, p) => (length, pdu p)
  | other =>
    match other.byteLength with
    | .error e => .pure (.error e)
    | .ok length =>
      if limit < length then
        ⟨.error (.sizeExceeded length limit), [.rejected other.kind.name length limit]⟩
      else .pure (.error (.noMember other.kind.name "header"))

def encodeFrame (limit : Int) (value : Value) : Logged (Except Error Octets × Value) :=
  match value with
  | pdu _ => value.encode limit
  | other => (other.finalize limit).map fun done => (done.map fun _ => [], other)

def sameValue : Value → Value → Bool
  | record a, record b => a.sameValue b
  | header a, header b => a.sameValue b
  | pdu a, pdu b => a.sameValue b
  | _, _ => false

end Value
end Dis.Wire

/-! Operations on cursors that are known by name. Each works on one cursor; taking
octets off a cursor makes a new one. -/

namespace Dis.Cursor

inductive Operation where
  | read (size : Int)
  | peek (size : Int)
  -- Takes octets as a cursor that gets a name of its own.
  | take (size : Int) (name : String)
  | write (octets : Octets)
  -- Asks for all octets, whatever the position.
  | contents
  | serialize (value : Wire.Value)
  | deserialize (kind : Wire.Kind)
  -- Reads an opaque record of a kind and a size.
  | deserializeWithLength (kind : Wire.Kind) (size : Int)

inductive Outcome where
  | done
  | octets (octets : Octets)
  | child (name : String) (cursor : Cursor)
  | value (value : Wire.Value)
  | blob (kind : String) (octets : Option Octets)

def readSized (kind : Wire.Kind) (size : Int) (cursor : Cursor) : Except Error Outcome × Cursor :=
  if kind.isLengthBound then
    let (octets, cursor) := RecordKind.deserializeWithLength size cursor
    (octets.map (.blob kind.name), cursor)
  else (.error (.notOfKind kind.name "deserialize_with_length"), cursor)

def apply (operation : Operation) (cursor : Cursor) : Except Error Outcome × Cursor :=
  match operation with
  | .read size =>
    let (octets, cursor) := cursor.read size
    (octets.map .octets, cursor)
  | .peek size =>
    let (octets, cursor) := cursor.peek size
    (octets.map .octets, cursor)
  | .take size name =>
    let (child, cursor) := cursor.take size
    (child.map (.child name), cursor)
  | .write octets => (.ok .done, cursor.write octets)
  | .contents => (.ok (.octets cursor.octets), cursor)
  | .serialize value =>
    let (result, cursor) := cursor.put value.write
    (result.map fun _ => .done, cursor)
  | .deserialize kind =>
    let (value, cursor) := kind.deserialize cursor
    (value.map .value, cursor)
  | .deserializeWithLength kind size => cursor.readSized kind size

abbrev Family := List (String × Cursor)

namespace Family

def put (name : String) (cursor : Cursor) (family : Family) : Family :=
  (name, cursor) :: family.filter fun entry => entry.1 ≠ name

/-- What an operation leaves: its outcome, the cursor it worked on, and all cursors. -/
structure Step where
  outcome : Except Error Outcome
  cursor : Cursor
  family : Family

def step? (name : String) (operation : Operation) (family : Family) : Option Step := do
  let (outcome, cursor) := (← family.lookup name).apply operation
  let moved := family.put name cursor
  match outcome with
  | .ok (.child name child) => return ⟨outcome, cursor, moved.put name child⟩
  | _ => return ⟨outcome, cursor, moved⟩

end Family
end Dis.Cursor

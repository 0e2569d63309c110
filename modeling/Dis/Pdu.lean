import Dis.Header
import Dis.Log.Event

/-! PDUs: a header and a body. The kind of a PDU fixes its type, its family, the
shape of its header and the layout of its body. -/

namespace Dis

/-- The pair of numbers by which a PDU finds its kind. -/
structure PduKey where
  pduType : Int
  family : Int
  deriving DecidableEq

/-- What tells one kind from any other, whatever their names. -/
inductive Token where
  | unknown
  | entityState | fire | detonation | transmitter | signal | receiver
  | simulationManagement
  | createEntity | removeEntity | startResume | stopFreeze | acknowledge | actionRequest
  | actionResponse | dataQuery | setData | data | eventReport | comment
  -- A kind that is none of these has a number of its own.
  | other (number : Nat)
  deriving DecidableEq

structure PduKind where
  token : Token
  name : String
  pduType : Nat
  family : Nat
  header : HeaderShape
  body : Layout
  -- Kinds without a reading of their own keep the header as it is given.
  stampsHeader : Bool := true
  -- A size rule of the kind's own, in place of the sum over the members.
  sizeRule : Option (Header → body.Value → Int) := none
  -- The kinds that this one is a special form of.
  generals : List Token := []

namespace PduKind

variable (kind : PduKind)

def key : PduKey := ⟨kind.pduType, kind.family⟩

def typeCode : Code .pduType := Enumeration.pduType.decode kind.pduType
def familyCode : Code .protocolFamily := Enumeration.protocolFamily.decode kind.family

def isA (other : PduKind) : Bool :=
  kind.token == other.token || kind.generals.contains other.token

def bodyLength (header : Header) (body : kind.body.Value) : Except Error Int :=
  match kind.sizeRule with
  | some rule => .ok (rule header body)
  | none => if kind.body.isCounted body then .ok (kind.body.size body) else .error .bitsMissing

def stamp (header : Header) : Header :=
  if kind.stampsHeader then
    { header with pduType := kind.typeCode, protocolFamily := kind.familyCode }
  else header

end PduKind

/-- A PDU without a kind of its own: the body is kept as octets. -/
def PduKind.unknown : PduKind where
  token := .unknown
  name := "UnknownPdu"
  pduType := 0
  family := 0
  header := .standard
  body := .tail "body"
  stampsHeader := false

structure Pdu where
  kind : PduKind
  header : Header
  body : kind.body.Value

namespace Pdu

/-- A PDU owns its header, which names its type and family. -/
def new (kind : PduKind) (header : Header) (body : kind.body.Value) : Pdu :=
  ⟨kind, kind.stamp header, body⟩

variable (pdu : Pdu)

def bodyLength : Except Error Int := pdu.kind.bodyLength pdu.header pdu.body

def byteLength : Except Error Int := pdu.bodyLength.map fun length => pduHeaderSize + length

def write : Written := pdu.header.write ++ pdu.kind.body.write pdu.body

def withLength (length : Int) : Pdu := { pdu with header := { pdu.header with length } }

def sameValue (a b : Pdu) : Bool :=
  if h : a.kind.body = b.kind.body then
    a.kind.token == b.kind.token && a.header.sameValue b.header &&
      b.kind.body.sameValue (h ▸ a.body) b.body
  else false

/-- Stores the size in the header. A PDU above the limit is left as it is. -/
def finalize (limit : Int) : Logged (Except Error (Int × Pdu)) :=
  match pdu.byteLength with
  | .error e => .pure (.error e)
  | .ok length =>
    if limit < length then
      ⟨.error (.sizeExceeded length limit), [.rejected pdu.kind.name length limit]⟩
    else .pure (.ok (length, pdu.withLength length))

/-- The octets of a PDU whose header holds its size, if they are as many. -/
def octetsOfSize (length : Int) : Except Error Octets :=
  match pdu.write.complete with
  | .error fault => .error (.write fault)
  | .ok octets =>
    if octets.length = length then .ok octets
    else .error (.sizeMismatch pdu.kind.name length octets.length)

/-- What an attempt to encode leaves: its outcome, and the PDU with the header
that the attempt stored. -/
structure Encoding where
  outcome : Except Error Octets
  pdu : Pdu

def encode (limit : Int) : Logged Encoding :=
  (pdu.finalize limit).map fun
    | .error e => ⟨.error e, pdu⟩
    | .ok (length, finalized) => ⟨finalized.octetsOfSize length, finalized⟩

end Pdu
end Dis

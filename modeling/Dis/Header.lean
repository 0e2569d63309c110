import Dis.Record.Catalog

/-! Sizes and versions that the standard fixes, in octets unless the name says otherwise. -/

namespace Dis

def pduHeaderSize : Nat := 12
def maxPduSize : Nat := 8192
def maxPduSizeBits : Nat := maxPduSize * 8
def maxPduBodySize : Nat := maxPduSize - pduHeaderSize

def maxMarkingLength : Nat := 32

def protocolVersion1995 : Nat := 5
def protocolVersion1998 : Nat := 6
def protocolVersion2012 : Nat := 7

def liveEntityFamily : Nat := 11

/-- Where the family and the length stand in every header. -/
def headerFamilyOffset : Nat := 3
def headerLengthOffset : Nat := 8

def signalBoundary : Nat := 32

def isValidProtocolVersion (version : Int) : Bool :=
  version == protocolVersion1995 || version == protocolVersion1998 ||
    version == protocolVersion2012

def isValidPduSize (size : Int) (limit : Int := maxPduSize) : Bool :=
  pduHeaderSize ≤ size && size ≤ limit

/-- Padding up to any boundary but none. -/
def paddingOctetsChecked (bits : Int) (boundary : Int := RecordKind.datumBoundary) :
    Except Error Int :=
  if boundary = 0 then .error .zeroModulus else .ok (paddingOctets bits boundary)

/-! PDU headers. Both shapes take 12 octets; the standard one ends with the PDU
status, that of live entities with a subprotocol, and either with a zero octet. -/

inductive HeaderShape where
  | standard
  | liveEntity
  deriving DecidableEq

namespace HeaderShape

def ofFamily (family : Int) : HeaderShape :=
  if family = liveEntityFamily then liveEntity else standard

abbrev common (rest : Layout) : Layout :=
  .atom "protocol_version" (.enum .protocolVersion .u8 protocolVersion2012) <|
  .atom "exercise_id" (.int .u8 1) <|
  .enum8 "pdu_type" .pduType <| .enum8 "protocol_family" .protocolFamily <|
  .u32 "timestamp" <| .u16 "length" rest

def kind : HeaderShape → RecordKind
  | standard => ⟨"PduHeader",
      common <| .sub "status" FlagWord.pduStatus.kind <| .padding 1 .done, false,
      some pduHeaderSize⟩
  | liveEntity => ⟨"LiveEntityPduHeader",
      common <| .enum8 "subprotocol" .liveEntitySubprotocol <| .padding 1 .done, false,
      some pduHeaderSize⟩

end HeaderShape

inductive Trailer where
  | status (status : FlagWord.pduStatus.Value)
  | subprotocol (subprotocol : Code .liveEntitySubprotocol)

structure Header where
  protocolVersion : Code .protocolVersion
  exerciseId : Int
  pduType : Code .pduType
  protocolFamily : Code .protocolFamily
  timestamp : Int
  length : Int
  trailer : Trailer

namespace Header

def shape (header : Header) : HeaderShape :=
  match header.trailer with
  | .status _ => .standard
  | .subprotocol _ => .liveEntity

/-- The members of the header, as a record of its shape holds them. -/
def value : (header : Header) → header.shape.kind.Value
  | ⟨version, exercise, type, family, timestamp, length, .status status⟩ =>
    (version, exercise, type, family, timestamp, length, status, ())
  | ⟨version, exercise, type, family, timestamp, length, .subprotocol subprotocol⟩ =>
    (version, exercise, type, family, timestamp, length, subprotocol, ())

def toRecord (header : Header) : Record := ⟨header.shape.kind, header.value⟩

/-- The header that a record of a shape's kind holds. -/
def ofValue : (shape : HeaderShape) → shape.kind.Value → Header
  | .standard, (version, exercise, type, family, timestamp, length, status, ()) =>
    ⟨version, exercise, type, family, timestamp, length, .status status⟩
  | .liveEntity, (version, exercise, type, family, timestamp, length, subprotocol, ()) =>
    ⟨version, exercise, type, family, timestamp, length, .subprotocol subprotocol⟩

@[simp] theorem ofValue_value (header : Header) : ofValue header.shape header.value = header := by
  obtain ⟨_, _, _, _, _, _, trailer⟩ := header
  cases trailer <;> rfl

def initial (shape : HeaderShape) : Header := ofValue shape shape.kind.initial

def new (shape : HeaderShape) (pduType : Code .pduType) (family : Code .protocolFamily)
    (exerciseId bodyLength timestamp : Int) (version : Code .protocolVersion) : Header :=
  { initial shape with
    protocolVersion := version, exerciseId, pduType, protocolFamily := family, timestamp,
    length := pduHeaderSize + bodyLength }

def withStatusOf (header source : Header) : Header :=
  match header.trailer, source.trailer with
  | .status _, .status status => { header with trailer := .status status }
  | _, _ => header

def bodyLength (header : Header) : Int := header.length - pduHeaderSize

def write (header : Header) : Written := header.shape.kind.layout.write header.value

def read (shape : HeaderShape) : Reader Header := ofValue shape <$> shape.kind.layout.read

def encode (header : Header) : Except Error Octets := header.shape.kind.encode header.value

def decode (shape : HeaderShape) (data : Octets) : Except Error Header :=
  (shape.kind.decode data).map (ofValue shape)

def sameValue (a b : Header) : Bool := a.toRecord.sameValue b.toRecord

/-- Decodes the header alone. The raw family octet settles the shape. -/
def peek (data : Octets) : Except Error Header :=
  if data.length < pduHeaderSize then .error (.headerCut data.length)
  else
    let family := (data.getD headerFamilyOffset 0).toNat
    decode (.ofFamily family) (data.take pduHeaderSize)

end Header
end Dis

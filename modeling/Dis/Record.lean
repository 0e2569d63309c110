import Dis.Error
import Dis.Layout

/-! Kinds of records and the records themselves. -/

namespace Dis

structure RecordKind where
  name : String
  layout : Layout
  -- Is the size of the record known to the record around it only?
  lengthBound : Bool := false
  -- The size that every record of the kind is said to have, if there is one.
  fixedSize : Option Nat := none
  deriving DecidableEq

namespace RecordKind

abbrev Value (kind : RecordKind) : Type := kind.layout.Value

variable (kind : RecordKind)

def initial : kind.Value := kind.layout.initial

/-- Octets of the value on the wire, found without writing it: the size of the kind
if it has one, else the sum over the members. -/
def byteLength (value : kind.Value) : Except Error Int :=
  match kind.fixedSize with
  | some size => .ok size
  | none => if kind.layout.isCounted value then .ok (kind.layout.size value) else .error .bitsMissing

def encode (value : kind.Value) : Except Error Octets :=
  (kind.layout.write value).complete.mapError .write

/-- Reads one record that takes up all the octets. -/
def decode (data : Octets) : Except Error kind.Value :=
  if kind.lengthBound then .error (.lengthUnknown kind.name)
  else match kind.layout.read data with
    | .error fault _ => .error (.read fault)
    | .ok value [] => .ok value
    | .ok _ rest => .error (.surplus kind.name (data.length - rest.length) data.length)

end RecordKind

structure Record where
  kind : RecordKind
  value : kind.Value

namespace Record

def byteLength (r : Record) : Except Error Int := r.kind.byteLength r.value

def encode (r : Record) : Except Error Octets := r.kind.encode r.value

def sameValue (a b : Record) : Bool :=
  if h : a.kind = b.kind then b.kind.layout.sameValue (h ▸ a.value) b.value else false

end Record
end Dis

/-! Short forms of the members that records are made of. -/

namespace Dis.Layout

abbrev int (name : String) (format : IntFormat) (rest : Layout) : Layout :=
  .atom name (.int format 0) rest

abbrev u8 (name : String) (rest : Layout) : Layout := int name .u8 rest
abbrev u16 (name : String) (rest : Layout) : Layout := int name .u16 rest
abbrev u32 (name : String) (rest : Layout) : Layout := int name .u32 rest

abbrev bits (name : String) (format : IntFormat) (rest : Layout) : Layout :=
  .atom name (.bits format) rest

abbrev enum8 (name : String) (e : Enumeration) (rest : Layout) : Layout :=
  .atom name (.enum e .u8 0) rest
abbrev enum16 (name : String) (e : Enumeration) (rest : Layout) : Layout :=
  .atom name (.enum e .u16 0) rest
abbrev enum32 (name : String) (e : Enumeration) (rest : Layout) : Layout :=
  .atom name (.enum e .u32 0) rest

abbrev single (name : String) (rest : Layout) : Layout := .atom name (.float .single .zero) rest
abbrev double (name : String) (rest : Layout) : Layout := .atom name (.float .double .zero) rest
abbrev fixedPoint (name : String) (rest : Layout) : Layout :=
  .atom name (.float .fixedPoint .zero) rest

abbrev sub (name : String) (kind : RecordKind) (rest : Layout) : Layout :=
  .record name kind.name kind.layout rest

abbrev subs (name : String) (kind : RecordKind) (counter : String) (rest : Layout) : Layout :=
  .records name kind.name kind.layout counter rest

abbrev counter (name : String) (format : IntFormat) (rest : Layout) : Layout :=
  .count name format none rest

end Dis.Layout

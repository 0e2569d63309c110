import Dis.Enumeration
import Dis.Layout.Fault

/-! The broad classes of errors that callers tell apart. -/

namespace Dis.Error

inductive Category where
  | decode | truncated | framing | unsupported | missingLength
  | encode | sizeExceeded
  | value | type | overflow | zeroDivision | system
  | attribute | index | key | memory | coding
  deriving DecidableEq, Repr

end Dis.Error

/-! Everything that reading and writing can refuse, by cause. The wording is in
`message`; the broad class that callers tell apart is the `category`. -/

namespace Dis

inductive Error where
  | read (fault : Located ReadFault)
  | write (fault : Located WriteFault)
  -- A record ends before the octets it was given do.
  | surplus (kind : String) (consumed total : Nat)
  -- A record whose size only the record around it knows was read without it.
  | lengthUnknown (kind : String)
  | wordRange (kind : String) (bits : Nat) (value : Int)
  -- A value, by its text, stands for no member of an enumeration.
  | notAMember (enumeration value : String)
  | headerCut (found : Nat)
  | lengthBelowHeader (declared : Int)
  | lengthMismatch (declared : Int) (supplied : Nat)
  | bodyUnread (kind : String) (declared : Int) (unread total : Nat)
  | noFrame (offset : Nat) (declared : Option Nat) (remaining : Nat)
  | unsupported (pduType : Code .pduType) (family : Code .protocolFamily)
  | otherKey (kind : String) (pduType family : Int)
  | otherKind (kind found : String)
  | sizeExceeded (size limit : Int)
  | sizeMismatch (kind : String) (computed : Int) (written : Nat)
  | alreadyRegistered (pduType family : Int) (owner : String)
  | wrongHeader (kind : String) (family : Int)
  | cursorShort (size : Int) (position remaining : Nat)
  | negativeRead (size : Int)
  | zeroModulus
  | integerTooLarge
  -- A record that lacks a number of bits has no size.
  | bitsMissing
  -- A value of a kind has nothing of a name.
  | noMember (kind name : String)
  -- A kind itself has nothing of a name.
  | notOfKind (kind name : String)
  deriving DecidableEq

namespace Error

def readCategory : ReadFault → Category
  | .short .. => .truncated
  | .overLimit => .decode
  | .notAscii _ => .decode

def writeCategory : WriteFault → Category
  | .fixedPoint .nan _ => .value
  | .fixedPoint .infinite _ => .overflow
  | _ => .encode

def causeCategory : Error → Category
  | read x => readCategory x.fault
  | write x => writeCategory x.fault
  | surplus .. => .framing
  | lengthUnknown _ => .missingLength
  | wordRange .. => .decode
  | notAMember .. => .value
  | headerCut _ => .truncated
  | lengthBelowHeader _ => .framing
  | lengthMismatch .. => .framing
  | bodyUnread .. => .framing
  | noFrame .. => .framing
  | unsupported .. => .unsupported
  | otherKey .. => .decode
  | otherKind .. => .decode
  | sizeExceeded .. => .sizeExceeded
  | sizeMismatch .. => .encode
  | alreadyRegistered .. => .value
  | wrongHeader .. => .value
  | cursorShort .. => .truncated
  | negativeRead _ => .value
  | zeroModulus => .zeroDivision
  | integerTooLarge => .overflow
  | bitsMissing => .type
  | noMember .. => .attribute
  | notOfKind .. => .attribute

/-- The numbers of any size that the wording of an error gives in decimal. Numbers that were read
off the wire, and how many octets there are of something in hand, are no such numbers. -/
def numbers : Error → List Int
  | write x => x.fault.numbers
  | sizeExceeded size limit => [size, limit]
  | sizeMismatch _ computed _ => [computed]
  | alreadyRegistered pduType family _ => [pduType, family]
  | wrongHeader _ family => [family]
  | cursorShort size .. => [size]
  | negativeRead size => [size]
  | _ => []

/-- Can the error be worded? A number of too many digits has no decimal text. -/
def isWorded (e : Error) : Bool := e.numbers.all Numeral.isShown

/-- An error that cannot be worded is never raised: the failure to word it is, in its place. -/
def category (e : Error) : Category := if e.isWorded then e.causeCategory else .value

theorem category_read (fault : Located ReadFault) :
    (read fault).category = readCategory fault.fault :=
  rfl

theorem category_eq_iff {e : Error} {category : Category} (proper : category ≠ .value) :
    e.category = category ↔ e.isWorded ∧ e.causeCategory = category := by
  by_cases worded : e.isWorded
  · simp [Error.category, worded]
  · simpa [Error.category, worded] using proper.symm

/-- The errors of malformed traffic, which a lenient walk steps over. -/
def isDecodeError (e : Error) : Bool :=
  match e.category with
  | .decode | .truncated | .framing | .unsupported => true
  | _ => false

def isEncodeError (e : Error) : Bool :=
  match e.category with
  | .encode | .sizeExceeded => true
  | _ => false

/-- Octets declared and octets met, for a framing error. -/
def extents : Error → Option Int × Option Int
  | surplus _ consumed total => (some total, some consumed)
  | lengthBelowHeader declared => (some declared, none)
  | lengthMismatch declared supplied => (some declared, some supplied)
  | bodyUnread _ declared unread _ => (some declared, some (declared - unread))
  | noFrame _ declared remaining => (declared.map Int.ofNat, some remaining)
  | _ => (none, none)

def hexText (n : Int) : String :=
  (if n < 0 then "-0x" else "0x") ++ String.ofList (Nat.toDigits 16 n.natAbs)

def text : Error → String
  | read x => ReadFault.message x
  | write x => WriteFault.message x
  | surplus kind consumed total => s!"{kind} consumed {consumed} of {total} bytes"
  | lengthUnknown kind =>
    s!"{kind} length is carried by the enclosing record; use deserialize_with_length()"
  | wordRange kind bits value => s!"{hexText value} does not fit the {bits}-bit {kind} word"
  | notAMember enumeration value => s!"{value} is not a valid {enumeration}"
  | headerCut found => s!"Need 12 header bytes, got {found}"
  | lengthBelowHeader declared =>
    s!"Header declares {declared} octets, less than the header itself"
  | lengthMismatch declared supplied =>
    s!"Header declares {declared} octets but {supplied} were supplied"
  | bodyUnread kind _ unread total => s!"{kind} body left {unread} of {total} octets unread"
  | noFrame offset declared remaining =>
    let text := (declared.map toString).getD "None"
    s!"Cannot frame PDU at offset {offset}: declared {text}, {remaining} octets left"
  | unsupported pduType family =>
    s!"Unsupported PDU type {pduType.number} in family {family.number}"
  | otherKey kind pduType family => s!"Expected {kind}, got PDU type {pduType} family {family}"
  | otherKind kind found => s!"Expected {kind}, got {found}"
  | sizeExceeded size limit => s!"PDU length {size} exceeds maximum of {limit} octets"
  | sizeMismatch kind computed written => s!"{kind} computed {computed} octets but wrote {written}"
  | alreadyRegistered pduType family owner =>
    s!"PDU type {pduType} family {family} already registered to {owner}"
  | wrongHeader kind family => s!"{kind} header shape does not match protocol family {family}"
  | cursorShort size position remaining =>
    s!"Need {size} bytes at offset {position}, only {remaining} remain"
  | negativeRead size => s!"Negative read size {size}"
  | zeroModulus => "integer modulo by zero"
  | integerTooLarge => noDoubleText
  | bitsMissing => "unsupported operand type(s) for +: 'NoneType' and 'int'"
  | noMember kind name => s!"'{kind}' object has no attribute '{name}'"
  | notOfKind kind name => s!"type object '{kind}' has no attribute '{name}'"

def message (e : Error) : String := if e.isWorded then e.text else Numeral.refusalText none

end Error
end Dis

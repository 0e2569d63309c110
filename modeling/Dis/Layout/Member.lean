import Dis.Enumeration
import Dis.Layout.Fault

/-! Whole numbers on the wire: unsigned, or in two's complement. -/

namespace Dis.IntFormat

variable (format : IntFormat)

def modulus : Nat := 256 ^ format.width

def least : Int := if format.isSigned then -(format.modulus / 2 : Nat) else 0

def greatest : Int := if format.isSigned then (format.modulus / 2 : Nat) - 1 else format.modulus - 1

def Holds (n : Int) : Prop := format.least ≤ n ∧ n ≤ format.greatest

instance (n : Int) : Decidable (format.Holds n) := inferInstanceAs (Decidable (_ ∧ _))

def octets (n : Int) : Octets := Octets.ofNat format.width (n % format.modulus).toNat

def ofOctets (octets : Octets) : Int :=
  let n : Int := Octets.toNat octets
  if n ≤ format.greatest then n else n - format.modulus

def write (n : Int) : Written :=
  if format.Holds n then ⟨format.octets n, none⟩ else .fail (.number format n)

def read : Reader Int := return format.ofOctets (← Reader.take format.width)

end Dis.IntFormat

/-! Members of fixed size that hold one value. -/

namespace Dis

inductive FloatFormat where
  | single | double | fixedPoint
  deriving DecidableEq

namespace FloatFormat

def width : FloatFormat → Nat
  | single => 4
  | double => 8
  | fixedPoint => 2

def write : FloatFormat → Binary64 → Except WriteFault Octets
  | single, x =>
    match Binary32.narrow? x with
    | some word => .ok (Octets.ofNat 4 word.bits.toNat)
    | none => .error (.single x)
  | double, x => .ok (Octets.ofNat 8 x.bits.toNat)
  | fixedPoint, x =>
    match FixedPoint.ofBinary64 x with
    | .ok word => .ok (Octets.ofNat 2 (word % 2 ^ 16).toNat)
    | .error refusal => .error (.fixedPoint refusal x)

def ofOctets : FloatFormat → Octets → Binary64
  | single, octets => Binary32.widen ⟨UInt32.ofNat (Octets.toNat octets)⟩
  | double, octets => ⟨UInt64.ofNat (Octets.toNat octets)⟩
  | fixedPoint, octets =>
    let n : Int := Octets.toNat octets
    FixedPoint.toBinary64 (if n ≤ FixedPoint.greatest then n else n - 2 ^ 16)

end FloatFormat

inductive Atom where
  | int (format : IntFormat) (start : Int)
  -- The number of bits in a later member. Values may lack it, but none is read or written
  -- without it.
  | bits (format : IntFormat)
  | enum (e : Enumeration) (format : IntFormat) (start : Int)
  | float (format : FloatFormat) (start : Binary64)
  | octets (count : Nat)
  | text (width : Nat)
  deriving DecidableEq

namespace Atom

@[reducible] def Value : Atom → Type
  | int .. => Int
  | bits _ => Option Int
  | enum e .. => Code e
  | float .. => Binary64
  | octets _ => Octets
  | text _ => String

def width : Atom → Nat
  | int format _ => format.width
  | bits format => format.width
  | enum _ format _ => format.width
  | float format _ => format.width
  | octets count => count
  | text width => width

/-- The value of a member that may be given. A number of bits that is not given, or
given as missing, is what the later member calls for. -/
def complete : (atom : Atom) → (given : Option atom.Value) → (demand : Nat) → atom.Value
  | int _ start, given, _ => given.getD start
  | bits _, given, demand => some (given.join.getD demand)
  | enum e _ start, given, _ => given.getD (e.decode start)
  | float _ start, given, _ => given.getD start
  | octets count, given, _ => given.getD (Octets.zeros count)
  | text _, given, _ => given.getD ""

def number? : (atom : Atom) → atom.Value → Option Int
  | int .., n => some n
  | bits _, n => n
  | _, _ => none

def isPresent : (atom : Atom) → atom.Value → Bool
  | bits _, (n : Option Int) => n.isSome
  | _, _ => true

def isAscii (c : Char) : Bool := c.toNat < 128

/-- One octet a character, then zeros up to the width. -/
def writeText (width : Nat) (text : String) : Except WriteFault Octets :=
  let chars := text.toList
  if !chars.all isAscii then .error (.notAscii text)
  else if width < chars.length then .error (.textLength chars.length width)
  else .ok (chars.map (fun c => UInt8.ofNat c.toNat) ++ Octets.zeros (width - chars.length))

/-- Zeros at the end are no part of the text. -/
def dropZeros (octets : Octets) : Octets := (octets.reverse.dropWhile (· == 0)).reverse

def readText (width : Nat) : Reader String := do
  let octets := dropZeros (← Reader.take width)
  if octets.all (· < 128) then
    return String.ofList (octets.map fun octet => Char.ofNat octet.toNat)
  else Reader.fail (.notAscii octets)

def write : (atom : Atom) → atom.Value → Written
  | int format _, n => format.write n
  | bits format, some n => format.write n
  | bits format, none => .fail (.missingNumber format)
  | enum _ format _, code => format.write code.number
  | float format _, x => .ofExcept (format.write x)
  | octets count, value =>
    if value.length = count then ⟨value, none⟩ else .fail (.octetCount count value.length)
  | text width, value => .ofExcept (writeText width value)

def read : (atom : Atom) → Reader atom.Value
  | int format _ => format.read
  | bits format => some <$> format.read
  | enum e format _ => return e.decode (← format.read)
  | float format _ => return format.ofOctets (← Reader.take format.width)
  | octets count => Reader.take count
  | text width => readText width

/-- Equality of values: numbers by value, so NaN differs from itself. -/
def sameValue : (atom : Atom) → atom.Value → atom.Value → Bool
  | int .., a, b => a == b
  | bits _, (a : Option Int), b => a == b
  | enum .., a, b => a.sameValue b
  | float .., a, b => a.sameValue b
  | octets _, a, b => a == b
  | text _, a, b => a == b

end Atom

/-! Sub-fields of a flag word, listed from the most significant bit down. -/

inductive BitField where
  | gap (width : Nat)
  | number (name : String) (width : Nat)
  | enum (name : String) (e : Enumeration) (width : Nat)
  | flag (name : String)
  deriving DecidableEq

namespace BitField

@[reducible] def Value : BitField → Type
  | gap _ => Unit
  | number .. => Int
  | enum _ e _ => Code e
  | flag _ => Bool

def width : BitField → Nat
  | gap width => width
  | number _ width => width
  | enum _ _ width => width
  | flag _ => 1

def name? : BitField → Option String
  | gap _ => none
  | number name _ => some name
  | enum name _ _ => some name
  | flag name => some name

def initial : (field : BitField) → field.Value
  | gap _ => ()
  | number .. => (0 : Int)
  | enum _ e _ => e.decode 0
  | flag _ => false

def number? : (field : BitField) → field.Value → Int
  | gap _, _ => 0
  | number .., n => n
  | enum .., code => code.number
  | flag _, set => if set then 1 else 0

def ofBits : (field : BitField) → Nat → field.Value
  | gap _, _ => ()
  | number .., n => (n : Int)
  | enum _ e _, n => e.decode n
  | flag _, n => n != 0

def sameValue : (field : BitField) → field.Value → field.Value → Bool
  | gap _, _, _ => true
  | number .., a, b => a == b
  | enum .., a, b => a.sameValue b
  | flag _, a, b => a == b

def bits (field : BitField) (value : field.Value) : Except WriteError Nat :=
  let n := field.number? value
  if 0 ≤ n ∧ n < 2 ^ field.width then .ok n.toNat
  else .error ((field.name?.toList.foldr Located.under)
    (.here (.subfield n (2 ^ field.width - 1))))

end BitField

namespace BitFields

@[reducible] def Value : List BitField → Type
  | [] => Unit
  | field :: rest => field.Value × Value rest

def width (fields : List BitField) : Nat := (fields.map BitField.width).sum

def initial : (fields : List BitField) → Value fields
  | [] => ()
  | field :: rest => (field.initial, initial rest)

/-- The word of all sub-fields: each stands above the bits of those after it. -/
def pack : (fields : List BitField) → Value fields → Except WriteError Nat
  | [], _ => .ok 0
  | field :: rest, (value, values) => do
    let high ← field.bits value
    let low ← pack rest values
    return high * 2 ^ width rest + low

/-- Each sub-field is the slice of the word above the bits of those after it. -/
def unpack : (fields : List BitField) → Nat → Value fields
  | [], _ => ()
  | field :: rest, word =>
    (field.ofBits (word / 2 ^ width rest % 2 ^ field.width), unpack rest word)

def sameValue : (fields : List BitField) → Value fields → Value fields → Bool
  | [], _, _ => true
  | field :: rest, (a, as), (b, bs) => field.sameValue a b && sameValue rest as bs

/-- A word is written whole or not at all. -/
def write (octets : Nat) (fields : List BitField) (values : Value fields) : Written :=
  match pack fields values with
  | .ok word => ⟨Octets.ofNat octets word, none⟩
  | .error fault => ⟨[], some fault⟩

def read (octets : Nat) (fields : List BitField) : Reader (Value fields) := do
  return unpack fields (Octets.toNat (← Reader.take octets))

end BitFields

/-! Members whose extent is given by numbers that stand before them. -/

/-- The numbers seen so far in a layout, latest first. -/
abbrev Scope := List (String × Int)

namespace Scope

variable (scope : Scope)

def bind (name : String) (number : Option Int) : Scope :=
  match number with
  | some n => (name, n) :: scope
  | none => scope

def get (name : String) : Int := (scope.lookup name).getD 0

def product (names : List String) : Int := names.foldl (fun n name => n * scope.get name) 1

end Scope

def payloadOctets (bits : Int) : Int := (bits + 7).fdiv 8

/-- Whole octets that follow a payload to reach a multiple of `boundary` bits. The
rest of a partial final octet is already part of the payload. -/
def paddingOctets (bits boundary : Int) : Int :=
  ((boundary - bits.fmod boundary).fmod boundary).fdiv 8

inductive Sized where
  -- As many whole numbers as the extent says.
  | numbers (format : IntFormat)
  -- As many octets as the extent says.
  | octets
  -- As many bits as the extent says, zero padded to a boundary in bits.
  | payload (boundary : Nat)
  -- An opaque record of as many octets as the extent says; with none it is absent.
  | blob (kind : String)
  deriving DecidableEq

namespace Sized

@[reducible] def Value : Sized → Type
  | numbers _ => List Int
  | octets => Octets
  | payload _ => Octets
  | blob _ => Option Octets

def initial : (sized : Sized) → sized.Value
  | numbers _ => ([] : List Int)
  | octets => ([] : Octets)
  | payload _ => ([] : Octets)
  | blob _ => none

/-- The extent that a value calls for. -/
def extent : (sized : Sized) → sized.Value → Nat
  | numbers _, (ns : List Int) => ns.length
  | octets, (os : Octets) => os.length
  | payload _, (os : Octets) => 8 * os.length
  | blob _, none => 0
  | blob _, some os => os.length

def writeNumbers (format : IntFormat) (ns : List Int) : Written :=
  ns.foldr (fun n written => format.write n ++ written) .empty

def write : (sized : Sized) → (extent : Int) → sized.Value → Written
  | numbers format, _, ns => writeNumbers format ns
  | octets, extent, (os : Octets) =>
    if os.length = extent then ⟨os, none⟩ else .fail (.octetCount extent os.length)
  | payload boundary, bits, (os : Octets) =>
    if os.length = payloadOctets bits then
      ⟨os ++ Octets.zeros (paddingOctets bits boundary).toNat, none⟩
    else .fail (.payload bits (payloadOctets bits) os.length)
  | blob _, _, none => .empty
  | blob kind, _, some [] => .fail (.emptyBlob kind)
  | blob _, _, some (os : Octets) => ⟨os, none⟩

/-- A payload is read before its padding; both are blocks. -/
def readPayload (boundary : Nat) (bits : Int) : Reader Octets := do
  let os ← Reader.take (payloadOctets bits).toNat
  let _ ← Reader.take (paddingOctets bits boundary).toNat
  return os

def readBlob (extent : Int) : Reader (Option Octets) := do
  let os ← Reader.take extent.toNat
  return if os.isEmpty then none else some os

def read : (sized : Sized) → (extent : Int) → Reader sized.Value
  | numbers format, count => Reader.many count.toNat format.read
  | octets, count => Reader.take count.toNat
  | payload boundary, bits => readPayload boundary bits
  | blob _, count => readBlob count

/-- Octets a value takes on the wire, found without writing it. -/
def size : (sized : Sized) → (extent : Int) → sized.Value → Int
  | numbers format, _, (ns : List Int) => ns.length * format.width
  | octets, _, (os : Octets) => os.length
  | payload boundary, bits, _ => payloadOctets bits + (paddingOctets bits boundary).toNat
  | blob _, _, none => 0
  | blob _, _, some (os : Octets) => os.length

def sameValue : (sized : Sized) → sized.Value → sized.Value → Bool
  | numbers _, (a : List Int), b => a == b
  | octets, (a : Octets), b => a == b
  | payload _, (a : Octets), b => a == b
  | blob _, (a : Option Octets), b => a == b

end Sized
end Dis

import Dis.Numeric.Decimal

/-! What can go wrong while a layout is read or written, and where. -/

namespace Dis

inductive IntFormat where
  | u8 | u16 | u32 | u64 | i32
  deriving DecidableEq, Repr

namespace IntFormat

def width : IntFormat → Nat
  | u8 => 1
  | u16 => 2
  | u32 | i32 => 4
  | u64 => 8

def isSigned : IntFormat → Bool
  | i32 => true
  | _ => false

def mark : IntFormat → String
  | u8 => ">B"
  | u16 => ">H"
  | u32 => ">L"
  | u64 => ">Q"
  | i32 => ">l"

end IntFormat

inductive ReadFault where
  -- A block of `expected` octets was wanted where only `found` were left.
  | short (expected found : Nat)
  -- A count is above the limit of its collection.
  | overLimit
  | notAscii (octets : Octets)
  deriving DecidableEq

inductive WriteFault where
  | number (format : IntFormat) (value : Int)
  | missingNumber (format : IntFormat)
  -- A finite number too large for single precision.
  | single (value : Binary64)
  | fixedPoint (refusal : FixedPoint.Refusal) (value : Binary64)
  | subfield (value : Int) (greatest : Nat)
  | octetCount (expected : Int) (found : Nat)
  | textLength (found limit : Nat)
  | notAscii (text : String)
  | payload (bits expected : Int) (found : Nat)
  | emptyBlob (kind : String)
  | overLimit (member : String) (count limit : Nat)
  deriving DecidableEq

/-- A fault and the names of the members that lead to it, outermost first. -/
structure Located (Fault : Type) where
  path : List String
  fault : Fault
  deriving DecidableEq

namespace Located

variable {Fault : Type}

def here (fault : Fault) : Located Fault := ⟨[], fault⟩

def under (name : String) (x : Located Fault) : Located Fault := { x with path := name :: x.path }

def place (activity : String) (x : Located Fault) : String :=
  "(" ++ activity ++ ")" ++ String.join (x.path.map (" -> " ++ ·))

def placed (activity text : String) (x : Located Fault) : String :=
  "Error in path " ++ x.place activity ++ "\n" ++ text

end Located

/-- Numbers in messages: in place from `0.0001` up to sixteen digits, else with a
signed exponent of at least two digits. -/
def messageNumber : DecimalStyle where
  leastPoint := -3
  greatestPoint := 16
  plusSign := true
  exponentDigits := 2
  infinity := "inf"
  nan := "nan"

def ReadFault.message (x : Located ReadFault) : String :=
  match x.fault with
  | .short expected found =>
    x.placed "parsing"
      s!"stream read less than specified amount, expected {expected}, found {found}"
  | .overLimit => x.placed "parsing" "check failed during parsing"
  | .notAscii octets => "cannot use encoding 'ascii' to decode " ++ Quoted.octets octets

def noIntegerText (infinite : Bool) : String :=
  "cannot convert float " ++ (if infinite then "infinity" else "NaN") ++ " to integer"

def noDoubleText : String := "int too large to convert to float"

def refusedText (mark value : String) : String :=
  "struct '" ++ mark ++ "' error during building, given value " ++ value

/-- The numbers of any size that the wording of a fault gives in decimal. How many there are of
something in hand is no such number. -/
def WriteFault.numbers : WriteFault → List Int
  | number _ value => [value]
  | octetCount expected _ => [expected]
  | payload bits expected _ => [bits, expected]
  | _ => []

def WriteFault.message (x : Located WriteFault) : String :=
  let place := x.place "building"
  match x.fault with
  | .number format value =>
    x.placed "building" (refusedText format.mark (toString value))
  | .missingNumber format => x.placed "building" (refusedText format.mark "None")
  | .single value =>
    x.placed "building" (refusedText ">f" (messageNumber.render value))
  | .fixedPoint .nan _ => noIntegerText false
  | .fixedPoint .infinite _ => noIntegerText true
  | .fixedPoint .outside value =>
    let text := fun word => messageNumber.render (FixedPoint.toBinary64 word)
    messageNumber.render value ++ " outside fixed-point range [" ++ text FixedPoint.least ++ ", " ++
      text FixedPoint.greatest ++ "] at " ++ place
  | .subfield value greatest =>
    -- A number that cannot be worded here is still reported at its place.
    x.placed "building" <|
      if Numeral.isShown value then s!"number {value} is out of range (min=0, max={greatest})"
      else Numeral.refusalText none
  | .octetCount expected found =>
    x.placed "building" s!"bytes object of wrong length, expected {expected}, found {found}"
  | .textLength found limit =>
    x.placed "building" s!"subcon build {found} bytes but was allowed only {limit}"
  | .notAscii text => "cannot use encoding 'ascii' to encode " ++ Quoted.text text
  | .payload bits expected found =>
    s!"{bits} bits need {expected} octets, got {found} at {place}"
  | .emptyBlob kind => s!"empty {kind} at {place} would decode as absent"
  | .overLimit member count limit => s!"{member} holds {count} elements, limit is {limit}"

/-! Readers consume octets from the front. A failed read still says what is left:
everything before the fault is consumed, and a block cut short is consumed whole. -/

abbrev ReadError := Located ReadFault

abbrev Reader (α : Type) := EStateM ReadError Octets α

namespace Reader

variable {α : Type}

/-- Faults inside get the name of the member in front. -/
def under (name : String) (reader : Reader α) : Reader α :=
  EStateM.adaptExcept (Located.under name) reader

def fail (fault : ReadFault) : Reader α := throw (Located.here fault)

def take (count : Nat) : Reader Octets := fun input =>
  let front := input.take count
  if front.length = count then .ok front (input.drop count)
  else .error (.here (.short count front.length)) []

def takeAll : Reader Octets := fun input => .ok input []

def manyOnto (reader : Reader α) (done : List α) : Nat → Reader (List α)
  | 0 => pure done.reverse
  | count + 1 => do manyOnto reader ((← reader) :: done) count

def many (count : Nat) (reader : Reader α) : Reader (List α) := manyOnto reader [] count

end Reader

/-! What a writer has put out, and the fault that stopped it if one did. -/

abbrev WriteError := Located WriteFault

structure Written where
  octets : Octets
  fault : Option WriteError := none
  deriving DecidableEq

namespace Written

def empty : Written := ⟨[], none⟩

def fail (fault : WriteFault) : Written := ⟨[], some (.here fault)⟩

/-- Nothing is written after a fault. -/
def append (first second : Written) : Written :=
  match first.fault with
  | none => ⟨first.octets ++ second.octets, second.fault⟩
  | some _ => first

instance : Append Written := ⟨append⟩

def under (name : String) (written : Written) : Written :=
  { written with fault := written.fault.map (Located.under name) }

def ofExcept (written : Except WriteFault Octets) : Written :=
  match written with
  | .ok octets => ⟨octets, none⟩
  | .error fault => fail fault

def complete (written : Written) : Except WriteError Octets :=
  match written.fault with
  | none => .ok written.octets
  | some fault => .error fault

end Written
end Dis

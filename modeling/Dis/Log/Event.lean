import Dis.Error

/-! Values that are reported beside a message or filled into it. -/

namespace Dis

inductive LogValue where
  | null
  | bool (b : Bool)
  | int (n : Int)
  | float (x : Binary64)
  | text (s : String)
  | octets (octets : Octets)
  -- A member of an enumeration.
  | code (enumeration name : String) (number : Int)
  | list (items : List LogValue)
  | table (entries : List (String × LogValue))

namespace LogValue

def ofCode {e : Enumeration} (c : Code e) : LogValue := .code e.name (c.name?.getD "") c.number

/-- The text of a value inside another one: texts are quoted there. -/
def display : LogValue → String
  | null => "None"
  | bool b => if b then "True" else "False"
  | int n => toString n
  | float x => messageNumber.render x
  | text s => Quoted.text s
  | octets os => Quoted.octets os
  | code enumeration name number => s!"<{enumeration}.{name}: {number}>"
  | list items => "[" ++ ", ".intercalate (displayItems items) ++ "]"
  | table entries => "\x7b" ++ ", ".intercalate (displayEntries entries) ++ "\x7d"
where
  displayItems : List LogValue → List String
    | [] => []
    | item :: rest => display item :: displayItems rest
  displayEntries : List (String × LogValue) → List String
    | [] => []
    | (name, value) :: rest => (Quoted.text name ++ ": " ++ display value) :: displayEntries rest

def toText : LogValue → String
  | text s => s
  | code _ _ number => toString number
  | value => value.display

def kindName : LogValue → String
  | null => "NoneType"
  | bool _ => "bool"
  | int _ => "int"
  | float _ => "float"
  | text _ => "str"
  | octets _ => "bytes"
  | code enumeration _ _ => enumeration
  | list _ => "list"
  | table _ => "dict"

def whole? : LogValue → Option Int
  | bool b => some (if b then 1 else 0)
  | int n => some n
  | code _ _ number => some number
  | _ => none

def isVoid : LogValue → Bool
  | null => true
  | bool b => !b
  | int n => n == 0
  | float x => x.magnitude == 0
  | text s => s.isEmpty
  | octets os => os.isEmpty
  | code _ _ number => number == 0
  | list items => items.isEmpty
  | table entries => entries.isEmpty

end LogValue

/-- The member of an enumeration that a value stands for. Any whole number stands for
one, a double only if a member has its number. -/
def Enumeration.ofValue (e : Enumeration) (value : LogValue) : Except Error (Code e) :=
  let index? :=
    match value with
    | .float x => e.index? fun row => (Binary64.nearest false row.2 1).sameValue x
    | _ => none
  match value.whole?, index? with
  | some n, _ => .ok (e.decode n)
  | none, some i => .ok (.member i)
  | none, none => .error (.notAMember e.name value.display)

/-! What the codec reports while it works, by cause. -/

structure Level where
  number : Int
  deriving DecidableEq

namespace Level

def debug : Level := ⟨10⟩
def info : Level := ⟨20⟩
def warning : Level := ⟨30⟩

def name (level : Level) : String :=
  match level.number with
  | 0 => "NOTSET"
  | 10 => "DEBUG"
  | 20 => "INFO"
  | 30 => "WARNING"
  | 40 => "ERROR"
  | 50 => "CRITICAL"
  | n => s!"Level {n}"

end Level

inductive Event where
  -- A PDU is larger than its limit.
  | rejected (kind : String) (size limit : Int)
  -- A PDU has no kind of its own.
  | unsupported (pduType : Code .pduType) (family : Code .protocolFamily) (length : Int)
      (header : Octets)
  -- The rest of a buffer cannot be cut into frames.
  | abandoned (error : Error)
  | dropped (offset : Nat) (error : Error) (header : Octets)
  | codecReady (exercise limit : Int)
  -- A PDU belongs to an exercise that is not followed.
  | ignored (kind : String) (exercise : Int)
  | configMissing (path : String)
  | configLoaded (source : String)
  | loggingConfigured (level : String)
  deriving DecidableEq

namespace Event

def level : Event → Level
  | rejected .. => .warning
  | unsupported .. => .debug
  | abandoned _ => .warning
  | dropped .. => .warning
  | codecReady .. => .debug
  | ignored .. => .debug
  | configMissing _ => .warning
  | configLoaded _ => .debug
  | loggingConfigured _ => .info

def logger : Event → String
  | rejected .. => "discodec.protocol.frame"
  | unsupported .. => "discodec.protocol.frame"
  | abandoned _ => "discodec.protocol.frame"
  | dropped .. => "discodec.protocol.frame"
  | codecReady .. => "discodec.codec"
  | ignored .. => "discodec.codec"
  | configMissing _ => "discodec.config.settings"
  | configLoaded _ => "discodec.config.settings"
  | loggingConfigured _ => "discodec"

def message : Event → String
  | rejected kind size limit => s!"Rejecting {kind} of {size} octets (limit {limit})"
  | unsupported pduType family length _ =>
    s!"Skipping unsupported PDU type {pduType.number} family {family.number} ({length} octets)"
  | abandoned error => s!"Abandoning buffer: {error.message}"
  | dropped offset error _ => s!"Dropping malformed PDU at offset {offset}: {error.message}"
  | codecReady exercise limit => s!"PDU codec ready: exercise {exercise}, max {limit} octets"
  | ignored kind exercise => s!"Ignoring {kind} from exercise {exercise}"
  | configMissing path => s!"Config file {path} not found; using defaults"
  | configLoaded source => s!"Loaded codec configuration from {source}"
  | loggingConfigured level => s!"Logging configured at level {level}"

/-- Can the event be put into words? One that cannot makes no line. -/
def isWorded : Event → Bool
  | rejected _ size limit => Numeral.isShown size && Numeral.isShown limit
  | codecReady exercise limit => Numeral.isShown exercise && Numeral.isShown limit
  | _ => true

def extras : Event → List (String × LogValue)
  | unsupported pduType _ _ header =>
    [("pdu_header", .octets header), ("pdu_type", .ofCode pduType)]
  | dropped _ _ header => [("pdu_header", .octets header)]
  | _ => []

end Event

/-- A result and the events on the way to it, in order. -/
structure Logged (α : Type) where
  value : α
  events : List Event

namespace Logged

variable {α β : Type}

def pure (value : α) : Logged α := ⟨value, []⟩

def map (f : α → β) (x : Logged α) : Logged β := ⟨f x.value, x.events⟩

def bind (x : Logged α) (f : α → Logged β) : Logged β :=
  let y := f x.value
  ⟨y.value, x.events ++ y.events⟩

end Logged
end Dis

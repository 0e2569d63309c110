import Dis.Codec
import Dis.Json
import Dis.Log.Template

/-! What keeps a record of the log from being shown. -/

namespace Dis

inductive LogFault where
  | template (fault : TemplateFault)
  -- A count of microseconds past the largest double.
  | clockTooLarge
  -- A value of a kind that does not count microseconds.
  | notMicros (kind : String)
  | notATime
  -- A value of a kind that does not count seconds.
  | notSeconds (kind : String)
  -- A count of seconds that 64 bits do not hold.
  | secondsRange
  -- A year whose distance from 1900 32 bits do not hold.
  | yearTooLarge
  | yearRange (year : Int)
  | noAttribute (kind name : String)
  -- The front of a name is taken off texts, not off octets.
  | octetName
  | notCallable (kind : String)
  -- A kind of errors that is made from a text and from more.
  | errorPart (kind missing : String)
  | errorParts (maker : String) (count : Nat)
  | notIndexed (kind : String)
  -- A sequence that ends before an index.
  | indexRange (sequence : String)
  | keyUnknown (key : Int)
  -- Surrogates, and how many characters stand before them.
  | surrogates (start : Nat) (run : CodePoints)
  -- A message of more characters than are written out.
  | tooLong
  deriving DecidableEq

namespace LogFault

def category : LogFault → Error.Category
  | template fault => fault.category
  | clockTooLarge => .overflow
  | notMicros _ => .type
  | notATime => .value
  | notSeconds _ => .type
  | secondsRange => .overflow
  | yearTooLarge => .system
  | yearRange _ => .value
  | noAttribute .. => .attribute
  | octetName => .type
  | notCallable _ => .type
  | errorPart .. => .type
  | errorParts .. => .type
  | notIndexed _ => .type
  | indexRange _ => .index
  | keyUnknown _ => .key
  | surrogates .. => .coding
  | tooLong => .memory

/-- A run of surrogates by place; a single one is shown. -/
def surrogatesText (start : Nat) (run : CodePoints) : String :=
  match run with
  | [point] =>
    let number := String.ofList (Nat.toDigits 16 point)
    "character '\\u" ++ number ++ s!"' in position {start}"
  | _ =>
    let last := start + run.length - 1
    s!"characters in position {start}-{last}"

def message : LogFault → String
  | template fault => fault.message
  | clockTooLarge => noDoubleText
  | notMicros kind => s!"unsupported operand type(s) for /: '{kind}' and 'float'"
  | notATime => "Invalid value NaN (not a number)"
  | notSeconds kind => s!"'{kind}' object cannot be interpreted as an integer"
  | secondsRange => "timestamp out of range for platform time_t"
  | yearTooLarge => "[Errno 75] Value too large for defined data type"
  | yearRange year => Calendar.noYearText year
  | noAttribute kind name => s!"'{kind}' object has no attribute '{name}'"
  | octetName => "a bytes-like object is required, not 'str'"
  | notCallable kind => s!"'{kind}' object is not callable"
  | errorPart kind missing =>
    s!"{kind}.__init__() missing 1 required positional argument: '{missing}'"
  | errorParts maker count => s!"{maker} takes exactly {count} arguments (1 given)"
  | notIndexed kind => s!"'{kind}' object is not subscriptable"
  | indexRange sequence => sequence ++ "index out of range"
  | keyUnknown key => toString key
  | surrogates start run =>
    "'utf-8' codec can't encode " ++ surrogatesText start run ++ ": surrogates not allowed"
  | tooLong => ""

end LogFault

/-! Errors that are reported with a message. -/

structure Failure where
  kind : String
  told : LogValue

namespace Failure

def ownKinds : List String := [
  "DisError", "DecodeError", "TruncatedInputError", "FramingError", "UnsupportedPduError",
  "EncodeError", "PduSizeExceededError", "MissingLengthContextError"]

def otherNames : List (String × String) := [("EnvironmentError", "OSError"), ("IOError", "OSError")]

def lack? : String → Option LogFault
  | "UnsupportedPduError" => some (.errorPart "UnsupportedPduError" "protocol_family")
  | "PduSizeExceededError" => some (.errorPart "PduSizeExceededError" "max_size")
  | "UnicodeDecodeError" => some (.errorParts "function" 5)
  | "UnicodeEncodeError" => some (.errorParts "function" 5)
  | "UnicodeTranslateError" => some (.errorParts "function" 4)
  | "BaseExceptionGroup" => some (.errorParts "BaseExceptionGroup.__new__()" 2)
  | "ExceptionGroup" => some (.errorParts "BaseExceptionGroup.__new__()" 2)
  | _ => none

def ofValue (kind : String) (told : LogValue) : Except LogFault Failure :=
  match lack? kind with
  | some fault => .error fault
  | none => .ok ⟨(otherNames.lookup kind).getD kind, told⟩

def qualifiedKind (failure : Failure) : String :=
  if ownKinds.contains failure.kind then "discodec.protocol.errors." ++ failure.kind
  else failure.kind

def sourceKinds : List String := ["SyntaxError", "IndentationError", "TabError"]

/-- A missing key is shown in quotes. Errors about source text say when they have none. -/
def text (failure : Failure) : String :=
  if failure.kind = "KeyError" then failure.told.display
  else if failure.told.isVoid ∧ sourceKinds.contains failure.kind then "<no detail available>"
  else failure.told.toText

def render (failure : Failure) : String :=
  if failure.text = "" then failure.qualifiedKind
  else failure.qualifiedKind ++ ": " ++ failure.text

end Failure

/-- What a record says of an error: the error, or a value that was given in its place. -/
inductive Cause where
  | error (failure : Failure)
  | value (value : LogValue)

namespace Cause

/-- The third part of a value, where an error has its trace. -/
def trace (value : LogValue) : Except LogFault LogValue :=
  match value with
  | .text s =>
    match s.toList[2]? with
    | some c => .ok (.text c.toString)
    | none => .error (.indexRange "string ")
  | .octets os =>
    match os[2]? with
    | some octet => .ok (.int octet.toNat)
    | none => .error (.indexRange "")
  | .list items =>
    match items[2]? with
    | some item => .ok item
    | none => .error (.indexRange "list ")
  | .table _ => .error (.keyUnknown 2)
  | value => .error (.notIndexed value.kindName)

def itself : LogValue → LogValue
  | .list (_ :: item :: _) => item
  | _ => .null

def valueText (value : LogValue) : Except LogFault String := do
  match ← trace value, itself value with
  | .null, .null => return "NoneType: None"
  | .null, item => throw (.noAttribute item.kindName "__suppress_context__")
  | item, _ => throw (.noAttribute item.kindName "tb_frame")

def render? : Cause → Except LogFault (Option String)
  | .error failure => .ok (some failure.render)
  | .value v => if v.isVoid then .ok none else some <$> valueText v

end Cause

/-! Instants as log lines show them. -/

structure Instant where
  micros : Int
  deriving DecidableEq

namespace Instant

/-- A double of seconds: its fraction is scaled and rounded to whole microseconds, ties
to even. -/
def ofDouble (x : Binary64) : Instant :=
  let scale : Nat := 2 ^ BinaryFormat.double.scale
  let fraction := Binary64.nearestInt (x.units.tmod scale) scale
  let scaled := fraction.mul (.nearest false microsPerSecond 1)
  ⟨x.truncate * microsPerSecond + roundHalfEvenInt scaled.units scale⟩

def ofSeconds (value : LogValue) : Except LogFault Instant :=
  match value, value.whole? with
  | _, some n => .ok ⟨n * microsPerSecond⟩
  | .float x, none =>
    if x.isNaN then .error .notATime
    else if x.isInfinite then .error .secondsRange
    else .ok (ofDouble x)
  | _, none => .error (.notSeconds value.kindName)

/-- The seconds that the clock shows when so many microseconds have passed. The count is
a double before it is divided. -/
def clockSeconds (micros : LogValue) : Except LogFault LogValue :=
  match micros, micros.whole? with
  | _, some n =>
    match Binary64.ofInt? n with
    | some x => .ok (.float (x.divNat microsPerSecond))
    | none => .error .clockTooLarge
  | .float x, none => .ok (.float (if x.isFinite then x.divNat microsPerSecond else x))
  | _, none => .error (.notMicros micros.kindName)

def seconds (instant : Instant) : Int := instant.micros.fdiv microsPerSecond

def day (instant : Instant) : Int := instant.micros.fdiv microsPerDay + Calendar.epochDay

def year (instant : Instant) : Int := Calendar.yearOfDay instant.day

/-- What keeps an instant from being shown: seconds are counted in 64 bits and years
from 1900 in 32, and only the years of the calendar are shown. -/
def refusal? (instant : Instant) : Option LogFault :=
  if !Word.fits 64 instant.seconds then some .secondsRange
  else if !Word.fits 32 (instant.year - 1900) then some .yearTooLarge
  else if instant.year < Calendar.leastYear ∨ Calendar.greatestYear < instant.year then
    some (.yearRange (instant.year.bmod (2 ^ 32)))
  else none

def text (instant : Instant) : String :=
  let (year, month, day) := Calendar.dateOf instant.day.toNat
  let total := (instant.micros.fmod microsPerDay).toNat
  let seconds := total / microsPerSecond
  let micros := total % microsPerSecond
  let two := Decimal.padded 2
  Decimal.padded 4 year ++ "-" ++ two month ++ "-" ++ two day ++ "T" ++
    two (seconds / 3600) ++ ":" ++ two (seconds / 60 % 60) ++ ":" ++ two (seconds % 60) ++
    (if micros = 0 then "" else "." ++ Decimal.padded 6 micros) ++ "Z"

def render (instant : Instant) : Except LogFault String :=
  match instant.refusal? with
  | some fault => .error fault
  | none => .ok instant.text

end Instant

/-! Log lines: one JSON object a record. -/

namespace LogValue

def toJson : LogValue → Json
  | null => .null
  | bool b => .bool b
  | int n => .int n
  | float x => .float x
  | text s => .text s
  | octets os => .text (Hex.bracketed os)
  | code _ name _ => .text name
  | collection => .text collection.display

def toPlainJson : LogValue → Json
  | null => .null
  | bool b => .bool b
  | int n => .int n
  | float x => .float x
  | text s => .text s
  | octets os => .text (Base64.ofOctets os)
  | code _ _ number => .int number
  | list items => .list (plainItems items)
  | table entries => .object (plainEntries entries)
where
  plainItems : List LogValue → List Json
    | [] => []
    | item :: rest => toPlainJson item :: plainItems rest
  plainEntries : List (String × LogValue) → List (String × Json)
    | [] => []
    | (name, value) :: rest => (name, toPlainJson value) :: plainEntries rest

end LogValue

namespace Logger

def library : String := "discodec"

def named (name : String) : String := if name = "" then "root" else name

def shortName (name : String) : String :=
  let front := (library ++ ".").toList
  if front.isPrefixOf name.toList then String.ofList (name.toList.drop front.length) else name

def shownName : LogValue → Except LogFault String
  | .text name => .ok (shortName name)
  | .octets _ => .error .octetName
  | value => .error (.noAttribute value.kindName "removeprefix")

end Logger

structure LogRecord where
  -- Seconds since the start of 1970.
  created : LogValue
  level : Level
  -- What is shown of the level.
  levelName : LogValue := .text level.name
  logger : LogValue
  template : LogValue
  arguments : Arguments := .each []
  cause : Cause := .value .null
  extras : List (String × LogValue) := []

namespace LogRecord

/-- A later value of a name takes the place of an earlier one. -/
def assign (entries : List (String × LogValue)) (entry : String × LogValue) :
    List (String × LogValue) :=
  if (entries.lookup entry.1).isSome then
    entries.map fun other => if other.1 = entry.1 then entry else other
  else entries ++ [entry]

/-- Gives a record a value under a name. What a record shows of itself it keeps under
names of its own; any other value is an extra. -/
def give (r : LogRecord) : String × LogValue → LogRecord
  | ("created", value) => { r with created := value }
  | ("levelname", value) => { r with levelName := value }
  | ("name", value) => { r with logger := value }
  | ("msg", value) => { r with template := value }
  | ("args", value) => { r with arguments := .alone value }
  | ("exc_info", value) => { r with cause := .value value }
  | entry => { r with extras := assign r.extras entry }

def ownNames : List String := [
  "name", "msg", "args", "levelname", "levelno", "pathname", "filename", "module", "exc_info",
  "exc_text", "stack_info", "lineno", "funcName", "created", "msecs", "relativeCreated", "thread",
  "threadName", "processName", "process", "message", "asctime"]

def isShown (name : String) : Bool := !ownNames.contains name && !"_".isPrefixOf name

def shownExtras (r : LogRecord) : List (String × LogValue) :=
  r.extras.filter fun entry => isShown entry.1

/-- The name under which a record is asked for its message. An extra of that name takes
the message's place, and cannot be asked. -/
def messageName : String := "getMessage"

def message (r : LogRecord) : Except LogFault Runs :=
  match r.extras.lookup messageName with
  | some value => .error (.notCallable value.kindName)
  | none => (Template.render r.template.toText r.arguments).mapError .template

def mostCharacters : Nat := 2 ^ 26

def textOf (message : Runs) : Except LogFault String :=
  if message.hasSurrogate then
    let (start, run) := message.surrogates
    .error (.surrogates start run)
  else if mostCharacters < message.size then .error .tooLong
  else .ok message.text

def parts (r : LogRecord) : Except LogFault (List (String × Json)) := do
  let logger ← Logger.shownName r.logger
  let message ← r.message
  let extras := r.shownExtras.map fun (name, value) => (name, value.toJson)
  let cause ← r.cause.render?
  return [("level", r.levelName.toPlainJson), ("logger", .text logger),
      ("message", .text (← textOf message))] ++
    (if extras.isEmpty then [] else [("extra", .object extras)]) ++
    (cause.map fun text => ("exception", .text text)).toList

def line (r : LogRecord) : Except LogFault String := do
  let instant ← Instant.ofSeconds r.created
  let time ← instant.render
  return (Json.object (("ts", .text time) :: (← r.parts))).render

end LogRecord

def Event.toRecord (created : LogValue) (event : Event) : LogRecord where
  created
  level := event.level
  logger := .text event.logger
  template := .text event.message
  extras := event.extras

/-! Which records are written under a configuration. -/

structure LogSetup where
  level : Level

namespace LogSetup

def ofConfig (config : Config) : LogSetup := ⟨if config.debugLogging then .debug else .info⟩

def passes (setup : LogSetup) (r : LogRecord) : Bool := setup.level.number ≤ r.level.number

def start (setup : LogSetup) : Event := .loggingConfigured setup.level.name

def written (setup : LogSetup) (created : LogValue) (records : List LogRecord) : List LogRecord :=
  (setup.start.toRecord created :: records).filter setup.passes

end LogSetup
end Dis

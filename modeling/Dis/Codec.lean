import Dis.Frame
import Dis.Toml

/-! Settings of the codec. -/

namespace Dis

structure Config where
  exerciseId : Int := 1
  protocolVersion : Int := protocolVersion2012
  maxPduSize : Int := maxPduSize
  skipUnknownPdus : Bool := true
  skipMalformedPdus : Bool := false
  filterExercise : Bool := false
  debugLogging : Bool := false
  logToSyslog : Bool := false
  deriving DecidableEq

/-! Checking raw settings. All settings at fault are reported together.

Settings are taken as marshmallow 4.4.0 takes them, of which this is assumed. Names that are not
known and settings that are null are refused, and missing ones take their defaults. A whole number
is also taken from a fraction, cut off towards zero, and from a text that spells one; an infinite
one is too large, and truth values are none. A truth value is also taken from the numbers and the
texts that are listed for it. Ranges include both ends, and are tested after the conversion. -/

inductive Complaint where
  | notATable
  | unknown
  | null
  | notAnInteger
  | tooLarge
  | outOfRange (least greatest : Int)
  | version (n : Int)
  | notABoolean
  deriving DecidableEq

namespace Complaint

def message : Complaint → String
  | notATable => "Invalid input type."
  | unknown => "Unknown field."
  | null => "Field may not be null."
  | notAnInteger => "Not a valid integer."
  | tooLarge => "Number too large."
  | outOfRange least greatest =>
    s!"Must be greater than or equal to {least} and less than or equal to {greatest}."
  | version n => s!"protocol_version {n} is not a supported DIS version (5, 6 or 7)"
  | notABoolean => "Not a valid boolean."

def isShown : Complaint → Bool
  | version n => Numeral.isShown n
  | _ => true

end Complaint

namespace Setting

/-- A whole number: fractions are cut off towards zero and texts are read. -/
def toInt : Setting → Except Complaint Int
  | null => .error .null
  | int n => .ok n
  | float x =>
    if x.isNaN then .error .notAnInteger
    else if x.isInfinite then .error .tooLarge
    else .ok x.truncate
  | text s =>
    match Numeral.toInt? s with
    | some n => .ok n
    | none => .error .notAnInteger
  | bool _ | moment | list _ | table _ => .error .notAnInteger

def trueTexts : List String :=
  ["t", "T", "true", "True", "TRUE", "on", "On", "ON", "y", "Y", "yes", "Yes", "YES", "1"]

def falseTexts : List String :=
  ["f", "F", "false", "False", "FALSE", "off", "Off", "OFF", "n", "N", "no", "No", "NO", "0"]

def toBool : Setting → Except Complaint Bool
  | null => .error .null
  | bool b => .ok b
  | int n => ofNumber (n = 1) (n = 0)
  | float x => ofNumber (x.sameValue .one) (x.sameValue .zero)
  | text s => ofNumber (trueTexts.contains s) (falseTexts.contains s)
  | moment | list _ | table _ => .error .notABoolean
where
  ofNumber (isTrue isFalse : Bool) : Except Complaint Bool :=
    if isTrue then .ok true else if isFalse then .ok false else .error .notABoolean

end Setting

namespace Config

inductive Refusal where
  | invalid (complaints : List (String × Complaint))
  -- One of the complaints would show a number of too many digits.
  | tooManyDigits
  deriving DecidableEq

def Refusal.ofComplaints (complaints : List (String × Complaint)) : Refusal :=
  if complaints.all fun (_, complaint) => complaint.isShown then invalid complaints
  else tooManyDigits

/-- A setting after its check; one at fault stays at its default. -/
structure Checked (α : Type) where
  value : α
  complaint : Option (String × Complaint)

def check {α : Type} (entries : List (String × Setting)) (name : String) (default : α)
    (read : Setting → Except Complaint α) : Checked α :=
  match entries.lookup name with
  | none => ⟨default, none⟩
  | some setting =>
    match read setting with
    | .ok value => ⟨value, none⟩
    | .error complaint => ⟨default, some (name, complaint)⟩

def intIn (least greatest : Int) (setting : Setting) : Except Complaint Int := do
  let n ← setting.toInt
  if least ≤ n ∧ n ≤ greatest then return n else .error (.outOfRange least greatest)

def version (setting : Setting) : Except Complaint Int := do
  let n ← setting.toInt
  if isValidProtocolVersion n then return n else .error (.version n)

def names : List String := [
  "exercise_id", "protocol_version", "max_pdu_size", "skip_unknown_pdus", "skip_malformed_pdus",
  "filter_exercise", "debug_logging", "log_to_syslog"]

def unknownNames (entries : List (String × Setting)) : List (String × Complaint) :=
  (entries.map Prod.fst).eraseDups.filterMap fun name =>
    if names.contains name then none else some (name, .unknown)

/-- The configuration that a table of settings describes, or every complaint about it. -/
def ofEntries (entries : List (String × Setting)) : Except Refusal Config :=
  let start : Config := {}
  let exerciseId := check entries "exercise_id" start.exerciseId (intIn 0 255)
  let protocolVersion := check entries "protocol_version" start.protocolVersion version
  let maxPduSize :=
    check entries "max_pdu_size" start.maxPduSize (intIn pduHeaderSize Dis.maxPduSize)
  let skipUnknownPdus := check entries "skip_unknown_pdus" start.skipUnknownPdus Setting.toBool
  let skipMalformedPdus :=
    check entries "skip_malformed_pdus" start.skipMalformedPdus Setting.toBool
  let filterExercise := check entries "filter_exercise" start.filterExercise Setting.toBool
  let debugLogging := check entries "debug_logging" start.debugLogging Setting.toBool
  let logToSyslog := check entries "log_to_syslog" start.logToSyslog Setting.toBool
  let complaints :=
    [exerciseId.complaint, protocolVersion.complaint, maxPduSize.complaint,
      skipUnknownPdus.complaint, skipMalformedPdus.complaint, filterExercise.complaint,
      debugLogging.complaint, logToSyslog.complaint].filterMap id ++ unknownNames entries
  if complaints.isEmpty then
    .ok {
      exerciseId := exerciseId.value
      protocolVersion := protocolVersion.value
      maxPduSize := maxPduSize.value
      skipUnknownPdus := skipUnknownPdus.value
      skipMalformedPdus := skipMalformedPdus.value
      filterExercise := filterExercise.value
      debugLogging := debugLogging.value
      logToSyslog := logToSyslog.value }
  else .error (.ofComplaints complaints)

def ofSetting : Setting → Except Refusal Config
  | .table entries => ofEntries entries
  | _ => .error (.invalid [("_schema", .notATable)])

end Config
end Dis

/-! Loading the configuration from the table of a TOML file. -/

namespace Dis.Config

def tableName : String := "discodec"

def pathVariable : String := "DISCODEC_CONFIG"

inductive LoadError where
  | malformed
  -- A number of too many digits was read, or was to be shown.
  | tooManyDigits (count : Option Nat)
  | notATable (path : String)
  | invalid (complaints : List (String × Complaint))

namespace LoadError

def ofFault : Toml.Fault → LoadError
  | .malformed => malformed
  | .tooManyDigits count => tooManyDigits (some count)

def ofRefusal : Refusal → LoadError
  | .invalid complaints => invalid complaints
  | .tooManyDigits => tooManyDigits none

def message? : LoadError → Option String
  | tooManyDigits count => some (Numeral.refusalText count)
  | notATable path => some s!"[{tableName}] in {path} must be a table"
  | malformed | invalid _ => none

end LoadError

inductive Source where
  -- No file is named.
  | defaults
  -- A file is named; its text, if it is there.
  | file (path : String) (text : Option String)

/-- A path takes precedence over the variable; an empty one names no file. -/
def Source.choose (path environment : Option String) (read : String → Option String) : Source :=
  match path.or environment with
  | none => .defaults
  | some path => if path = "" then .defaults else .file path (read path)

def entriesOf (path text : String) : Except LoadError Toml.Entries :=
  match Toml.read text with
  | .error fault => .error (.ofFault fault)
  | .ok root =>
    match root.lookup tableName with
    | none => .ok []
    | some (.table entries) => .ok entries
    | some _ => .error (.notATable path)

def accept (source : String) (entries : Toml.Entries) : Logged (Except LoadError Config) :=
  match ofEntries entries with
  | .ok config => ⟨.ok config, [.configLoaded source]⟩
  | .error refusal => .pure (.error (.ofRefusal refusal))

/-- A file that is named but missing is reported, and the defaults apply. -/
def load (source : Source) : Logged (Except LoadError Config) :=
  match source with
  | .defaults => accept "defaults" []
  | .file path none => Logged.bind ⟨(), [.configMissing path]⟩ fun _ => accept "defaults" []
  | .file path (some text) =>
    match entriesOf path text with
    | .error e => .pure (.error e)
    | .ok entries => accept path entries

end Dis.Config

/-! The codec: framing under one configuration. -/

namespace Dis

structure Codec where
  config : Config

namespace Codec

def new (config : Config) : Logged Codec :=
  ⟨⟨config⟩, [.codecReady config.exerciseId config.maxPduSize]⟩

variable (codec : Codec)

def create (kind : PduKind) (timestamp : Int) (body : kind.body.Value) : Pdu :=
  .new kind
    (.new kind.header kind.typeCode kind.familyCode codec.config.exerciseId 0 timestamp
      (Enumeration.protocolVersion.decode codec.config.protocolVersion))
    body

def encode (pdu : Pdu) : Logged Pdu.Encoding := pdu.encode codec.config.maxPduSize

def decode (registry : Registry) (data : Octets) : Logged (Except Error Pdu) :=
  Frame.decode registry codec.config.skipUnknownPdus data

/-- PDUs of other exercises are reported in place of being handed out, if the
configuration asks for it. -/
def follow : Frame.Item → Frame.Item
  | .pdu pdu =>
    if codec.config.filterExercise && pdu.header.exerciseId != codec.config.exerciseId then
      .event (.ignored pdu.kind.name pdu.header.exerciseId)
    else .pdu pdu
  | .event event => .event event

def walk (registry : Registry) (data : Octets) : Frame.Walk :=
  let mode := ⟨codec.config.skipUnknownPdus, codec.config.skipMalformedPdus⟩
  let walk := Frame.walk registry mode data
  { walk with items := walk.items.map codec.follow }

end Codec
end Dis

import Dis.Layout.Spelling
import Dis.Wire

/-! Values of every kind by the names of their members. The header is the member
`header` of its PDU. -/

namespace Dis.Wire

variable {δ : Type} (sp : Spelling δ)

def headerMember : String := "header"

def spellHeader (h : Header) : δ :=
  sp.record h.shape.kind.name (h.shape.kind.layout.spell sp h.value)

/-- A header of the shape that its kind names, else of the shape given. -/
def header? (shape : HeaderShape) (x : δ) : Option Header := do
  let named := [HeaderShape.standard, .liveEntity].find? fun shape => sp.kind? x = shape.kind.name
  let shape := named.getD shape
  return .ofValue shape (← shape.kind.layout.value? sp (← sp.members? x))

def Kind.value? (kind : Kind) (x : δ) : Option Value := do
  match kind with
  | record kind => return .record ⟨kind, ← kind.layout.value? sp (← sp.members? x)⟩
  | header shape => return .header (← header? sp shape x)
  | pdu kind =>
    let members ← sp.members? x
    let header ← Spelling.given (header? sp kind.header) members headerMember
    return .pdu (.new kind (header.getD (.initial kind.header)) (← kind.body.value? sp members))

namespace Value

def members : Value → List (String × δ)
  | record r => r.kind.layout.spell sp r.value
  | header h => h.shape.kind.layout.spell sp h.value
  | pdu p => (headerMember, spellHeader sp p.header) :: p.kind.body.spell sp p.body

def spell (value : Value) : δ := sp.record value.kind.name (value.members sp)

def assignHeader? (path : List String) (x : δ) (h : Header) : Option Header :=
  return .ofValue h.shape (← h.shape.kind.layout.assign? sp x path h.value)

/-- Assigns the member that a path of names leads to; all else stays as it is. -/
def assign? (path : List String) (x : δ) : Value → Option Value
  | record ⟨kind, value⟩ => return .record ⟨kind, ← kind.layout.assign? sp x path value⟩
  | header h => return .header (← assignHeader? sp path x h)
  | pdu p =>
    match path with
    | [] => none
    | first :: inside =>
      if first ≠ headerMember then
        return .pdu { p with body := ← p.kind.body.assign? sp x path p.body }
      else if inside.isEmpty then
        return .pdu { p with header := ← header? sp p.kind.header x }
      else return .pdu { p with header := ← assignHeader? sp inside x p.header }

end Value

def kindOf (x : δ) : String :=
  (sp.kind? x).getD <|
    if sp.isAbsent x then "NoneType" else if (sp.list? x).isSome then "list"
    else if (sp.int? x).isSome then "int" else "str"

/-- The first name along a path that what it is asked of does not have, after the kind of
that. Only records have members. -/
def lacking? (x : δ) : (path : List String) → Option (String × String)
  | [] => none
  | name :: path =>
    match ((sp.members? x).getD []).lookup name with
    | some inside => lacking? inside path
    | none => some (kindOf sp x, name)

def Value.checkPath (value : Value) (path : List String) : Except Error Unit :=
  match lacking? sp (value.spell sp) path with
  | some (kind, name) => .error (.noMember kind name)
  | none => .ok ()

end Dis.Wire

/-! What values tell beside their members, by name. -/

namespace Dis.Wire

variable {δ : Type} (sp : Spelling δ)

abbrev Told (δ : Type) := List (String × Except Error δ)

def spellWord (word : FlagWord) (value : word.Value) : δ :=
  sp.record word.name (word.kind.layout.spell sp value)

def entityIdTold (id : RecordKind.entityId.Value) : Told δ := [
  ("site", .ok (sp.int (EntityId.site id))),
  ("application", .ok (sp.int (EntityId.application id)))]

def variableDatumTold (datum : RecordKind.variableDatumRecord.Value) : Told δ := [
  ("padding_length", .ok (sp.int (VariableDatum.paddingLength datum)))]

def irregularAxisTold (axis : IrregularAxis.Axis) : Told δ := [
  ("number_of_points", .ok (sp.int (IrregularAxis.numberOfPoints axis))),
  ("coordinates", (IrregularAxis.coordinates axis).map fun xs => sp.list (xs.map sp.float))]

def gridAxisTold (axis : RecordKind.gridAxisDescriptor.Value) : Told δ := [
  ("axis_type", .ok (sp.code (GridAxis.axisType axis)))]

def entityStateTold (body : PduKind.entityState.body.Value) : Told δ := [
  ("general_appearance",
    (EntityState.generalAppearance body).map (spellWord sp .generalAppearance)),
  ("land_platform_appearance",
    (EntityState.landPlatformAppearance body).map (spellWord sp .landPlatformAppearance))]

def wordTold (word : FlagWord) (r : Record) : Told δ :=
  if h : r.kind = word.kind then
    [("to_int", (word.toInt (h ▸ r.value : word.kind.Value)).map fun n => sp.int n)]
  else []

def recordTold (r : Record) : Told δ :=
  if h : r.kind = RecordKind.entityId then entityIdTold sp (h ▸ r.value)
  else if h : r.kind = RecordKind.variableDatumRecord then variableDatumTold sp (h ▸ r.value)
  else if h : r.kind = RecordKind.irregularAxisData then
    irregularAxisTold sp (h ▸ r.value : RecordKind.irregularAxisData.Value)
  else if h : r.kind = RecordKind.gridAxisDescriptor then gridAxisTold sp (h ▸ r.value)
  else FlagWord.all.flatMap fun word => wordTold sp word r

def pduTold (p : Pdu) : Told δ :=
  (if h : p.kind.body = PduKind.entityState.body then entityStateTold sp (h ▸ p.body) else []) ++
    [("body_length", p.bodyLength.map sp.int)]

def Value.told (value : Value) : Told δ :=
  (match value with
    | .record r => recordTold sp r
    | .header h => [("body_length", .ok (sp.int h.bodyLength))]
    | .pdu p => pduTold sp p) ++
  [("byte_length", value.byteLength.map sp.int)]

def Value.answer (value : Value) (name : String) : Except Error δ :=
  match (value.told sp).lookup name, (value.members sp).lookup name with
  | some told, _ => told
  | none, some member => .ok member
  | none, none => .error (.noMember value.kind.name name)

end Dis.Wire

/-! Values by name. A PDU that is made with a stored header has parts in common with it
from then on. A kind that keeps its header as it is given has the whole header in common
with the stored one; any other kind has a header of its own, and only the status in it is
common. What changes in a common part changes everywhere. -/

namespace Dis.Wire

namespace Value

def header? : Value → Option Header
  | record _ => none
  | header h => some h
  | pdu p => some p.header

def withHeader (h : Header) : Value → Value
  | record r => record r
  | header _ => header h
  | pdu p => pdu { p with header := h }

def withStatusOf (source : Header) (value : Value) : Value :=
  match value.header? with
  | some h => value.withHeader (h.withStatusOf source)
  | none => value

end Value

def statusMember : String := "status"

/-- The largest part of a value that an assignment puts another one in the place of. -/
inductive Reach where
  | member
  | status
  | header
  deriving DecidableEq

def Value.reach (path : List String) : Value → Reach
  | .record _ => .member
  | .header _ => if path = [statusMember] then .status else .member
  | .pdu _ =>
    if path = [headerMember] then .header
    else if path = [headerMember, statusMember] then .status
    else .member

structure Entry where
  name : String
  value : Value
  -- Entries of one number here have their header in common.
  header : Nat
  -- Entries of one number here have their status in common.
  status : Nat

namespace Entry

def follow (changed entry : Entry) : Entry :=
  match changed.value.header? with
  | none => entry
  | some h =>
    if entry.header = changed.header then
      { entry with value := entry.value.withHeader h, status := changed.status }
    else if entry.status = changed.status then
      { entry with value := entry.value.withStatusOf h }
    else entry

end Entry

/-- At most one entry for a name; all their numbers are below `fresh`. -/
structure Store where
  entries : List Entry := []
  fresh : Nat := 0

namespace Store

variable (store : Store)

def find? (name : String) : Option Entry := store.entries.find? fun entry => entry.name == name

def insert (entry : Entry) : Store :=
  ⟨entry :: store.entries.filter fun other => other.name != entry.name, store.fresh + 1⟩

def put (name : String) (value : Value) : Store :=
  store.insert ⟨name, value, store.fresh, store.fresh⟩

def putMade (name : String) (source : Entry) (pdu : Pdu) : Store :=
  let header := if pdu.kind.stampsHeader then store.fresh else source.header
  store.insert ⟨name, .pdu pdu, header, source.status⟩

/-- Changes the value of an entry, and whatever has the changed part in common with it.
A part that was put in the place of another one is nobody else's. -/
def change (entry : Entry) (reach : Reach) (value : Value) : Store :=
  let changed : Entry :=
    match reach with
    | .member => { entry with value }
    | .status => { entry with value, status := store.fresh }
    | .header => { entry with value, header := store.fresh, status := store.fresh }
  let update := fun (other : Entry) =>
    if other.name = changed.name then changed else changed.follow other
  ⟨store.entries.map update, store.fresh + 1⟩

end Store
end Dis.Wire

import Dis.Record

/-! Identifiers of simulations and of what they own. -/

namespace Dis.RecordKind

def simulationAddress : RecordKind := ⟨"SimulationAddress",
  .u16 "site" <| .u16 "application" .done, false, some 4⟩

def identifier (name number : String) : RecordKind := ⟨name,
  .sub "simulation_address" simulationAddress <| .u16 number .done, false, some 6⟩

def entityId : RecordKind := identifier "EntityId" "entity_number"
def eventId : RecordKind := identifier "EventId" "event_number"
def simulationIdentifier : RecordKind := identifier "SimulationIdentifier" "reference_number"
def objectIdentifier : RecordKind := identifier "ObjectIdentifier" "object_number"

end Dis.RecordKind

namespace Dis.EntityId

def of (site application entityNumber : Int) : RecordKind.entityId.Value :=
  ((site, application, ()), entityNumber, ())

def address (id : RecordKind.entityId.Value) : RecordKind.simulationAddress.Value :=
  RecordKind.entityId.layout.member "simulation_address" id

def site (id : RecordKind.entityId.Value) : Int :=
  RecordKind.simulationAddress.layout.member "site" (address id)

def application (id : RecordKind.entityId.Value) : Int :=
  RecordKind.simulationAddress.layout.member "application" (address id)

end Dis.EntityId

/-! Type records: what an entity, a radio, an object or a munition is. -/

namespace Dis.RecordKind

def entityType : RecordKind := ⟨"EntityType",
  .enum8 "kind" .entityKind <| .u8 "domain" <| .enum16 "country" .country <|
  .u8 "category" <| .u8 "subcategory" <| .u8 "specific" <| .u8 "extra" .done, false, some 8⟩

def radioType : RecordKind := ⟨"RadioType",
  .atom "kind" (.enum .entityKind .u8 7) <| .u8 "domain" <| .enum16 "country" .country <|
  .u8 "category" <| .u8 "nomenclature_version" <| .u16 "nomenclature" .done, false, some 8⟩

def objectType : RecordKind := ⟨"ObjectType",
  .u8 "domain" <| .u8 "object_kind" <| .u8 "category" <| .u8 "subcategory" .done, false, some 4⟩

def modulationType : RecordKind := ⟨"ModulationType",
  .u16 "spread_spectrum" <| .u16 "major_modulation" <| .u16 "detail" <|
  .u16 "radio_system" .done, false, some 8⟩

def munitionDescriptor : RecordKind := ⟨"MunitionDescriptor",
  .sub "munition_type" entityType <| .u16 "warhead" <| .u16 "fuse" <| .u16 "quantity" <|
  .u16 "rate" .done, false, some 16⟩

/-! Vectors, positions, angles and times. -/

def vector (name : String) : RecordKind := ⟨name,
  .single "x" <| .single "y" <| .single "z" .done, false, some 12⟩

def vector3Float : RecordKind := vector "Vector3Float"
-- Metres per second.
def linearVelocity : RecordKind := vector "LinearVelocity"
-- Metres per second squared.
def linearAcceleration : RecordKind := vector "LinearAcceleration"
-- Radians per second about the body axes.
def angularVelocity : RecordKind := vector "AngularVelocity"
-- Metres from the origin of the entity.
def entityCoordinateVector : RecordKind := vector "EntityCoordinateVector"

-- Geocentric position in metres.
def worldCoordinate : RecordKind := ⟨"WorldCoordinate",
  .double "x" <| .double "y" <| .double "z" .done, false, some 24⟩

def eulerAngles : RecordKind := ⟨"EulerAngles",
  .single "psi" <| .single "theta" <| .single "phi" .done, false, some 12⟩

def clockTime : RecordKind := ⟨"ClockTime",
  .int "hour" .i32 <| .u32 "time_past_hour" .done, false, some 8⟩

/-! Errors and offsets of live entities, in eighths of a unit. -/

def positionError : RecordKind := ⟨"PositionError",
  .fixedPoint "horizontal" <| .fixedPoint "vertical" .done, false, some 4⟩

def orientationError : RecordKind := ⟨"OrientationError",
  .fixedPoint "azimuth" <| .fixedPoint "elevation" <| .fixedPoint "rotation" .done, false, some 6⟩

def relativeWorldCoordinates : RecordKind := ⟨"RelativeWorldCoordinates",
  .u16 "reference_point" <| .fixedPoint "delta_x" <| .fixedPoint "delta_y" <|
  .fixedPoint "delta_z" .done, false, some 8⟩

/-! Building blocks of an entity's state. -/

def deadReckoningParameters : RecordKind := ⟨"DeadReckoningParameters",
  .enum8 "algorithm" .deadReckoningAlgorithm <|
  .atom "other_parameters" (.octets 15) <|
  .sub "linear_acceleration" linearAcceleration <|
  .sub "angular_velocity" angularVelocity .done, false, some 40⟩

def markingCharacters : Nat := 11

def entityMarking : RecordKind := ⟨"EntityMarking",
  .atom "character_set" (.enum .entityMarkingCharacterSet .u8 1) <|
  .atom "characters" (.text markingCharacters) .done, false,
  some (1 + markingCharacters)⟩

def variableParameter : RecordKind := ⟨"VariableParameter",
  .enum8 "record_type" .variableParameterRecordType <| .double "field_1" <| .u32 "field_2" <|
  .u16 "field_3" <| .u8 "field_4" .done, false, some 16⟩

/-- Variable parameters an entity state or a detonation may carry. -/
def mostVariableParameters : Nat := 64

/-! Datum records: numbered values of 32 bits or of any number of bits. -/

def fixedDatumRecord : RecordKind := ⟨"FixedDatumRecord",
  .u32 "datum_id" <| .u32 "datum_value" .done, false, some 8⟩

def datumBoundary : Nat := 64

def variableDatumRecord : RecordKind := ⟨"VariableDatumRecord",
  .u32 "datum_id" <| .bits "length_bits" .u32 <|
  .sized "value" (.payload datumBoundary) ["length_bits"] .done, false, none⟩

/-- Both counts stand before both collections. -/
def datumSpecification : RecordKind := ⟨"DatumSpecification",
  .counter "number_of_fixed_datum_records" .u32 <|
  .counter "number_of_variable_datum_records" .u32 <|
  .subs "fixed_datum_records" fixedDatumRecord "number_of_fixed_datum_records" <|
  .subs "variable_datum_records" variableDatumRecord "number_of_variable_datum_records" .done,
  false, none⟩

def datumIdList : RecordKind := ⟨"DatumIdList",
  .counter "number_of_fixed_datum_ids" .u32 <|
  .counter "number_of_variable_datum_ids" .u32 <|
  .sized "fixed_datum_ids" (.numbers .u32) ["number_of_fixed_datum_ids"] <|
  .sized "variable_datum_ids" (.numbers .u32) ["number_of_variable_datum_ids"] .done,
  false, none⟩

end Dis.RecordKind

namespace Dis.VariableDatum

def lengthBits (datum : RecordKind.variableDatumRecord.Value) : Option Int :=
  RecordKind.variableDatumRecord.layout.member "length_bits" datum

/-- Zero octets after the value; there are none while its length is missing. -/
def paddingLength (datum : RecordKind.variableDatumRecord.Value) : Int :=
  paddingOctets ((lengthBits datum).getD 0) RecordKind.datumBoundary

end Dis.VariableDatum

/-! Records of variable extent. -/

namespace Dis.RecordKind

/-- Its values take up the length of one record times the number of records. -/
def recordSpecificationElement : RecordKind := ⟨"RecordSpecificationElement",
  .u32 "record_id" <| .u32 "record_set_serial_number" <| .u16 "record_length" <|
  .u16 "record_count" <|
  .sized "record_values" .octets ["record_length", "record_count"] .done, false, none⟩

def recordSpecification : RecordKind := ⟨"RecordSpecification",
  .counter "number_of_record_sets" .u32 <|
  .subs "record_sets" recordSpecificationElement "number_of_record_sets" .done, false, none⟩

def standardVariableRecord : RecordKind := ⟨"StandardVariableRecord",
  .u32 "record_type" <| .counter "record_length" .u16 <|
  .sized "record_specific_fields" .octets ["record_length"] .done, false, none⟩

def standardVariableSpecification : RecordKind := ⟨"StandardVariableSpecification",
  .counter "number_of_records" .u16 <|
  .subs "records" standardVariableRecord "number_of_records" .done, false, none⟩

/-! Opaque records whose size stands in the record around them. -/

def opaqueRecord (name : String) : RecordKind := ⟨name, .tail "record_specific_fields", true, none⟩

def lengthBoundRecord : RecordKind := opaqueRecord "LengthBoundRecord"
def antennaPattern : RecordKind := opaqueRecord "AntennaPattern"
def modulationParameters : RecordKind := opaqueRecord "ModulationParameters"

/-! Axes of gridded data, with regular or with listed sample points. -/

def regularAxisData : RecordKind := ⟨"RegularAxisData",
  .u16 "number_of_points" <| .u16 "initial_index" .done, false, some 4⟩

/-- Whatever follows the samples belongs to the record as its padding. -/
def irregularAxisData : RecordKind := ⟨"IrregularAxisData",
  .counter "number_of_points" .u16 <| .u16 "initial_index" <|
  .atom "coordinate_scale" (.float .double .one) <| .double "coordinate_offset" <|
  .sized "x_values" (.numbers .u16) ["number_of_points"] <| .tail "padding", false, none⟩

def gridAxisDescriptor : RecordKind := ⟨"GridAxisDescriptor",
  .double "domain_initial" <| .double "domain_final" <| .u16 "domain_points" <|
  .u8 "interleaf_factor" <| .tag "axis_type" .gridAxisType .u8 <|
  .choice "axis_data" "axis_type" regularAxisData.name regularAxisData.layout
    irregularAxisData.name irregularAxisData.layout .done, false, none⟩

end Dis.RecordKind

namespace Dis

def axisPaddingOctets (points : Int) : Int := paddingOctets (points * 16) 32

namespace IrregularAxis

abbrev Axis : Type := RecordKind.irregularAxisData.Value

/-- An axis padded to a 32-bit boundary after its samples. -/
def aligned (xs : List Int) (initialIndex : Int) (scale offset : Binary64) : Axis :=
  (initialIndex, scale, offset, xs, Octets.zeros (axisPaddingOctets xs.length).toNat)

def scale (axis : Axis) : Binary64 :=
  RecordKind.irregularAxisData.layout.member "coordinate_scale" axis

def offset (axis : Axis) : Binary64 :=
  RecordKind.irregularAxisData.layout.member "coordinate_offset" axis

def samples (axis : Axis) : List Int := RecordKind.irregularAxisData.layout.member "x_values" axis

def numberOfPoints (axis : Axis) : Nat := (samples axis).length

/-- Sample times scale plus offset, rounded after each step. -/
def coordinate (axis : Axis) (x : Int) : Except Error Binary64 :=
  match Binary64.ofInt? x with
  | some x => .ok ((x.mul (scale axis)).add (offset axis))
  | none => .error .integerTooLarge

def coordinates (axis : Axis) : Except Error (List Binary64) :=
  (samples axis).mapM (coordinate axis)

end IrregularAxis

namespace GridAxis

def axisData (axis : RecordKind.gridAxisDescriptor.Value) :
    RecordKind.regularAxisData.Value ⊕ RecordKind.irregularAxisData.Value :=
  RecordKind.gridAxisDescriptor.layout.member "axis_data" axis

def axisType (axis : RecordKind.gridAxisDescriptor.Value) : Code .gridAxisType :=
  match axisData axis with
  | .inl _ => Enumeration.gridAxisType.decode 0
  | .inr _ => Enumeration.gridAxisType.decode 1

end GridAxis

/-! Flag words: records that are one unsigned number, sub-field by sub-field. -/

structure FlagWord where
  name : String
  octets : Nat
  -- From the most significant bit down.
  fields : List BitField

namespace FlagWord

def kind (word : FlagWord) : RecordKind :=
  ⟨word.name, .word word.octets word.fields .done, false, some word.octets⟩

abbrev Value (word : FlagWord) : Type := word.kind.Value

/-- The number that the encoded word spells. -/
def toInt (word : FlagWord) (value : word.Value) : Except Error Nat :=
  (word.kind.encode value).map Octets.toNat

/-- The word whose encoding spells the number. -/
def ofInt (word : FlagWord) (n : Int) : Except Error word.Value :=
  if 0 ≤ n ∧ n < 2 ^ (word.octets * 8) then word.kind.decode (Octets.ofNat word.octets n.toNat)
  else .error (.wordRange word.name (word.octets * 8) n)

/-- The status octet of the standard header. The meaning of `type_specific`
depends on the PDU type. -/
def pduStatus : FlagWord where
  name := "PduStatus"
  octets := 1
  fields := [
    .gap 2,
    .number "type_specific" 2,
    .enum "coupled_extension" .coupledExtensionIndicator 1,
    .enum "lvc" .lvcIndicator 2,
    .enum "transferred_entity" .transferredEntityIndicator 1]

def generalAppearance : FlagWord where
  name := "GeneralAppearance"
  octets := 2
  fields := [
    .flag "flaming",
    .enum "lights" .lights 3,
    .enum "hatch" .hatchState 3,
    .enum "trailing_effects" .trailingEffects 2,
    .enum "smoke" .smoke 2,
    .enum "damage" .damage 2,
    .flag "fire_power_killed",
    .flag "mobility_killed",
    .enum "paint_scheme" .paintScheme 1]

def landPlatformAppearance : FlagWord where
  name := "LandPlatformAppearance"
  octets := 4
  fields := [
    .flag "masked",
    .flag "surrendered",
    .flag "interior_lights",
    .flag "spot_lights",
    .flag "blackout_brake_lights",
    .flag "blackout_lights",
    .flag "ramp_down",
    .flag "tent_extended",
    .flag "deactivated",
    .flag "power_plant_on",
    .flag "frozen",
    .gap 1,
    .flag "concealed",
    .enum "camouflage" .camouflage 2,
    .flag "launcher_raised",
    .flag "flaming",
    .flag "brake_lights",
    .flag "tail_lights",
    .flag "head_lights",
    .enum "hatch" .hatchState 3,
    .enum "trailing_effects" .trailingEffects 2,
    .enum "smoke" .smoke 2,
    .enum "damage" .damage 2,
    .flag "fire_power_killed",
    .flag "mobility_killed",
    .enum "paint_scheme" .paintScheme 1]

def all : List FlagWord := [pduStatus, generalAppearance, landPlatformAppearance]

end FlagWord
end Dis

/-! All kinds of records, headers and PDUs apart. -/

namespace Dis.RecordKind

def fixedKinds : List RecordKind := [
  simulationAddress, entityId, eventId, simulationIdentifier, objectIdentifier,
  entityType, radioType, objectType, modulationType, munitionDescriptor,
  vector3Float, linearVelocity, linearAcceleration, angularVelocity, entityCoordinateVector,
  worldCoordinate, eulerAngles, clockTime, positionError, orientationError,
  relativeWorldCoordinates, deadReckoningParameters, entityMarking, variableParameter,
  fixedDatumRecord, regularAxisData]

def variableKinds : List RecordKind := [
  variableDatumRecord, datumSpecification, datumIdList, recordSpecificationElement,
  recordSpecification, standardVariableRecord, standardVariableSpecification,
  irregularAxisData, gridAxisDescriptor]

def lengthBoundKinds : List RecordKind := [lengthBoundRecord, antennaPattern, modulationParameters]

def catalog : List RecordKind :=
  fixedKinds ++ variableKinds ++ lengthBoundKinds ++ FlagWord.all.map FlagWord.kind

end Dis.RecordKind

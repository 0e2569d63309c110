import Dis.Text

/-! Catalogued enumerations. A number the catalogue does not know stands for the
first member, so reading never rejects one; a value may still hold such a number,
and it is then written as it is. -/

namespace Dis

/-- A table of names and numbers; the first row is the fallback. -/
structure Enumeration where
  name : String
  fallback : String × Nat
  others : List (String × Nat)
  deriving DecidableEq

namespace Enumeration

variable (e : Enumeration)

def members : List (String × Nat) := e.fallback :: e.others

def size : Nat := e.others.length + 1

def member (i : Fin e.size) : String × Nat := e.members.get i

end Enumeration

/-- A member of the catalogue, or any number in its place. -/
inductive Code (e : Enumeration) where
  | member (index : Fin e.size)
  | raw (number : Int)
  deriving DecidableEq

namespace Code

variable {e : Enumeration}

def number : Code e → Int
  | .member i => (e.member i).2
  | .raw n => n

def name? : Code e → Option String
  | .member i => some (e.member i).1
  | .raw _ => none

/-- Codes of one number are the same value, named or not. -/
def sameValue (a b : Code e) : Bool := a.number == b.number

end Code

namespace Enumeration

variable (e : Enumeration)

def index? (p : String × Nat → Bool) : Option (Fin e.size) :=
  (List.finRange e.size).find? fun i => p (e.member i)

/-- The member of that number, or else the fallback. -/
def decode (number : Int) : Code e :=
  .member ((e.index? fun row => (row.2 : Int) == number).getD ⟨0, Nat.succ_pos _⟩)

def named? (name : String) : Option (Code e) :=
  (e.index? fun row => row.1 == name).map .member

end Enumeration
end Dis

/-! The catalogue: the part of the standard's enumerations that the records use. -/

namespace Dis.Enumeration

def protocolVersion : Enumeration := ⟨"ProtocolVersion", ("OTHER", 0), [
  ("DIS_PDU_VERSION_1_0", 1), ("IEEE_1278_1993", 2),
  ("DIS_APPLICATIONS_VERSION_2_0_THIRD_DRAFT", 3),
  ("DIS_APPLICATIONS_VERSION_2_0_FOURTH_DRAFT", 4), ("IEEE_1278_1_1995", 5),
  ("IEEE_1278_1A_1998", 6), ("IEEE_1278_1_2012", 7)]⟩

def pduType : Enumeration := ⟨"PduType", ("OTHER", 0), [
  ("ENTITY_STATE", 1), ("FIRE", 2), ("DETONATION", 3), ("COLLISION", 4), ("SERVICE_REQUEST", 5),
  ("RESUPPLY_OFFER", 6), ("RESUPPLY_RECEIVED", 7), ("RESUPPLY_CANCEL", 8), ("REPAIR_COMPLETE", 9),
  ("REPAIR_RESPONSE", 10), ("CREATE_ENTITY", 11), ("REMOVE_ENTITY", 12), ("START_RESUME", 13),
  ("STOP_FREEZE", 14), ("ACKNOWLEDGE", 15), ("ACTION_REQUEST", 16), ("ACTION_RESPONSE", 17),
  ("DATA_QUERY", 18), ("SET_DATA", 19), ("DATA", 20), ("EVENT_REPORT", 21), ("COMMENT", 22),
  ("ELECTROMAGNETIC_EMISSION", 23), ("DESIGNATOR", 24), ("TRANSMITTER", 25), ("SIGNAL", 26),
  ("RECEIVER", 27), ("IFF", 28), ("UNDERWATER_ACOUSTIC", 29),
  ("SUPPLEMENTAL_EMISSION_ENTITY_STATE", 30), ("INTERCOM_SIGNAL", 31), ("INTERCOM_CONTROL", 32),
  ("AGGREGATE_STATE", 33), ("IS_GROUP_OF", 34), ("TRANSFER_OWNERSHIP", 35), ("IS_PART_OF", 36),
  ("MINEFIELD_STATE", 37), ("MINEFIELD_QUERY", 38), ("MINEFIELD_DATA", 39),
  ("MINEFIELD_RESPONSE_NACK", 40), ("ENVIRONMENTAL_PROCESS", 41), ("GRIDDED_DATA", 42),
  ("POINT_OBJECT_STATE", 43), ("LINEAR_OBJECT_STATE", 44), ("AREAL_OBJECT_STATE", 45),
  ("TIME_SPACE_POSITION_INFORMATION", 46), ("APPEARANCE", 47), ("ARTICULATED_PARTS", 48),
  ("LIVE_ENTITY_FIRE", 49), ("LIVE_ENTITY_DETONATION", 50), ("CREATE_ENTITY_RELIABLE", 51),
  ("REMOVE_ENTITY_RELIABLE", 52), ("START_RESUME_RELIABLE", 53), ("STOP_FREEZE_RELIABLE", 54),
  ("ACKNOWLEDGE_RELIABLE", 55), ("ACTION_REQUEST_RELIABLE", 56), ("ACTION_RESPONSE_RELIABLE", 57),
  ("DATA_QUERY_RELIABLE", 58), ("SET_DATA_RELIABLE", 59), ("DATA_RELIABLE", 60),
  ("EVENT_REPORT_RELIABLE", 61), ("COMMENT_RELIABLE", 62), ("RECORD_RELIABLE", 63),
  ("SET_RECORD_RELIABLE", 64), ("RECORD_QUERY_RELIABLE", 65), ("COLLISION_ELASTIC", 66),
  ("ENTITY_STATE_UPDATE", 67), ("DIRECTED_ENERGY_FIRE", 68), ("ENTITY_DAMAGE_STATUS", 69),
  ("INFORMATION_OPERATIONS_ACTION", 70), ("INFORMATION_OPERATIONS_REPORT", 71), ("ATTRIBUTE", 72)]⟩

def protocolFamily : Enumeration := ⟨"ProtocolFamily", ("OTHER", 0), [
  ("ENTITY_INFORMATION_INTERACTION", 1), ("WARFARE", 2), ("LOGISTICS", 3),
  ("RADIO_COMMUNICATIONS", 4), ("SIMULATION_MANAGEMENT", 5),
  ("DISTRIBUTED_EMISSION_REGENERATION", 6), ("ENTITY_MANAGEMENT", 7), ("MINEFIELD", 8),
  ("SYNTHETIC_ENVIRONMENT", 9), ("SIMULATION_MANAGEMENT_WITH_RELIABILITY", 10),
  ("LIVE_ENTITY", 11), ("NON_REAL_TIME", 12), ("INFORMATION_OPERATIONS", 13)]⟩

def liveEntitySubprotocol : Enumeration := ⟨"LiveEntitySubprotocol", ("NO_SUBPROTOCOL", 0), []⟩

def forceId : Enumeration := ⟨"ForceId", ("OTHER", 0), [
  ("FRIENDLY", 1), ("OPPOSING", 2), ("NEUTRAL", 3), ("FRIENDLY_2", 4), ("OPPOSING_2", 5),
  ("NEUTRAL_2", 6), ("FRIENDLY_3", 7), ("OPPOSING_3", 8), ("NEUTRAL_3", 9), ("FRIENDLY_4", 10),
  ("OPPOSING_4", 11), ("NEUTRAL_4", 12), ("FRIENDLY_5", 13), ("OPPOSING_5", 14), ("NEUTRAL_5", 15),
  ("FRIENDLY_6", 16), ("OPPOSING_6", 17), ("NEUTRAL_6", 18), ("FRIENDLY_7", 19),
  ("OPPOSING_7", 20), ("NEUTRAL_7", 21), ("FRIENDLY_8", 22), ("OPPOSING_8", 23), ("NEUTRAL_8", 24),
  ("FRIENDLY_9", 25), ("OPPOSING_9", 26), ("NEUTRAL_9", 27), ("FRIENDLY_10", 28),
  ("OPPOSING_10", 29), ("NEUTRAL_10", 30)]⟩

def entityKind : Enumeration := ⟨"EntityKind", ("OTHER", 0), [
  ("PLATFORM", 1), ("MUNITION", 2), ("LIFE_FORM", 3), ("ENVIRONMENTAL", 4),
  ("CULTURAL_FEATURE", 5), ("SUPPLY", 6), ("RADIO", 7), ("EXPENDABLE", 8), ("SENSOR_EMITTER", 9)]⟩

def platformDomain : Enumeration := ⟨"PlatformDomain", ("OTHER", 0), [
  ("LAND", 1), ("AIR", 2), ("SURFACE", 3), ("SUBSURFACE", 4), ("SPACE", 5)]⟩

def country : Enumeration := ⟨"Country", ("OTHER", 0), [
  ("AUSTRALIA", 13), ("CANADA", 39), ("FRANCE", 71), ("GERMANY", 78), ("UNITED_KINGDOM", 224),
  ("UNITED_STATES_OF_AMERICA", 225)]⟩

def deadReckoningAlgorithm : Enumeration := ⟨"DeadReckoningAlgorithm", ("OTHER", 0), [
  ("STATIC", 1), ("DRM_FPW", 2), ("DRM_RPW", 3), ("DRM_RVW", 4), ("DRM_FVW", 5), ("DRM_FPB", 6),
  ("DRM_RPB", 7), ("DRM_RVB", 8), ("DRM_FVB", 9)]⟩

def entityMarkingCharacterSet : Enumeration := ⟨"EntityMarkingCharacterSet", ("UNUSED", 0), [
  ("ASCII", 1), ("US_ARMY_MARKING", 2), ("DIGIT_CHEVRON", 3)]⟩

def variableParameterRecordType : Enumeration :=
  ⟨"VariableParameterRecordType", ("ARTICULATED_PART", 0), [
  ("ATTACHED_PART", 1), ("SEPARATION", 2), ("ENTITY_TYPE", 3), ("ENTITY_ASSOCIATION", 4)]⟩

def detonationResult : Enumeration := ⟨"DetonationResult", ("OTHER", 0), [
  ("ENTITY_IMPACT", 1), ("ENTITY_PROXIMATE_DETONATION", 2), ("GROUND_IMPACT", 3),
  ("GROUND_PROXIMATE_DETONATION", 4), ("DETONATION", 5), ("NONE_OR_NO_DETONATION", 6)]⟩

def stopFreezeReason : Enumeration := ⟨"StopFreezeReason", ("OTHER", 0), [
  ("RECESS", 1), ("TERMINATION", 2), ("SYSTEM_FAILURE", 3), ("SECURITY_VIOLATION", 4),
  ("ENTITY_RECONSTITUTION", 5), ("STOP_FOR_RESET", 6), ("STOP_FOR_RESTART", 7),
  ("ABORT_TRAINING_RETURN_TO_TACTICAL_OPERATIONS", 8)]⟩

def acknowledgeFlag : Enumeration := ⟨"AcknowledgeFlag", ("OTHER", 0), [
  ("CREATE_ENTITY", 1), ("REMOVE_ENTITY", 2), ("START_RESUME", 3), ("STOP_FREEZE", 4),
  ("TRANSFER_OWNERSHIP", 5)]⟩

def acknowledgeResponseFlag : Enumeration := ⟨"AcknowledgeResponseFlag", ("OTHER", 0), [
  ("ABLE_TO_COMPLY", 1), ("UNABLE_TO_COMPLY", 2), ("PENDING_OPERATOR_ACTION", 3)]⟩

def requestStatus : Enumeration := ⟨"RequestStatus", ("OTHER", 0), [
  ("PENDING", 1), ("EXECUTING", 2), ("PARTIALLY_COMPLETE", 3), ("COMPLETE", 4),
  ("REQUEST_REJECTED", 5), ("RETRANSMIT_REQUEST_NOW", 6), ("RETRANSMIT_REQUEST_LATER", 7),
  ("INVALID_TIME_PARAMETERS", 8), ("SIMULATION_TIME_EXCEEDED", 9), ("REQUEST_DONE", 10)]⟩

def transmitState : Enumeration := ⟨"TransmitState", ("OFF", 0), [
  ("ON_BUT_NOT_TRANSMITTING", 1), ("ON_AND_TRANSMITTING", 2)]⟩

def inputSource : Enumeration := ⟨"InputSource", ("OTHER", 0), [
  ("PILOT", 1), ("COPILOT", 2), ("FIRST_OFFICER", 3), ("DRIVER", 4), ("LOADER", 5), ("GUNNER", 6),
  ("COMMANDER", 7), ("DIGITAL_DATA_DEVICE", 8), ("INTERCOM", 9)]⟩

def antennaPatternType : Enumeration := ⟨"AntennaPatternType", ("ISOTROPIC", 0), [
  ("BEAM", 1), ("SPHERICAL_HARMONIC", 2)]⟩

def cryptoSystem : Enumeration := ⟨"CryptoSystem", ("NO_ENCRYPTION_DEVICE", 0), [
  ("KY_28", 1), ("KY_58", 2), ("NARROW_SPECTRUM_SECURE_VOICE", 3),
  ("WIDE_SPECTRUM_SECURE_VOICE", 4), ("SINCGARS_ICOM", 5), ("KY_75", 6), ("KY_100", 7),
  ("KY_57", 8), ("KYV_5", 9)]⟩

def receiverState : Enumeration := ⟨"ReceiverState", ("OFF", 0), [
  ("ON_BUT_NOT_RECEIVING", 1), ("ON_AND_RECEIVING", 2)]⟩

def gridAxisType : Enumeration := ⟨"GridAxisType", ("REGULAR", 0), [
  ("IRREGULAR", 1)]⟩

/-! Sub-fields of the flag words. -/

def transferredEntityIndicator : Enumeration := ⟨"TransferredEntityIndicator", ("NO_DIFFERENCE", 0), [
  ("DIFFERENCE", 1)]⟩

def lvcIndicator : Enumeration := ⟨"LvcIndicator", ("NO_STATEMENT", 0), [
  ("LIVE", 1), ("VIRTUAL", 2), ("CONSTRUCTIVE", 3)]⟩

def coupledExtensionIndicator : Enumeration := ⟨"CoupledExtensionIndicator", ("NOT_COUPLED", 0), [
  ("COUPLED", 1)]⟩

def paintScheme : Enumeration := ⟨"PaintScheme", ("UNIFORM_COLOR", 0), [
  ("CAMOUFLAGE", 1)]⟩

def damage : Enumeration := ⟨"Damage", ("NO_DAMAGE", 0), [
  ("SLIGHT_DAMAGE", 1), ("MODERATE_DAMAGE", 2), ("DESTROYED", 3)]⟩

def smoke : Enumeration := ⟨"Smoke", ("NOT_SMOKING", 0), [
  ("SMOKE_PLUME_RISING", 1), ("ENGINE_SMOKE", 2), ("SMOKE_PLUME_AND_ENGINE_SMOKE", 3)]⟩

def trailingEffects : Enumeration := ⟨"TrailingEffects", ("NONE", 0), [
  ("SMALL", 1), ("MEDIUM", 2), ("LARGE", 3)]⟩

def hatchState : Enumeration := ⟨"HatchState", ("NOT_APPLICABLE", 0), [
  ("CLOSED", 1), ("POPPED", 2), ("POPPED_PERSON_VISIBLE", 3), ("OPEN", 4),
  ("OPEN_PERSON_VISIBLE", 5)]⟩

def lights : Enumeration := ⟨"Lights", ("NONE", 0), [
  ("RUNNING_LIGHTS_ON", 1), ("NAVIGATION_LIGHTS_ON", 2), ("FORMATION_LIGHTS_ON", 3)]⟩

def camouflage : Enumeration := ⟨"Camouflage", ("DESERT", 0), [
  ("WINTER", 1), ("FOREST", 2), ("OTHER", 3)]⟩

def catalog : List Enumeration := [
  protocolVersion, pduType, protocolFamily, liveEntitySubprotocol, forceId, entityKind,
  platformDomain, country, deadReckoningAlgorithm, entityMarkingCharacterSet,
  variableParameterRecordType, detonationResult, stopFreezeReason, acknowledgeFlag,
  acknowledgeResponseFlag, requestStatus, transmitState, inputSource, antennaPatternType,
  cryptoSystem, receiverState, gridAxisType, transferredEntityIndicator, lvcIndicator,
  coupledExtensionIndicator, paintScheme, damage, smoke, trailingEffects, hatchState, lights,
  camouflage]

end Dis.Enumeration

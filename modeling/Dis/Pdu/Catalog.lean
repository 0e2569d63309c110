import Dis.Pdu

/-! The entity information family. -/

namespace Dis

namespace PduKind

abbrev parameterCount (rest : Layout) : Layout :=
  .count "number_of_variable_parameters" .u8
    (some ⟨"variable_parameters", RecordKind.mostVariableParameters⟩) rest

abbrev parameters (rest : Layout) : Layout :=
  .subs "variable_parameters" .variableParameter "number_of_variable_parameters" rest

def entityState : PduKind where
  token := .entityState
  name := "EntityStatePdu"
  pduType := 1
  family := 1
  header := .standard
  body :=
    .sub "entity_id" .entityId <| .enum8 "force_id" .forceId <| parameterCount <|
    .sub "entity_type" .entityType <| .sub "alternative_entity_type" .entityType <|
    .sub "entity_linear_velocity" .linearVelocity <|
    .sub "entity_location" .worldCoordinate <| .sub "entity_orientation" .eulerAngles <|
    .u32 "entity_appearance" <|
    .sub "dead_reckoning_parameters" .deadReckoningParameters <|
    .sub "entity_marking" .entityMarking <| .u32 "capabilities" <| parameters .done

end PduKind

namespace EntityState

def appearance (body : PduKind.entityState.body.Value) : Int :=
  PduKind.entityState.body.member "entity_appearance" body

/-- The low 16 bits of the appearance, which every entity kind shares. -/
def generalAppearance (body : PduKind.entityState.body.Value) :
    Except Error FlagWord.generalAppearance.Value :=
  FlagWord.generalAppearance.ofInt (appearance body % 2 ^ 16)

def landPlatformAppearance (body : PduKind.entityState.body.Value) :
    Except Error FlagWord.landPlatformAppearance.Value :=
  FlagWord.landPlatformAppearance.ofInt (appearance body)

end EntityState
end Dis

/-! The warfare family. -/

namespace Dis.PduKind

def fire : PduKind where
  token := .fire
  name := "FirePdu"
  pduType := 2
  family := 2
  header := .standard
  body :=
    .sub "firing_entity_id" .entityId <| .sub "target_entity_id" .entityId <|
    .sub "munition_expendable_id" .entityId <| .sub "event_id" .eventId <|
    .u32 "fire_mission_index" <| .sub "location_in_world" .worldCoordinate <|
    .sub "descriptor" .munitionDescriptor <| .sub "velocity" .linearVelocity <|
    .single "range" .done

def detonation : PduKind where
  token := .detonation
  name := "DetonationPdu"
  pduType := 3
  family := 2
  header := .standard
  body :=
    .sub "firing_entity_id" .entityId <| .sub "target_entity_id" .entityId <|
    .sub "exploding_entity_id" .entityId <| .sub "event_id" .eventId <|
    .sub "velocity" .linearVelocity <| .sub "location_in_world" .worldCoordinate <|
    .sub "descriptor" .munitionDescriptor <|
    .sub "location_in_entity_coordinates" .entityCoordinateVector <|
    .enum8 "detonation_result" .detonationResult <| parameterCount <| .padding 2 <|
    parameters .done

/-! The radio communications family. -/

/-- The two opaque records are sized by counts that stand well before them. -/
def transmitter : PduKind where
  token := .transmitter
  name := "TransmitterPdu"
  pduType := 25
  family := 4
  header := .standard
  body :=
    .sub "radio_reference_id" .entityId <| .u16 "radio_number" <|
    .sub "radio_entity_type" .radioType <| .enum8 "transmit_state" .transmitState <|
    .enum8 "input_source" .inputSource <|
    .counter "number_of_variable_transmitter_parameters" .u16 <|
    .sub "antenna_location" .worldCoordinate <|
    .sub "relative_antenna_location" .entityCoordinateVector <|
    .enum16 "antenna_pattern_type" .antennaPatternType <|
    .counter "antenna_pattern_length" .u16 <| .int "frequency" .u64 <|
    .single "transmit_frequency_bandwidth" <| .single "power" <|
    .sub "modulation_type" .modulationType <| .enum16 "crypto_system" .cryptoSystem <|
    .u16 "crypto_key_id" <| .counter "modulation_parameters_length" .u8 <| .padding 3 <|
    .sized "modulation_parameters" (.blob RecordKind.modulationParameters.name)
      ["modulation_parameters_length"] <|
    .sized "antenna_pattern" (.blob RecordKind.antennaPattern.name)
      ["antenna_pattern_length"] <|
    .subs "variable_transmitter_parameters" .standardVariableRecord
      "number_of_variable_transmitter_parameters" .done

/-- The data length counts bits; the data is padded to its boundary. -/
def signal : PduKind where
  token := .signal
  name := "SignalPdu"
  pduType := 26
  family := 4
  header := .standard
  body :=
    .sub "radio_reference_id" .entityId <| .u16 "radio_number" <| .u16 "encoding_scheme" <|
    .u16 "tdl_type" <| .u32 "sample_rate" <| .bits "data_length" .u16 <| .u16 "samples" <|
    .sized "data" (.payload signalBoundary) ["data_length"] .done

def receiver : PduKind where
  token := .receiver
  name := "ReceiverPdu"
  pduType := 27
  family := 4
  header := .standard
  body :=
    .sub "radio_reference_id" .entityId <| .u16 "radio_number" <|
    .enum16 "receiver_state" .receiverState <| .padding 2 <| .single "received_power" <|
    .sub "transmitter_radio_reference_id" .entityId <| .u16 "transmitter_radio_number" .done

/-! The simulation management family. Its PDUs go from one entity to another, and
many carry a datum specification. -/

def management (token : Token) (name : String) (pduType : Nat) (rest : Layout) : PduKind where
  token
  name
  pduType
  family := 5
  header := .standard
  body :=
    .sub "originating_entity_id" .entityId <| .sub "receiving_entity_id" .entityId rest
  generals := [.simulationManagement]

/-- The general form of the family: what asks for it takes every PDU of the family. -/
def simulationManagement : PduKind :=
  management .simulationManagement "SimulationManagementPdu" 0 .done

abbrev datums (rest : Layout) : Layout := .sub "datum_specification" .datumSpecification rest

def createEntity : PduKind :=
  management .createEntity "CreateEntityPdu" 11 <| .u32 "request_id" .done

def removeEntity : PduKind :=
  management .removeEntity "RemoveEntityPdu" 12 <| .u32 "request_id" .done

def startResume : PduKind := management .startResume "StartResumePdu" 13 <|
  .sub "real_world_time" .clockTime <| .sub "simulation_time" .clockTime <|
  .u32 "request_id" .done

/-- Bits of the frozen behaviour: run the clock, transmit updates, process updates. -/
def stopFreeze : PduKind := management .stopFreeze "StopFreezePdu" 14 <|
  .sub "real_world_time" .clockTime <| .enum8 "reason" .stopFreezeReason <|
  .u8 "frozen_behavior" <| .padding 2 <| .u32 "request_id" .done

def acknowledge : PduKind := management .acknowledge "AcknowledgePdu" 15 <|
  .enum16 "acknowledge_flag" .acknowledgeFlag <|
  .enum16 "response_flag" .acknowledgeResponseFlag <| .u32 "request_id" .done

def actionRequest : PduKind := management .actionRequest "ActionRequestPdu" 16 <|
  .u32 "request_id" <| .u32 "action_id" <| datums .done

def actionResponse : PduKind := management .actionResponse "ActionResponsePdu" 17 <|
  .u32 "request_id" <| .enum32 "request_status" .requestStatus <| datums .done

def dataQuery : PduKind := management .dataQuery "DataQueryPdu" 18 <|
  .u32 "request_id" <| .u32 "time_interval" <| .sub "datum_ids" .datumIdList .done

def setData : PduKind := management .setData "SetDataPdu" 19 <|
  .u32 "request_id" <| .padding 4 <| datums .done

def data : PduKind := management .data "DataPdu" 20 <|
  .u32 "request_id" <| .padding 4 <| datums .done

def eventReport : PduKind := management .eventReport "EventReportPdu" 21 <|
  .u32 "event_type" <| .padding 4 <| datums .done

def comment : PduKind := management .comment "CommentPdu" 22 <| datums .done

/-! The kinds of PDUs that are read without any registration of their own. -/

def catalog : List PduKind := [
  entityState, fire, detonation, transmitter, signal, receiver,
  createEntity, removeEntity, startResume, stopFreeze, acknowledge, actionRequest,
  actionResponse, dataQuery, setData, data, eventReport, comment]

end Dis.PduKind

import OcppProxy.Models
import OcppProxy.Config

/-!
# Locally originated OCPP commands

The commands the proxy accepts, the frames it builds for them and how it reads the charger's
answers (`command.rs`).
-/

namespace OcppProxy

def uniqueIdPrefix : String := "proxy-"

def commandSubscriptions : List String := ["ocpp/+/command", "ocpp/+/command/current_limit"]

def commandChannelCapacity : Nat := 32

/-- A Central System Call to the charger blocks proxy Calls only while it is this young. -/
def centralCallGrace : Duration := Duration.fromSecs 10

def commandTopic (chargePointId : String) : String := s!"ocpp/{chargePointId}/command"

def currentLimitTopic (chargePointId : String) : String :=
  s!"ocpp/{chargePointId}/command/current_limit"

def commandResultTopic (chargePointId : String) : String :=
  s!"ocpp/{chargePointId}/command/result"

inductive CommandTopic where
  | command
  | currentLimit
  deriving DecidableEq, Repr

/-! ## Requests -/

inductive ProxyCommand where
  | setCurrentLimit (limitA : F64)
  | clearCurrentLimit
  | getConfiguration (keys : List String)
  | changeConfiguration (key value : String)
  | triggerMessage (requestedMessage : String) (connectorId : Option Nat)
  | getCompositeSchedule (connectorId : Option Nat) (durationS : Nat)
  deriving DecidableEq, Repr

namespace ProxyCommand

def action : ProxyCommand → String
  | setCurrentLimit _ => "SetChargingProfile"
  | clearCurrentLimit => "ClearChargingProfile"
  | getConfiguration _ => "GetConfiguration"
  | changeConfiguration _ _ => "ChangeConfiguration"
  | triggerMessage _ _ => "TriggerMessage"
  | getCompositeSchedule _ _ => "GetCompositeSchedule"

def isLimitCommand : ProxyCommand → Bool
  | setCurrentLimit _ | clearCurrentLimit => true
  | _ => false

/-- `serde_json::to_value` of the tagged enum. -/
def toValue : ProxyCommand → Json
  | setCurrentLimit limitA =>
    .ofFields [("command", .string "set_current_limit"), ("limit_a", .ofF64 limitA)]
  | clearCurrentLimit => .ofFields [("command", .string "clear_current_limit")]
  | getConfiguration keys =>
    .ofFields [("command", .string "get_configuration"), ("keys", .array (keys.map .string))]
  | changeConfiguration key value =>
    .ofFields [("command", .string "change_configuration"), ("key", .string key),
      ("value", .string value)]
  | triggerMessage requestedMessage connectorId =>
    .ofFields [("command", .string "trigger_message"),
      ("requested_message", .string requestedMessage),
      ("connector_id", .ofOption .ofNat connectorId)]
  | getCompositeSchedule connectorId durationS =>
    .ofFields [("command", .string "get_composite_schedule"),
      ("connector_id", .ofOption .ofNat connectorId), ("duration_s", .ofNat durationS)]

end ProxyCommand

inductive CommandSource where
  | mqtt
  | reapply
  deriving DecidableEq, Repr

def CommandSource.asStr : CommandSource → String
  | mqtt => "mqtt"
  | reapply => "reapply"

structure CommandRequest where
  id : String
  command : ProxyCommand
  source : CommandSource
  issuedAt : Time
  deriving DecidableEq, Repr

namespace CommandRequest

def new (now : Time) (id : String) (command : ProxyCommand) (source : CommandSource) :
    CommandRequest :=
  { id, command, source, issuedAt := now }

def generatedId (now : Time) (idPrefix : String) : String :=
  s!"{idPrefix}-{now.timestampMillis}"

end CommandRequest

/-! ## Policy and frames -/

/-- What a requested limit becomes once the configured floor and ceiling are applied. -/
structure ResolvedLimit where
  requestedA : F64
  appliedA : F64
  detail : Option String
  deriving DecidableEq, Repr

/-- Negative or non-numeric is an error; 0 pauses; below the minimum pauses too; above the ceiling
clamps. -/
def resolveLimit (config : ChargingConfig) (requestedA : F64) : Except String ResolvedLimit :=
  if !requestedA.isFinite || requestedA.lt 0 then
    .error s!"limit_a must be a non-negative number, got {requestedA.display}"
  else if requestedA.eq 0 then
    .ok ⟨requestedA, 0, some
      "0 A pauses charging (the charger reports SuspendedEVSE); the transaction stays open"⟩
  else if requestedA.lt config.minLimitA then
    .ok ⟨requestedA, 0, some (s!"{requestedA.display} A is below the {config.minLimitA.display}" ++
      " A minimum an EV will charge at; sending 0 A, which pauses charging")⟩
  else if config.maxLimitA.lt requestedA then
    .ok ⟨requestedA, config.maxLimitA.roundTenth, some
      s!"clamped to the configured ceiling of {config.maxLimitA.display} A"⟩
  else
    .ok ⟨requestedA, requestedA.roundTenth, none⟩

def triggerableMessages : List String :=
  ["BootNotification", "DiagnosticsStatusNotification", "FirmwareStatusNotification",
    "Heartbeat", "MeterValues", "StatusNotification"]

def setChargingProfilePayload (crates : Crates) (config : ChargingConfig) (limitA : F64)
    (now : Time) : Json :=
  let phases : F64 := .finite (config.numberPhases.getD 1)
  let limit := match config.rateUnit with
    | .A => limitA
    | .W => ((limitA.mul config.nominalVoltageV).mul phases).roundTenth
  let period := Json.ofFields ([("startPeriod", .ofNat 0), ("limit", .ofF64 limit)] ++
    match config.numberPhases with
    | some p => [("numberPhases", .ofNat p)]
    | none => [])
  let schedule := Json.ofFields ([("chargingRateUnit", .string config.rateUnit.asStr),
      ("chargingSchedulePeriod", .array [period])] ++
    if config.profileKind = .absolute then
      [("startSchedule", .string (crates.rfc3339Secs now))]
    else [])
  Json.ofFields [("connectorId", .ofNat config.connectorId),
    ("csChargingProfiles", .ofFields [("chargingProfileId", .ofInt config.profileId),
      ("stackLevel", .ofNat config.stackLevel),
      ("chargingProfilePurpose", .string config.purpose.asStr),
      ("chargingProfileKind", .string config.profileKind.asStr),
      ("chargingSchedule", schedule)])]

/-- The `ClearChargingProfile.req` payload naming the proxy's own profile. -/
def clearChargingProfilePayload (config : ChargingConfig) : Json :=
  .ofFields [("id", .ofInt config.profileId), ("connectorId", .ofNat config.connectorId),
    ("chargingProfilePurpose", .string config.purpose.asStr),
    ("stackLevel", .ofNat config.stackLevel)]

structure PreparedCall where
  uniqueId : String
  action : String
  /-- The frame exactly as it goes on the wire. -/
  raw : String
  /-- Amps the profile asks for, on `SetChargingProfile` only. -/
  appliedLimitA : Option F64
  detail : Option String
  deriving DecidableEq, Repr

/-- Payload, applied amps and note of a request's frame. -/
def preparePayload (crates : Crates) (config : ChargingConfig) (command : ProxyCommand)
    (now : Time) : Except String (Json × Option F64 × Option String) :=
  match command with
  | .setCurrentLimit limitA =>
    (resolveLimit config limitA).map fun resolved =>
      (setChargingProfilePayload crates config resolved.appliedA now, some resolved.appliedA,
        resolved.detail)
  | .clearCurrentLimit => .ok (clearChargingProfilePayload config, none, none)
  | .getConfiguration keys =>
    let payload := if keys.isEmpty then Json.ofFields []
      else Json.ofFields [("key", .array (keys.map .string))]
    .ok (payload, none, none)
  | .changeConfiguration key value =>
    if !config.allowedConfigurationKeys.contains key then
      .error s!"configuration key {debugStr key} is not in charging.allowed_configuration_keys"
    else .ok (.ofFields [("key", .string key), ("value", .string value)], none, none)
  | .triggerMessage requestedMessage connectorId =>
    let expected := String.intercalate ", " triggerableMessages
    if !triggerableMessages.contains requestedMessage then
      .error s!"requested_message must be one of {expected}, got {debugStr requestedMessage}"
    else .ok (.ofFields ([("requestedMessage", .string requestedMessage)] ++
      match connectorId with
      | some c => [("connectorId", .ofNat c)]
      | none => []), none, none)
  | .getCompositeSchedule connectorId durationS =>
    .ok (.ofFields [("connectorId", .ofNat (connectorId.getD config.connectorId)),
      ("duration", .ofNat durationS), ("chargingRateUnit", .string config.rateUnit.asStr)],
      none, none)

/-- Build the OCPP frame for a request; `now` is the `startSchedule` of an absolute profile. -/
def prepareCall (crates : Crates) (config : ChargingConfig) (request : CommandRequest)
    (uniqueId : String) (now : Time) : Except String PreparedCall :=
  (preparePayload crates config request.command now).map fun (payload, appliedLimitA, detail) =>
    let action := request.command.action
    { uniqueId, action, appliedLimitA, detail,
      raw := crates.toText (.array [.ofNat 2, .string uniqueId, .string action, payload]) }

section
variable {crates : Crates} {config : ChargingConfig} {request : CommandRequest}
  {uniqueId : String} {now : Time} {prepared : PreparedCall}

theorem prepareCall_action (h : prepareCall crates config request uniqueId now = .ok prepared) :
    prepared.action = request.command.action := by
  unfold prepareCall at h
  cases hp : preparePayload crates config request.command now with
  | error e => rw [hp] at h; cases h
  | ok p => rw [hp] at h; cases h; rfl

end

/-! ## Results -/

inductive CommandStatus where
  | accepted
  | rejected
  | error
  | timeout
  | notConnected
  | invalid
  | superseded
  deriving DecidableEq, Repr

def CommandStatus.asStr : CommandStatus → String
  | accepted => "accepted"
  | rejected => "rejected"
  | error => "error"
  | timeout => "timeout"
  | notConnected => "not_connected"
  | invalid => "invalid"
  | superseded => "superseded"

theorem CommandStatus.asStr_eq_accepted (s : CommandStatus) :
    s.asStr = "accepted" ↔ s = .accepted := by
  cases s <;> decide

/-- The outcome published on `ocpp/{id}/command/result`. -/
structure CommandResult where
  id : String
  /-- The command as received, or `null` when it could not be parsed. -/
  command : Json
  source : CommandSource
  status : CommandStatus
  action : Option String
  requestedLimitA : Option F64
  appliedLimitA : Option F64
  ocppRequest : Option Json
  chargerResponse : Option Json
  detail : Option String
  timestamp : String
  deriving Repr

structure InFlight where
  request : CommandRequest
  prepared : PreparedCall
  sentAt : Time
  deriving DecidableEq, Repr

namespace CommandResult

def forRequest (crates : Crates) (now : Time) (request : CommandRequest) (status : CommandStatus)
    (detail : Option String) : CommandResult :=
  { id := request.id
    command := request.command.toValue
    source := request.source
    status
    action := some request.command.action
    requestedLimitA := match request.command with
      | .setCurrentLimit limitA => some limitA
      | _ => none
    appliedLimitA := none
    ocppRequest := none
    chargerResponse := none
    detail
    timestamp := crates.rfc3339Millis now }

def invalidPayload (crates : Crates) (now : Time) (detail : String) : CommandResult :=
  { id := CommandRequest.generatedId now "invalid"
    command := .null
    source := .mqtt
    status := .invalid
    action := none
    requestedLimitA := none
    appliedLimitA := none
    ocppRequest := none
    chargerResponse := none
    detail := some detail
    timestamp := crates.rfc3339Millis now }

def forInFlight (crates : Crates) (now : Time) (inFlight : InFlight) (status : CommandStatus)
    (chargerResponse : Option Json) (detail : Option String) : CommandResult :=
  { forRequest crates now inFlight.request status none with
    action := some inFlight.prepared.action
    appliedLimitA := inFlight.prepared.appliedLimitA
    ocppRequest := (crates.fromStr inFlight.prepared.raw).toOption
    chargerResponse
    detail := match inFlight.prepared.detail, detail with
      | some a, some b => some s!"{a}; {b}"
      | a, b => a.or b }

def isLimitResult (result : CommandResult) : Bool :=
  result.action == some "SetChargingProfile" || result.action == some "ClearChargingProfile"

/-- `serde_json::to_vec`: absent fields are skipped. -/
def toJson (result : CommandResult) : Json :=
  let optional (key : String) (value : Option Json) : List (String × Json) :=
    match value with
    | some v => [(key, v)]
    | none => []
  .object ([("id", .string result.id), ("command", result.command),
      ("source", .string result.source.asStr), ("status", .string result.status.asStr)] ++
    optional "action" (result.action.map .string) ++
    optional "requested_limit_a" (result.requestedLimitA.map .ofF64) ++
    optional "applied_limit_a" (result.appliedLimitA.map .ofF64) ++
    optional "ocpp_request" result.ocppRequest ++
    optional "charger_response" result.chargerResponse ++
    optional "detail" (result.detail.map .string) ++
    [("timestamp", .string result.timestamp)])

end CommandResult

def interpretResponse (crates : Crates) (action : String) (frame : OcppFrame) :
    CommandStatus × Option Json × Option String :=
  let parsed := match crates.fromStr frame.raw with
    | .ok value => value
    | .error _ => .null
  match frame.messageType with
  | .callError =>
    let code := ((parsed.at? 2).bind Json.asStr).getD "UnknownError"
    let description := ((parsed.at? 3).bind Json.asStr).getD ""
    let response := Json.ofFields [("errorCode", .string code),
      ("errorDescription", .string description), ("errorDetails", (parsed.at? 4).getD .null)]
    let detail := if description.isEmpty then s!"charger returned CallError {code}"
      else s!"charger returned CallError {code}: {description}"
    (.error, some response, some detail)
  | .callResult =>
    let payload := (parsed.at? 2).getD .null
    let (status, detail) : CommandStatus × Option String :=
      match action, (payload.get "status").bind Json.asStr with
      | _, none => (.accepted, none)
      | _, some "Accepted" => (.accepted, none)
      | "ClearChargingProfile", some "Unknown" =>
        (.accepted, some "the charger held no matching profile; nothing to clear")
      | "ChangeConfiguration", some "RebootRequired" =>
        (.accepted, some "stored; the charger needs a reboot before it takes effect")
      | _, some other => (.rejected, some s!"charger answered {other}")
    (status, some payload, detail)
  | .call _ => (.error, none, some "expected a response, got a Call")

end OcppProxy

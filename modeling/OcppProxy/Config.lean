import OcppProxy.Values

namespace OcppProxy

/-- Which OCPP charging-profile purpose the current limit is sent as. -/
inductive ChargingProfilePurpose where
  | chargePointMaxProfile
  | txDefaultProfile
  deriving DecidableEq, Repr

def ChargingProfilePurpose.asStr : ChargingProfilePurpose → String
  | chargePointMaxProfile => "ChargePointMaxProfile"
  | txDefaultProfile => "TxDefaultProfile"

inductive ChargingProfileKind where
  | absolute
  | relative
  deriving DecidableEq, Repr

def ChargingProfileKind.asStr : ChargingProfileKind → String
  | absolute => "Absolute"
  | relative => "Relative"

inductive ChargingRateUnit where
  | A
  | W
  deriving DecidableEq, Repr

def ChargingRateUnit.asStr : ChargingRateUnit → String
  | A => "A"
  | W => "W"

structure ChargingConfig where
  maxLimitA : F64 := 32
  minLimitA : F64 := 6
  connectorId : Nat := 0
  profileId : Int := 1001
  stackLevel : Nat := 0
  purpose : ChargingProfilePurpose := .txDefaultProfile
  profileKind : ChargingProfileKind := .absolute
  rateUnit : ChargingRateUnit := .A
  numberPhases : Option Nat := some 1
  nominalVoltageV : F64 := 230
  commandTimeoutSeconds : Nat := 30
  reapplyOnConnect : Bool := true
  allowedConfigurationKeys : List String :=
    ["MeterValueSampleInterval", "MeterValuesSampledData", "ClockAlignedDataInterval",
      "MeterValuesAlignedData", "StopTxnSampledData", "StopTxnAlignedData"]
  deriving DecidableEq, Repr

namespace ChargingConfig

def commandTimeout (c : ChargingConfig) : Duration := Duration.fromSecs c.commandTimeoutSeconds

def validate (c : ChargingConfig) : List String :=
  (if !c.maxLimitA.isFinite || c.maxLimitA.le 0 || F64.lt 80 c.maxLimitA then
    [s!"charging.max_limit_a must be between 0 and 80 (amps), got: {c.maxLimitA.display}"]
  else []) ++
  (if !c.minLimitA.isFinite || c.minLimitA.lt 0 then
    [s!"charging.min_limit_a must be zero or positive, got: {c.minLimitA.display}"]
  else []) ++
  (if F64.lt c.maxLimitA c.minLimitA then
    [s!"charging.min_limit_a ({c.minLimitA.display}) must not exceed charging.max_limit_a ({c.maxLimitA.display})"]
  else []) ++
  (if c.profileId ≤ 0 then
    [s!"charging.profile_id must be a positive integer, got: {c.profileId}"]
  else []) ++
  (if c.purpose = .chargePointMaxProfile ∧ c.connectorId ≠ 0 then
    [s!"charging.connector_id must be 0 for ChargePointMaxProfile, got: {c.connectorId}"]
  else []) ++
  (match c.numberPhases with
  | none => []
  | some p =>
    if p = 0 ∨ 4 ≤ p then
      [s!"charging.number_phases must be 1, 2, 3 or null, got: Some({p})"]
    else []) ++
  (if !c.nominalVoltageV.isFinite || !(F64.le 100 c.nominalVoltageV && c.nominalVoltageV.le 480) then
    [s!"charging.nominal_voltage_v must be between 100 and 480, got: {c.nominalVoltageV.display}"]
  else []) ++
  (if ¬ (1 ≤ c.commandTimeoutSeconds ∧ c.commandTimeoutSeconds ≤ 300) then
    [s!"charging.command_timeout_seconds must be between 1 and 300, got: {c.commandTimeoutSeconds}"]
  else [])

/-- The defaults pass their own checks. -/
theorem validate_default : ({} : ChargingConfig).validate = [] := by decide +kernel

end ChargingConfig

structure SessionConfig where
  messageBufferSize : Nat := 100
  maxBufferDuration : Duration := Duration.fromSecs 30
  initialBackoff : Duration := Duration.fromSecs 2
  maxBackoff : Duration := Duration.fromSecs 60
  maxReconnectWindow : Duration := Duration.fromSecs 300
  callTrackerMaxAge : Duration := Duration.fromSecs 300
  charging : ChargingConfig := {}
  deriving DecidableEq, Repr

end OcppProxy

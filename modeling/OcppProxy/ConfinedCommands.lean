import OcppProxy.Payload

/-!
# What a command from MQTT can become

Whatever bytes arrive on a command topic, a frame built from them is a Call of one of six actions,
and its payload stays within what the configuration allows.
-/

namespace OcppProxy

def documentedActions : List String :=
  ["SetChargingProfile", "ClearChargingProfile", "GetConfiguration", "ChangeConfiguration",
    "TriggerMessage", "GetCompositeSchedule"]

/-- The Call that each command is to become. -/
def documentedAction : ProxyCommand → String
  | .setCurrentLimit _ => "SetChargingProfile"
  | .clearCurrentLimit => "ClearChargingProfile"
  | .getConfiguration _ => "GetConfiguration"
  | .changeConfiguration _ _ => "ChangeConfiguration"
  | .triggerMessage _ _ => "TriggerMessage"
  | .getCompositeSchedule _ _ => "GetCompositeSchedule"

def frameValue (uniqueId : String) (request : CommandRequest) (payload : Json) : Json :=
  .array [.ofNat 2, .string uniqueId, .string request.command.action, payload]

/-- Which charging profile a payload is about. -/
structure ProfileIdentity where
  connectorId : Json
  profileId : Json
  stackLevel : Json
  purpose : Json

def ChargingConfig.profileIdentity (config : ChargingConfig) : ProfileIdentity where
  connectorId := .ofNat config.connectorId
  profileId := .ofInt config.profileId
  stackLevel := .ofNat config.stackLevel
  purpose := .string config.purpose.asStr

def installedProfile (payload : Json) : Option ProfileIdentity := do
  let profile ← payload.get "csChargingProfiles"
  return { connectorId := ← payload.get "connectorId"
           profileId := ← profile.get "chargingProfileId"
           stackLevel := ← profile.get "stackLevel"
           purpose := ← profile.get "chargingProfilePurpose" }

def clearedProfile (payload : Json) : Option ProfileIdentity := do
  return { connectorId := ← payload.get "connectorId"
           profileId := ← payload.get "id"
           stackLevel := ← payload.get "stackLevel"
           purpose := ← payload.get "chargingProfilePurpose" }

def schedulePeriods (payload : Json) : Option (List Json) := do
  let profile ← payload.get "csChargingProfiles"
  let schedule ← profile.get "chargingSchedule"
  (← schedule.get "chargingSchedulePeriod").asArray

def payloadFields (crates : Crates) (payload : ByteArray) : Option (List (String × Json)) := do
  let text ← String.fromUTF8? payload
  (← (crates.fromStr (trim text)).toOption).asObject

/-- What the payload of a command's frame is confined to; `asked` are the fields that asked for
it. -/
def Confined (config : ChargingConfig) (asked : Option (List (String × Json)))
    (command : ProxyCommand) (payload : Json) : Prop :=
  match command with
  | .setCurrentLimit _ => (∃ period, schedulePeriods payload = some [period]) ∧
      installedProfile payload = some config.profileIdentity
  | .clearCurrentLimit => clearedProfile payload = some config.profileIdentity
  | .changeConfiguration key value => key ∈ config.allowedConfigurationKeys ∧
      payload.get "key" = some (.string key) ∧ payload.get "value" = some (.string value) ∧
      asked.bind (·.lookup "key") = some (.string key) ∧
      asked.bind (·.lookup "value") = some (.string value)
  | .triggerMessage requestedMessage _ => requestedMessage ∈ triggerableMessages ∧
      payload.get "requestedMessage" = some (.string requestedMessage)
  | .getConfiguration _ | .getCompositeSchedule _ _ => True

section
variable {crates : Crates} {config : ChargingConfig} {now : Time} {request : CommandRequest}
  {command : ProxyCommand} {value : Json} {uniqueId : String}

/-! ## The frame -/

theorem action_mem_documentedActions (command : ProxyCommand) :
    command.action ∈ documentedActions := by
  cases command <;> simp [ProxyCommand.action, documentedActions]

theorem readValue_frameValue :
    OcppFrame.readValue (frameValue uniqueId request value) =
      .ok (.call request.command.action, uniqueId) := by
  have htype : (Json.ofNat 2).asU64 = some 2 := rfl
  simp [OcppFrame.readValue, frameValue, Json.asArray, Json.asStr, htype, OcppFrame.messageTypeOf,
    Except.map]

theorem installedProfile_payload (limitA : F64) :
    installedProfile (setChargingProfilePayload crates config limitA now) =
      some config.profileIdentity := by
  unfold installedProfile setChargingProfilePayload
  cases config.profileKind <;>
    simp [Json.get_ofFields, Json.lookup_cons, ChargingConfig.profileIdentity]

theorem schedulePeriods_payload (limitA : F64) :
    ∃ period, schedulePeriods (setChargingProfilePayload crates config limitA now) =
      some [period] := by
  unfold schedulePeriods setChargingProfilePayload
  cases config.profileKind <;>
    simp [Json.get_ofFields, Json.lookup_cons, Json.asArray]

theorem clearedProfile_payload :
    clearedProfile (clearChargingProfilePayload config) = some config.profileIdentity := by
  simp [clearedProfile, clearChargingProfilePayload, Json.get_ofFields, Json.lookup_cons,
    ChargingConfig.profileIdentity]

/-- The frame of a request writes its payload, and reads back as the Call it was built for. -/
theorem prepareCall_eq_ok {prepared : PreparedCall} :
    prepareCall crates config request uniqueId now = .ok prepared ↔
      ∃ payload amps detail, preparePayload crates config request.command now =
          .ok (payload, amps, detail) ∧
        prepared = { uniqueId, action := request.command.action, appliedLimitA := amps, detail
                     raw := crates.toText (frameValue uniqueId request payload) } := by
  unfold prepareCall
  cases preparePayload crates config request.command now with
  | error e => simp [Except.map]
  | ok p =>
    obtain ⟨payload, amps, detail⟩ := p
    simp only [Except.map, Except.ok.injEq, Prod.mk.injEq]
    constructor
    · rintro rfl
      exact ⟨payload, amps, detail, ⟨rfl, rfl, rfl⟩, rfl⟩
    · rintro ⟨_, _, _, ⟨rfl, rfl, rfl⟩, rfl⟩
      rfl

theorem parse_frame {payload : Json} (hread : crates.fromStr (crates.toText
      (frameValue uniqueId request payload)) = .ok (frameValue uniqueId request payload)) :
    OcppFrame.parse crates now (crates.toText (frameValue uniqueId request payload)) =
      .ok { raw := crates.toText (frameValue uniqueId request payload)
            messageType := .call request.command.action, uniqueId, receivedAt := now } := by
  refine OcppFrame.parse_eq_ok.mpr ⟨?_, rfl, rfl⟩
  rw [OcppFrame.readText, hread]
  exact readValue_frameValue

/-! ## The fields that asked -/

theorem lookup_filter_ne {key dropped : String} (h : key ≠ dropped)
    (fields : List (String × Json)) :
    (fields.filter (·.1 != dropped)).lookup key = fields.lookup key := by
  induction fields with
  | nil => rfl
  | cons field fields ih =>
    obtain ⟨k, v⟩ := field
    rw [Json.lookup_cons, List.filter_cons]
    split
    · rw [Json.lookup_cons, ih]
    · rename_i hdropped
      have hk : k = dropped := by simpa using hdropped
      rw [ih, if_neg (hk ▸ h)]

theorem bind_asStr_eq_some {field : Option Json} {text : String} :
    field.bind Json.asStr = some text ↔ field = some (.string text) := by
  cases field with
  | none => simp
  | some value => cases value <;> simp [Json.asStr]

/-- A change command has the fields it was read from. -/
theorem fromValue_changeConfiguration {fields : List (String × Json)} {key newValue : String}
    (h : ProxyCommand.fromValue (.object fields) = some (.changeConfiguration key newValue)) :
    fields.lookup "key" = some (.string key) ∧ fields.lookup "value" = some (.string newValue) := by
  revert h
  fun_cases ProxyCommand.fromValue (.object fields) <;> intro h
  case case5 =>
    simp only [Option.pure_def, Option.bind_eq_bind, Option.bind_eq_some_iff, Option.some.injEq,
      ProxyCommand.changeConfiguration.injEq] at h
    obtain ⟨k, hk, v, hv, rfl, rfl⟩ := h
    exact ⟨bind_asStr_eq_some.mp hk, bind_asStr_eq_some.mp hv⟩
  case case7 =>
    simp only [Option.bind_eq_bind, Option.bind_eq_some_iff] at h
    obtain ⟨connectorId, -, h⟩ := h
    split at h <;> simp [Option.bind_eq_some_iff] at h
  all_goals simp [Option.bind_eq_some_iff] at h

/-- The command of an object is read from its fields, of which only the id is taken out and a limit
written as a text is replaced. -/
theorem parseCommandObject_eq_ok {text : String}
    (h : parseCommandObject crates now text = .ok request) :
    ∃ fields fields', crates.fromStr text = .ok (.object fields) ∧
      ProxyCommand.fromValue (.object fields') = some request.command ∧
      ∀ key, key ≠ "id" → key ≠ "limit_a" → fields'.lookup key = fields.lookup key := by
  unfold parseCommandObject at h
  split at h
  · cases h
  · rename_i value hvalue
    split at h
    · cases h
    · rename_i fields hfields
      have hobject : value = .object fields := by
        cases value <;> cases hfields
        rfl
      cases hid : readId crates now (fields.lookup "id") with
      | error e =>
        rw [hid] at h
        cases h
      | ok id =>
        rw [hid] at h
        dsimp only at h
        split at h
        · rename_i command hcommand
          obtain rfl := Except.ok.inj h
          refine ⟨fields, _, hobject ▸ hvalue, hcommand, fun key hid hlimit => ?_⟩
          split
          · rw [Json.lookup_insertSorted, if_neg hlimit]
            exact lookup_filter_ne hid fields
          · exact lookup_filter_ne hid fields
        · cases h

/-- The fields of a change command are those of the payload it was parsed from. -/
theorem changeConfiguration_asked {kind : CommandTopic} {payload : ByteArray}
    {key newValue : String} (h : parseCommandPayload crates now kind payload = .ok request)
    (hcommand : request.command = .changeConfiguration key newValue) :
    (payloadFields crates payload).bind (·.lookup "key") = some (.string key) ∧
      (payloadFields crates payload).bind (·.lookup "value") = some (.string newValue) := by
  unfold parseCommandPayload at h
  split at h
  · cases h
  · rename_i text htext
    dsimp only at h
    split at h
    · cases h
    · split at h
      · -- the bare amps of the limit topic
        unfold parseCurrentLimit at h
        dsimp only at h
        split at h
        · obtain rfl := Except.ok.inj h
          cases hcommand
        · split at h
          · obtain rfl := Except.ok.inj h
            cases hcommand
          · cases h
      · obtain ⟨fields, fields', hread, hvalue, hlookup⟩ := parseCommandObject_eq_ok h
        rw [hcommand] at hvalue
        obtain ⟨hkey, hnew⟩ := fromValue_changeConfiguration hvalue
        rw [hlookup _ (by decide) (by decide)] at hkey hnew
        simp [payloadFields, htext, hread, Except.toOption, Json.asObject, hkey, hnew]

/-! ## Confinement -/

/-- The payload built for a command is confined, where the command is what was asked for. -/
theorem confined_of_preparePayload {asked : Option (List (String × Json))} {payload : Json}
    {amps : Option F64} {detail : Option String}
    (h : preparePayload crates config command now = .ok (payload, amps, detail))
    (hasked : ∀ key newValue, command = .changeConfiguration key newValue →
      asked.bind (·.lookup "key") = some (.string key) ∧
        asked.bind (·.lookup "value") = some (.string newValue)) :
    Confined config asked command payload := by
  cases command with
  | setCurrentLimit limitA =>
    simp only [preparePayload] at h
    cases hresolve : resolveLimit config limitA with
    | error e =>
      rw [hresolve] at h
      cases h
    | ok resolved =>
      rw [hresolve] at h
      cases h
      exact ⟨schedulePeriods_payload resolved.appliedA, installedProfile_payload resolved.appliedA⟩
  | clearCurrentLimit =>
    cases h
    exact clearedProfile_payload
  | getConfiguration keys => trivial
  | changeConfiguration key newValue =>
    simp only [preparePayload] at h
    split at h
    · cases h
    · rename_i hallowed
      cases h
      have hkey : key ∈ config.allowedConfigurationKeys := by simpa using hallowed
      refine ⟨hkey, ?_, ?_, hasked key newValue rfl⟩
      · simp [Json.get_ofFields, Json.lookup_cons]
      · simp [Json.get_ofFields]
  | triggerMessage requestedMessage connectorId =>
    simp only [preparePayload] at h
    split at h
    · cases h
    · rename_i hallowed
      cases h
      have hmessage : requestedMessage ∈ triggerableMessages := by simpa using hallowed
      refine ⟨hmessage, ?_⟩
      cases connectorId with
      | none => simp [Json.get_ofFields]
      | some c => simp [Json.get_ofFields, Json.lookup_cons]
  | getCompositeSchedule connectorId durationS => trivial

/-- What arrives on a command topic becomes an error, or a frame that reads back as a Call with the
given id and the action of its command, one of six, and whose payload is confined. `hread` says that
the value of the frame survives being written and read. -/
theorem commands_confined (crates : Crates) (config : ChargingConfig) (kind : CommandTopic)
    (payload : ByteArray) (uniqueId : String) (received sentAt readAt : Time)
    (hread : ∀ request value amps detail,
      parseCommandPayload crates received kind payload = .ok request →
      preparePayload crates config request.command sentAt = .ok (value, amps, detail) →
      crates.fromStr (crates.toText (frameValue uniqueId request value)) =
        .ok (frameValue uniqueId request value)) :
    (∃ e, ((parseCommandPayload crates received kind payload).bind fun request =>
        prepareCall crates config request uniqueId sentAt) = .error e) ∨
    ∃ request prepared frame value,
      parseCommandPayload crates received kind payload = .ok request ∧
      prepareCall crates config request uniqueId sentAt = .ok prepared ∧
      OcppFrame.parse crates readAt prepared.raw = .ok frame ∧
      frame.messageType = .call request.command.action ∧ frame.uniqueId = uniqueId ∧
      request.command.action = documentedAction request.command ∧
      request.command.action ∈ documentedActions ∧
      crates.fromStr prepared.raw = .ok (frameValue uniqueId request value) ∧
      Confined config (payloadFields crates payload) request.command value := by
  cases hparse : parseCommandPayload crates received kind payload with
  | error e => exact .inl ⟨e, rfl⟩
  | ok request =>
    cases hprepare : prepareCall crates config request uniqueId sentAt with
    | error e => exact .inl ⟨e, hprepare⟩
    | ok prepared =>
      -- from here on the frame is the one that `prepare_call` writes
      obtain ⟨value, amps, detail, hpayload, rfl⟩ := prepareCall_eq_ok.mp hprepare
      have hvalue := hread request value amps detail hparse hpayload
      have hframe := @parse_frame crates readAt request uniqueId value hvalue
      refine .inr ⟨request, _, _, value, rfl, hprepare, hframe, rfl, rfl, ?_, ?_, ?_, ?_⟩
      · cases request.command <;> rfl
      · exact action_mem_documentedActions request.command
      · exact hvalue
      · refine confined_of_preparePayload hpayload fun key newValue hcommand => ?_
        exact changeConfiguration_asked hparse hcommand

end

/-- The request of `clear` on the current-limit topic, and what its frame writes. -/
def clearRequest : CommandRequest := .new 0 "limit-0" .clearCurrentLimit .mqtt

def clearFrame : Json := frameValue "proxy-0-1" clearRequest (clearChargingProfilePayload {})

theorem commands_confined_clear :
    let crates := Crates.ofTable [(clearFrame.render, clearFrame)]
    ∃ frame, OcppFrame.parse crates 0 clearFrame.render = .ok frame ∧
      frame.messageType = .call "ClearChargingProfile" ∧ frame.uniqueId = "proxy-0-1" := by
  intro crates
  have hparse : parseCommandPayload crates 0 .currentLimit "clear".toUTF8 = .ok clearRequest := by
    have hread : (parseCommandPayload crates 0 .currentLimit "clear".toUTF8).toOption =
        some clearRequest := by
      decide +kernel
    revert hread
    cases parseCommandPayload crates 0 .currentLimit "clear".toUTF8 <;> simp [Except.toOption]
  have hprepare : prepareCall crates {} clearRequest "proxy-0-1" 0 = .ok
      { uniqueId := "proxy-0-1", action := "ClearChargingProfile", raw := clearFrame.render
        appliedLimitA := none, detail := none } := rfl
  have hread : crates.fromStr (crates.toText clearFrame) = .ok clearFrame := by
    have hlookup : [(clearFrame.render, clearFrame)].lookup clearFrame.render =
        some clearFrame := List.lookup_cons_self
    simp [crates, Crates.ofTable, hlookup]
  have hconfined := commands_confined crates {} .currentLimit "clear".toUTF8 "proxy-0-1" 0 0 0
    (fun request value amps detail hrequest hvalue => by
      obtain rfl : clearRequest = request := Except.ok.inj (hparse.symm.trans hrequest)
      cases hvalue
      exact hread)
  rcases hconfined with ⟨e, herror⟩ | ⟨request, prepared, frame, value, hrequest, hprepared, hframe,
    hcall, hid, -⟩
  · rw [hparse] at herror
    cases hprepare.symm.trans herror
  · obtain rfl : clearRequest = request := Except.ok.inj (hparse.symm.trans hrequest)
    obtain rfl := Except.ok.inj (hprepare.symm.trans hprepared)
    exact ⟨frame, hframe, hcall, hid⟩

end OcppProxy

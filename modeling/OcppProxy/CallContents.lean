import OcppProxy.CommandProvenance
import OcppProxy.ConfinedCommands
import OcppProxy.LimitPolicy

/-!
# What the proxy may ask of a charger

The Calls of a process that was started from a configuration that loads: six actions, the proxy's
own charging profile, and limits within the configured floor and ceiling, up to the half tenth of an
amp that rounding may add.
-/

namespace OcppProxy

/-- What the checks of a configuration confine a Call to. -/
def WithinPolicy (config : ChargingConfig) (command : ProxyCommand) (appliedLimitA : Option F64)
    (payload : Json) : Prop :=
  match command with
  | .setCurrentLimit _ => installedProfile payload = some config.profileIdentity ∧
      (∃ period, schedulePeriods payload = some [period]) ∧
      ∃ a : ℚ, appliedLimitA = some (.finite a) ∧
        scheduledLimit payload = some (.ofF64 (config.inRateUnit (.finite a))) ∧ 0 ≤ a ∧
        (a = 0 ∨ config.minLimitA.value - 1 / 20 ≤ a) ∧ a ≤ config.maxLimitA.value + 1 / 20
  | .clearCurrentLimit => clearedProfile payload = some config.profileIdentity
  | .changeConfiguration key newValue => key ∈ config.allowedConfigurationKeys ∧
      payload.get "key" = some (.string key) ∧ payload.get "value" = some (.string newValue)
  | .triggerMessage requestedMessage _ => requestedMessage ∈ triggerableMessages ∧
      payload.get "requestedMessage" = some (.string requestedMessage)
  | .getConfiguration _ | .getCompositeSchedule _ _ => appliedLimitA = none

section
variable {crates : Crates} {config : ChargingConfig} {floor ceiling voltage x : ℚ}

/-- Rounding adds or takes half a tenth at most. -/
theorem appliedLimit_near (hfloor : 0 ≤ floor) (hle : floor ≤ ceiling) :
    (appliedLimit floor ceiling x = 0 ∨ floor - 1 / 20 ≤ appliedLimit floor ceiling x) ∧
      appliedLimit floor ceiling x ≤ ceiling + 1 / 20 := by
  unfold appliedLimit
  split
  · exact ⟨.inl rfl, by linarith⟩
  · rename_i hx
    have hround := abs_le.mp (abs_roundTo_sub (d := 10) (x := min x ceiling) (by norm_num))
    rw [half_tenth] at hround
    have hlow : floor ≤ min x ceiling := le_min (not_lt.mp hx) hle
    have hhigh : min x ceiling ≤ ceiling := min_le_right x ceiling
    exact ⟨.inr (by linarith [hround.1]), by linarith [hround.2]⟩

/-- Only a finite limit that is not negative is resolved. -/
theorem finite_of_resolveLimit {requestedA : F64} {resolved : ResolvedLimit}
    (h : resolveLimit config requestedA = .ok resolved) :
    ∃ x : ℚ, 0 ≤ x ∧ requestedA = .finite x := by
  unfold resolveLimit at h
  split at h
  · cases h
  · rename_i hnumber
    cases requestedA with
    | finite x =>
      refine ⟨x, ?_, rfl⟩
      simpa [F64.isFinite, F64.lt, F64.ofNat_eq] using hnumber
    | infinite negative => simp [F64.isFinite] at hnumber
    | nan => simp [F64.isFinite] at hnumber

theorem withinPolicy_of_preparePayload {command : ProxyCommand} {now : Time} {payload : Json}
    {amps : Option F64} {detail : Option String} (hconfig : config.validate = [])
    (h : preparePayload crates config command now = .ok (payload, amps, detail)) :
    WithinPolicy config command amps payload := by
  have hconfined : Confined config (match command with
      | .changeConfiguration key newValue =>
        some [("key", .string key), ("value", .string newValue)]
      | _ => none) command payload :=
    confined_of_preparePayload h fun key newValue hcommand => by
      subst hcommand
      exact ⟨rfl, rfl⟩
  cases command with
  | setCurrentLimit limitA =>
    obtain ⟨hperiods, hprofile⟩ := hconfined
    refine ⟨hprofile, hperiods, ?_⟩
    simp only [preparePayload] at h
    cases hresolve : resolveLimit config limitA with
    | error e =>
      rw [hresolve] at h
      cases h
    | ok resolved =>
      have hbounds := ChargingConfig.bounds_of_validate hconfig
      obtain ⟨x, hx, rfl⟩ := finite_of_resolveLimit hresolve
      obtain ⟨detail', happlied⟩ := resolveLimit_eq hbounds hx
      rw [happlied] at hresolve
      cases hresolve
      rw [happlied] at h
      cases h
      obtain ⟨hlow, hhigh⟩ := appliedLimit_near (x := x) hbounds.floor_nonneg hbounds.floor_le
      exact ⟨_, rfl, scheduledLimit_payload _ now,
        appliedLimit_nonneg hbounds.floor_nonneg hbounds.floor_le hx, hlow, hhigh⟩
  | clearCurrentLimit => exact hconfined
  | getConfiguration keys =>
    cases h
    rfl
  | changeConfiguration key newValue => exact ⟨hconfined.1, hconfined.2.1, hconfined.2.2.1⟩
  | triggerMessage requestedMessage connectorId => exact hconfined
  | getCompositeSchedule connectorId durationS =>
    cases h
    rfl

end

namespace Process

/-- In every run of a process started from a configuration that loaded, each Call that a session
sends is the frame of one of the six documented actions, and its payload keeps to the policy of that
configuration. -/
theorem calls_within_policy {crates : Crates} {files : FileProbe} {built : Except String Settings}
    {config : ProxyConfig} {file : SnapshotMap} {events : List ProcessEvent} {x : Process}
    (hload : ProxyConfig.loadFromPath files built = .ok config)
    (hrun : (step { crates, sessionConfig := config.sessionConfig }).run (start config file) events =
      some x) {n : Nat} {id : String} {s : Session} (hs : x.downstream.sessionOf n = some (id, s))
    {request : CommandRequest} {prepared : PreparedCall}
    (hcall : .call request prepared ∈ s.trace Entry.local?) :
    ∃ payload, prepared.raw = crates.toText (frameValue prepared.uniqueId request payload) ∧
      prepared.action = request.command.action ∧ prepared.action ∈ documentedActions ∧
      WithinPolicy config.charging request.command prepared.appliedLimitA payload := by
  obtain ⟨-, -, -, -, hvalid⟩ := ProxyConfig.loadFromPath_eq_ok.mp hload
  obtain ⟨uniqueId, now, hprepare⟩ := (calls_caused hrun hs hcall).1
  obtain ⟨payload, amps, detail, hpayload, rfl⟩ := prepareCall_eq_ok.mp hprepare
  exact ⟨payload, rfl, rfl, action_mem_documentedActions request.command,
    withinPolicy_of_preparePayload hvalid.charging hpayload⟩

/-- The required parameters of the configuration, as its file has them. -/
def commandedRaw : RawProxyConfig where
  centralSystemUrl := some "wss://central.example/ocpp"
  listenPort := some 9000
  mqtt := some { host := some "broker", port := some 1883, username := some "proxy"
                 password := some "secret" }

/-- No certificates are given, so nothing is asked of the file system. -/
theorem commandedConfig_loads : ProxyConfig.loadFromPath ⟨fun _ => false, fun _ => false⟩
    (.ok ⟨some commandedRaw, .ok commandedConfig⟩) = .ok commandedConfig := by
  decide +kernel

theorem calls_within_policy_commanded : ∃ x s request prepared payload,
    (step commandedContext).run (start commandedConfig ∅) commandedEvents = some x ∧
      x.downstream.sessionOf 0 = some ("CP01", s) ∧
      .call request prepared ∈ s.trace Entry.local? ∧ prepared.appliedLimitA = some 10 ∧
      WithinPolicy commandedConfig.charging request.command prepared.appliedLimitA payload := by
  obtain ⟨x, s, request, prepared, hrun, hs, hcall, hlimit⟩ := commandedEvents_sends
  obtain ⟨payload, -, -, -, hwithin⟩ := calls_within_policy commandedConfig_loads hrun hs hcall
  exact ⟨x, s, request, prepared, payload, hrun, hs, hcall, hlimit, hwithin⟩

end Process

end OcppProxy

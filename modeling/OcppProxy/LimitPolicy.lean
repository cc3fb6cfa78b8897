import OcppProxy.Library.Rounding
import OcppProxy.Publisher
import Mathlib.Tactic.NormNum

/-!
# The limit policy

What `resolve_limit` makes of a requested limit under a configuration that passed its checks: it
pauses, or clamps and rounds to a tenth of an amp. Rounding may cross the floor and the ceiling.
-/

namespace OcppProxy

def F64.value : F64 → ℚ
  | finite q => q
  | _ => 0

theorem F64.ofNat_eq (n : ℕ) : (OfNat.ofNat n : F64) = .finite n := rfl

/-- `f64::round` is rounding to whole numbers, and tenths likewise. -/
theorem roundTenth_finite {q : ℚ} (h : 0 ≤ q) :
    (F64.finite q).roundTenth = .finite (roundTo 10 q) := by
  have hscaled : 0 ≤ q * 10 := by linarith
  simp only [F64.roundTenth, F64.roundRat, if_pos hscaled, roundTo, round_eq, Nat.cast_ofNat]

namespace ChargingConfig

/-- What the checks say about the numbers of a configuration. -/
structure Bounds (config : ChargingConfig) (floor ceiling voltage : ℚ) : Prop where
  maxLimitA : config.maxLimitA = .finite ceiling
  minLimitA : config.minLimitA = .finite floor
  nominalVoltageV : config.nominalVoltageV = .finite voltage
  floor_nonneg : 0 ≤ floor
  floor_le : floor ≤ ceiling
  voltage_nonneg : 0 ≤ voltage

theorem bounds_of_validate {config : ChargingConfig} (h : config.validate = []) :
    config.Bounds config.minLimitA.value config.maxLimitA.value config.nominalVoltageV.value := by
  simp only [validate, List.append_eq_nil_iff, ite_eq_right_iff, reduceCtorEq, imp_false,
    Bool.or_eq_true, not_or] at h
  obtain ⟨⟨⟨⟨⟨⟨⟨hmax, hmin⟩, hle⟩, -⟩, -⟩, -⟩, hvoltage⟩, -⟩ := h
  cases hceiling : config.maxLimitA with
  | infinite negative => simp [hceiling, F64.isFinite] at hmax
  | nan => simp [hceiling, F64.isFinite] at hmax
  | finite ceiling =>
    cases hfloor : config.minLimitA with
    | infinite negative => simp [hfloor, F64.isFinite] at hmin
    | nan => simp [hfloor, F64.isFinite] at hmin
    | finite floor =>
      cases hv : config.nominalVoltageV with
      | infinite negative => simp [hv, F64.isFinite] at hvoltage
      | nan => simp [hv, F64.isFinite] at hvoltage
      | finite voltage =>
        rw [hfloor] at hmin
        rw [hceiling, hfloor] at hle
        rw [hv] at hvoltage
        refine ⟨hceiling, hfloor, hv, ?_, ?_, ?_⟩
        · have hnonneg : 0 ≤ floor := by simpa [F64.lt, F64.ofNat_eq] using hmin.2
          exact hnonneg
        · have hordered : floor ≤ ceiling := by simpa [F64.lt] using hle
          exact hordered
        · have hrange := hvoltage.2
          simp only [F64.le, F64.lt, F64.eq] at hrange
          simp at hrange
          have hnonneg : 0 ≤ voltage := by
            rcases le_total voltage 100 with hlow | hhigh
            · rw [← hrange.1 hlow]
              norm_num
            · linarith
          exact hnonneg

end ChargingConfig

/-- The policy on exact numbers: below the floor a request pauses, else it is clamped to the ceiling
and rounded to a tenth. -/
def appliedLimit (floor ceiling x : ℚ) : ℚ :=
  if x < floor then 0 else roundTo 10 (min x ceiling)

section
variable {crates : Crates} {config : ChargingConfig} {floor ceiling voltage x y : ℚ}

theorem appliedLimit_nonneg (hfloor : 0 ≤ floor) (hle : floor ≤ ceiling) (hx : 0 ≤ x) :
    0 ≤ appliedLimit floor ceiling x := by
  unfold appliedLimit
  split
  · exact le_refl 0
  · exact roundTo_nonneg (le_min hx (hfloor.trans hle))

/-- No limit stays no limit. -/
theorem appliedLimit_zero (hceiling : 0 ≤ ceiling) : appliedLimit floor ceiling 0 = 0 := by
  unfold appliedLimit
  split
  · rfl
  · rw [min_eq_left hceiling]
    simp [roundTo]

/-- A larger request never yields a smaller limit. -/
theorem appliedLimit_mono (hfloor : 0 ≤ floor) (hle : floor ≤ ceiling) (hx : 0 ≤ x)
    (h : x ≤ y) : appliedLimit floor ceiling x ≤ appliedLimit floor ceiling y := by
  by_cases hxf : x < floor
  · rw [appliedLimit, if_pos hxf]
    exact appliedLimit_nonneg hfloor hle (hx.trans h)
  · have hyf : ¬ y < floor := fun hlt => hxf (h.trans_lt hlt)
    rw [appliedLimit, appliedLimit, if_neg hxf, if_neg hyf]
    exact roundTo_mono (min_le_min_right ceiling h)

theorem resolveLimit_eq (h : config.Bounds floor ceiling voltage) (hx : 0 ≤ x) :
    ∃ detail, resolveLimit config (.finite x) =
      .ok ⟨.finite x, .finite (appliedLimit floor ceiling x), detail⟩ := by
  have hceiling : 0 ≤ ceiling := h.floor_nonneg.trans h.floor_le
  unfold resolveLimit
  rw [h.minLimitA, h.maxLimitA]
  simp only [F64.isFinite, F64.ofNat_eq, F64.lt, F64.eq, Bool.not_true, Bool.false_or,
    decide_eq_true_eq, Nat.cast_zero, not_lt.mpr hx, if_false]
  split
  · -- no request for nothing is below a floor of nothing
    rename_i hpause
    have happlied : appliedLimit floor ceiling x = 0 := by
      rw [hpause]
      exact appliedLimit_zero hceiling
    exact ⟨_, by rw [happlied]⟩
  · split
    · rename_i hlow
      exact ⟨_, by rw [appliedLimit, if_pos hlow]⟩
    · rename_i hhigh
      split
      · rename_i hclamp
        have happlied : appliedLimit floor ceiling x = roundTo 10 ceiling := by
          rw [appliedLimit, if_neg hhigh, min_eq_right hclamp.le]
        exact ⟨_, by rw [happlied, roundTenth_finite hceiling]⟩
      · rename_i hinside
        have happlied : appliedLimit floor ceiling x = roundTo 10 x := by
          rw [appliedLimit, if_neg hhigh, min_eq_left (not_lt.mp hinside)]
        exact ⟨_, by rw [happlied, roundTenth_finite hx]⟩

/-! ## Rounding at the two ends -/

/-- No tenth above the ceiling is nearest to the clamped request. -/
def StaysBelow (floor ceiling x : ℚ) : Prop :=
  x < floor ∨ ∀ t : ℤ, ceiling < t / 10 → min x ceiling + 1 / 20 < t / 10

/-- No tenth below the floor is nearest to the clamped request, save nothing. -/
def StaysAbove (floor ceiling x : ℚ) : Prop :=
  x < floor ∨ ∀ t : ℤ, 0 < t → t / 10 < floor → t / 10 + 1 / 20 ≤ min x ceiling

theorem half_tenth : (1 / (2 * (10 : ℕ)) : ℚ) = 1 / 20 := by norm_num

theorem appliedLimit_le_iff (hfloor : 0 ≤ floor) (hle : floor ≤ ceiling) :
    appliedLimit floor ceiling x ≤ ceiling ↔ StaysBelow floor ceiling x := by
  unfold appliedLimit StaysBelow
  split
  · rename_i hlow
    exact ⟨fun _ => .inl hlow, fun _ => hfloor.trans hle⟩
  · rename_i hhigh
    have hrounded := roundTo_le_iff (d := 10) (x := min x ceiling) (b := ceiling) (by norm_num)
    rw [half_tenth] at hrounded
    rw [hrounded, or_iff_right hhigh]
    rfl

theorem le_appliedLimit_iff (hfloor : 0 ≤ floor) (hle : floor ≤ ceiling) (hx : 0 ≤ x) :
    appliedLimit floor ceiling x = 0 ∨ floor ≤ appliedLimit floor ceiling x ↔
      StaysAbove floor ceiling x := by
  unfold appliedLimit StaysAbove
  split
  · rename_i hlow
    exact ⟨fun _ => .inl hlow, fun _ => .inl rfl⟩
  · rename_i hhigh
    have hrounded := roundTo_eq_zero_or_le_iff (d := 10) (x := min x ceiling) (a := floor)
      (by norm_num) (le_min hx (hfloor.trans hle)) (le_min (not_lt.mp hhigh) hle)
    rw [half_tenth] at hrounded
    rw [hrounded, or_iff_right hhigh]
    rfl

theorem appliedLimit_within_iff (hfloor : 0 ≤ floor) (hle : floor ≤ ceiling) (hx : 0 ≤ x) :
    (appliedLimit floor ceiling x = 0 ∨
        floor ≤ appliedLimit floor ceiling x ∧ appliedLimit floor ceiling x ≤ ceiling) ↔
      StaysAbove floor ceiling x ∧ StaysBelow floor ceiling x := by
  rw [← le_appliedLimit_iff hfloor hle hx, ← appliedLimit_le_iff hfloor hle]
  constructor
  · rintro (hzero | ⟨hlow, hhigh⟩)
    · exact ⟨.inl hzero, hzero ▸ hfloor.trans hle⟩
    · exact ⟨.inr hlow, hhigh⟩
  · rintro ⟨hzero | hlow, hhigh⟩
    · exact .inl hzero
    · exact .inr ⟨hlow, hhigh⟩

/-- The policy applied to its own outcome gives it again, unless rounding took it below the floor:
at the ceiling the same tenth is the nearest again. -/
theorem appliedLimit_appliedLimit_iff (hfloor : 0 ≤ floor) (hle : floor ≤ ceiling) (hx : 0 ≤ x) :
    appliedLimit floor ceiling (appliedLimit floor ceiling x) = appliedLimit floor ceiling x ↔
      StaysAbove floor ceiling x := by
  have hceiling : 0 ≤ ceiling := hfloor.trans hle
  rw [← le_appliedLimit_iff hfloor hle hx]
  generalize ha : appliedLimit floor ceiling x = a
  constructor
  · intro h
    by_cases hlow : a < floor
    · rw [appliedLimit, if_pos hlow] at h
      exact .inl h.symm
    · exact .inr (not_lt.mp hlow)
  · rintro (rfl | hlow)
    · exact appliedLimit_zero hceiling
    · by_cases hx' : x < floor
      · rw [appliedLimit, if_pos hx'] at ha
        rw [← ha]
        exact appliedLimit_zero hceiling
      · rw [appliedLimit, if_neg hx'] at ha
        rw [appliedLimit, if_neg (not_lt.mpr hlow)]
        rcases le_or_gt a ceiling with hinside | habove
        · rw [min_eq_left hinside, ← ha]
          exact roundTo_roundTo (by norm_num)
        · rw [min_eq_right habove.le, ← ha]
          exact roundTo_eq_of_lt (by norm_num) (min_le_right x ceiling) (ha ▸ habove)

/-! ## The frame -/

def scheduledLimit (payload : Json) : Option Json := do
  let profile ← payload.get "csChargingProfiles"
  let schedule ← profile.get "chargingSchedule"
  let periods ← schedule.get "chargingSchedulePeriod"
  (← periods.at? 0).get "limit"

def ChargingConfig.inRateUnit (config : ChargingConfig) (limitA : F64) : F64 :=
  match config.rateUnit with
  | .A => limitA
  | .W => ((limitA.mul config.nominalVoltageV).mul
      (.finite (config.numberPhases.getD 1))).roundTenth

theorem scheduledLimit_payload (limitA : F64) (now : Time) :
    scheduledLimit (setChargingProfilePayload crates config limitA now) =
      some (.ofF64 (config.inRateUnit limitA)) := by
  unfold scheduledLimit setChargingProfilePayload ChargingConfig.inRateUnit
  cases config.numberPhases <;> cases config.profileKind <;> cases config.rateUnit <;>
    simp [Json.get_ofFields, Json.lookup_cons, Json.at?]

/-- The same on exact numbers. -/
def ChargingConfig.limitOnWire (config : ChargingConfig) (voltage a : ℚ) : ℚ :=
  match config.rateUnit with
  | .A => a
  | .W => roundTo 10 (a * voltage * config.numberPhases.getD 1)

theorem inRateUnit_eq (h : config.Bounds floor ceiling voltage) {a : ℚ} (ha : 0 ≤ a) :
    config.inRateUnit (.finite a) = .finite (config.limitOnWire voltage a) := by
  have hpower : 0 ≤ a * voltage * config.numberPhases.getD 1 :=
    mul_nonneg (mul_nonneg ha h.voltage_nonneg) (Nat.cast_nonneg _)
  unfold ChargingConfig.inRateUnit ChargingConfig.limitOnWire
  cases config.rateUnit with
  | A => rfl
  | W =>
    simp only [h.nominalVoltageV, F64.mul]
    exact roundTenth_finite hpower

/-- The frame of a set command carries the applied limit. -/
theorem prepareCall_setCurrentLimit (h : config.Bounds floor ceiling voltage) (hx : 0 ≤ x)
    {request : CommandRequest} (hcommand : request.command = .setCurrentLimit (.finite x))
    (uniqueId : String) (now : Time) :
    ∃ prepared, prepareCall crates config request uniqueId now = .ok prepared ∧
      prepared.appliedLimitA = some (.finite (appliedLimit floor ceiling x)) ∧
      prepared.raw = crates.toText (.array [.ofNat 2, .string uniqueId,
        .string "SetChargingProfile", setChargingProfilePayload crates config
          (.finite (appliedLimit floor ceiling x)) now]) := by
  obtain ⟨detail, hresolve⟩ := resolveLimit_eq h hx
  unfold prepareCall preparePayload
  simp only [hcommand, hresolve]
  exact ⟨_, rfl, rfl, rfl⟩

/-! ## The bounds on the wire -/

/-- The applied limit is nothing or between the floor and the ceiling, the frame asks for it, in
watts to half a tenth, and no larger request gets less. -/
def KeepsBounds (crates : Crates) (config : ChargingConfig) (x : ℚ) : Prop :=
  ∃ a : ℚ, (resolveLimit config (.finite x)).map ResolvedLimit.appliedA = .ok (.finite a) ∧
    (a = 0 ∨ config.minLimitA.value ≤ a ∧ a ≤ config.maxLimitA.value) ∧
    (∀ request uniqueId now, request.command = .setCurrentLimit (.finite x) →
      ∃ prepared payload, ∃ l : ℚ,
        prepareCall crates config request uniqueId now = .ok prepared ∧
        prepared.raw = crates.toText (.array [.ofNat 2, .string uniqueId,
          .string "SetChargingProfile", payload]) ∧
        scheduledLimit payload = some (.ofF64 (.finite l)) ∧
        (config.rateUnit = .A → l = a) ∧
        (config.rateUnit = .W →
          |l - a * config.nominalVoltageV.value * config.numberPhases.getD 1| ≤ 1 / 20 ∧
          l ≤ config.maxLimitA.value * config.nominalVoltageV.value * config.numberPhases.getD 1 +
            1 / 20)) ∧
    ∀ y, x ≤ y → ∃ b : ℚ,
      (resolveLimit config (.finite y)).map ResolvedLimit.appliedA = .ok (.finite b) ∧ a ≤ b

theorem resolveLimit_applied (h : config.Bounds floor ceiling voltage) (hx : 0 ≤ x) :
    (resolveLimit config (.finite x)).map ResolvedLimit.appliedA =
      .ok (.finite (appliedLimit floor ceiling x)) := by
  obtain ⟨detail, hresolve⟩ := resolveLimit_eq h hx
  rw [hresolve]
  rfl

/-- What the frame asks for, where the applied limit is below the ceiling. -/
theorem frame_carries (h : config.Bounds floor ceiling voltage) (hx : 0 ≤ x)
    (hbelow : appliedLimit floor ceiling x ≤ ceiling) {request : CommandRequest}
    (hcommand : request.command = .setCurrentLimit (.finite x)) (uniqueId : String) (now : Time) :
    ∃ prepared payload, ∃ l : ℚ,
      prepareCall crates config request uniqueId now = .ok prepared ∧
      prepared.raw = crates.toText (.array [.ofNat 2, .string uniqueId,
        .string "SetChargingProfile", payload]) ∧
      scheduledLimit payload = some (.ofF64 (.finite l)) ∧
      (config.rateUnit = .A → l = appliedLimit floor ceiling x) ∧
      (config.rateUnit = .W →
        |l - appliedLimit floor ceiling x * voltage * config.numberPhases.getD 1| ≤ 1 / 20 ∧
        l ≤ ceiling * voltage * config.numberPhases.getD 1 + 1 / 20) := by
  obtain ⟨prepared, hprepared, -, hraw⟩ := prepareCall_setCurrentLimit h hx hcommand uniqueId now
  have hnonneg := appliedLimit_nonneg h.floor_nonneg h.floor_le hx
  refine ⟨prepared, _, config.limitOnWire voltage (appliedLimit floor ceiling x), hprepared, hraw,
    ?_, ?_, ?_⟩
  · rw [scheduledLimit_payload, inRateUnit_eq h hnonneg]
  · intro hunit
    rw [ChargingConfig.limitOnWire, hunit]
  · intro hunit
    rw [ChargingConfig.limitOnWire, hunit]
    have hnear := abs_roundTo_sub (d := 10)
      (x := appliedLimit floor ceiling x * voltage * config.numberPhases.getD 1) (by norm_num)
    rw [half_tenth] at hnear
    have hpower : appliedLimit floor ceiling x * voltage * config.numberPhases.getD 1 ≤
        ceiling * voltage * config.numberPhases.getD 1 :=
      mul_le_mul_of_nonneg_right (mul_le_mul_of_nonneg_right hbelow h.voltage_nonneg)
        (Nat.cast_nonneg _)
    refine ⟨hnear, ?_⟩
    have hupper := (abs_le.mp hnear).2
    linarith

/-- For every configuration that passes its checks and every finite request, the bounds are kept if
and only if the request pauses or no tenth beyond either end is the nearest to it. -/
theorem keepsBounds_iff (hconfig : config.validate = []) (hx : 0 ≤ x) :
    KeepsBounds crates config x ↔
      StaysAbove config.minLimitA.value config.maxLimitA.value x ∧
        StaysBelow config.minLimitA.value config.maxLimitA.value x := by
  have h := ChargingConfig.bounds_of_validate hconfig
  have hwithin := @appliedLimit_within_iff _ _ x h.floor_nonneg h.floor_le hx
  constructor
  · rintro ⟨a, hresolve, hbounds, -⟩
    rw [resolveLimit_applied h hx, Except.ok.injEq, F64.finite.injEq] at hresolve
    rw [← hwithin, hresolve]
    exact hbounds
  · intro hstays
    have hbelow := (appliedLimit_le_iff h.floor_nonneg h.floor_le).mpr hstays.2
    refine ⟨_, resolveLimit_applied h hx, hwithin.mpr hstays, ?_, ?_⟩
    · intro request uniqueId now hcommand
      exact frame_carries h hx hbelow hcommand uniqueId now
    · -- the policy is monotone, also across the pause below the floor
      intro y hxy
      exact ⟨_, resolveLimit_applied h (hx.trans hxy),
        appliedLimit_mono h.floor_nonneg h.floor_le hx hxy⟩

/-- Sixteen amps are far from both ends of the default range. -/
theorem staysAbove_sixteen : StaysAbove 6 32 16 := by
  refine .inr fun t _ ht => ?_
  have hclamped : min 16 (32 : ℚ) = 16 := by norm_num
  linarith

theorem keepsBounds_iff_sixteen : KeepsBounds (.ofTable []) {} 16 := by
  refine (keepsBounds_iff ChargingConfig.validate_default (by norm_num)).mpr
    ⟨staysAbove_sixteen, .inr ?_⟩
  · intro t ht
    have hceiling : (32 : ℚ) < t / 10 := ht
    have hclamped : min 16 (32 : ℚ) = 16 := by norm_num
    change min 16 (32 : ℚ) + 1 / 20 < t / 10
    linarith

/-- A ceiling of 31.96 A is rounded to 32 A. -/
theorem not_keepsBounds_roundedUp :
    ¬ KeepsBounds (.ofTable []) { maxLimitA := .finite (799 / 25) } 32 := by
  intro h
  have hconfig : ({ maxLimitA := .finite (799 / 25) } : ChargingConfig).validate = [] := by
    decide +kernel
  obtain ⟨-, hlow | hbelow⟩ := (keepsBounds_iff hconfig (by norm_num)).mp h
  · have hfloor : (32 : ℚ) < 6 := hlow
    norm_num at hfloor
  · have hclamped : min 32 (799 / 25 : ℚ) + 1 / 20 < (320 : ℤ) / 10 :=
      hbelow 320 (by change (799 / 25 : ℚ) < (320 : ℤ) / 10; norm_num)
    norm_num at hclamped

/-! ## Applying a limit again -/

/-- The applied limit after `n` reconnects, each of which re-applies the last one. -/
def appliedAfter (config : ChargingConfig) : ℕ → F64 → Except String F64
  | 0, limitA => (resolveLimit config limitA).map ResolvedLimit.appliedA
  | n + 1, limitA =>
    (appliedAfter config n limitA).bind fun a => (resolveLimit config a).map ResolvedLimit.appliedA

/-- The policy gives an applied limit back, after any number of reconnects; it is what the snapshot
keeps of an accepted Call, and the frame that re-applies it asks for the same limit. -/
def ReappliesSame (crates : Crates) (config : ChargingConfig) (x : ℚ) : Prop :=
  ∀ a, (resolveLimit config (.finite x)).map ResolvedLimit.appliedA = .ok a →
    (resolveLimit config a).map ResolvedLimit.appliedA = .ok a ∧
    (∀ n, appliedAfter config n (.finite x) = .ok a) ∧
    ∀ request uniqueId now prepared, request.command = .setCurrentLimit (.finite x) →
      prepareCall crates config request uniqueId now = .ok prepared →
      (∀ st sentAt answeredAt response detail,
        (ChargePointState.applyCommandResult crates answeredAt st (.forInFlight crates answeredAt
          ⟨request, prepared, sentAt⟩ .accepted response detail)).2.currentLimitA = some a) ∧
      ∀ reconnectedAt uniqueId' later, ∃ prepared' payload payload',
        prepareCall crates config (MqttPublisher.reapplyRequest reconnectedAt a) uniqueId' later =
          .ok prepared' ∧
        prepared.raw = crates.toText (.array [.ofNat 2, .string uniqueId,
          .string "SetChargingProfile", payload]) ∧
        prepared'.raw = crates.toText (.array [.ofNat 2, .string uniqueId',
          .string "SetChargingProfile", payload']) ∧
        scheduledLimit payload' = scheduledLimit payload

theorem appliedAfter_eq {a : F64}
    (happlied : (resolveLimit config (.finite x)).map ResolvedLimit.appliedA = .ok a)
    (hagain : (resolveLimit config a).map ResolvedLimit.appliedA = .ok a) (n : ℕ) :
    appliedAfter config n (.finite x) = .ok a := by
  induction n with
  | zero => exact happlied
  | succ n ih =>
    rw [appliedAfter, ih]
    exact hagain

/-- An applied limit is re-applied as it is if and only if the request pauses or no positive tenth
below the floor is the nearest to it. -/
theorem reappliesSame_iff (hconfig : config.validate = []) (hx : 0 ≤ x) :
    ReappliesSame crates config x ↔
      StaysAbove config.minLimitA.value config.maxLimitA.value x := by
  have h := ChargingConfig.bounds_of_validate hconfig
  have hnonneg := appliedLimit_nonneg h.floor_nonneg h.floor_le hx
  have hidempotent := @appliedLimit_appliedLimit_iff _ _ x h.floor_nonneg h.floor_le hx
  have happlied := resolveLimit_applied h hx
  constructor
  · intro hsame
    -- the policy on its own result is the only thing that can differ
    obtain ⟨hagain, -⟩ := hsame _ happlied
    rw [resolveLimit_applied h hnonneg, Except.ok.injEq, F64.finite.injEq] at hagain
    exact hidempotent.mp hagain
  · intro hstays a ha
    obtain rfl : F64.finite (appliedLimit config.minLimitA.value config.maxLimitA.value x) = a :=
      Except.ok.inj (happlied.symm.trans ha)
    have hagain := resolveLimit_applied h hnonneg
    rw [hidempotent.mpr hstays] at hagain
    refine ⟨hagain, appliedAfter_eq happlied hagain, ?_⟩
    intro request uniqueId now prepared hcommand hprepared
    obtain ⟨built, hbuilt, hamps, hraw⟩ :=
      @prepareCall_setCurrentLimit crates _ _ _ _ _ h hx request hcommand uniqueId now
    obtain rfl : built = prepared := Except.ok.inj (hbuilt.symm.trans hprepared)
    constructor
    · intro st sentAt answeredAt response detail
      have haction : built.action = "SetChargingProfile" := by
        rw [prepareCall_action hprepared, hcommand]
        rfl
      obtain ⟨-, hlimit⟩ := st.applyCommandResult_limit crates answeredAt
        (.forInFlight crates answeredAt ⟨request, built, sentAt⟩ .accepted response detail)
      rw [hlimit]
      simp [CommandResult.forInFlight, CommandResult.forRequest, CommandResult.isLimitResult, haction,
        hamps]
    · intro reconnectedAt uniqueId' later
      obtain ⟨prepared', hprepared', -, hraw'⟩ :=
        @prepareCall_setCurrentLimit crates _ _ _ _ _ h hnonneg
          (MqttPublisher.reapplyRequest reconnectedAt _) rfl uniqueId' later
      refine ⟨prepared', _, _, hprepared', hraw, hraw', ?_⟩
      rw [scheduledLimit_payload, scheduledLimit_payload, hidempotent.mpr hstays]

theorem reappliesSame_iff_sixteen : ReappliesSame (.ofTable []) {} 16 :=
  (reappliesSame_iff ChargingConfig.validate_default (by norm_num)).mpr staysAbove_sixteen

/-- Above a floor of 6.04 A a request for as much is rounded to 6 A, which pauses when re-applied. -/
theorem not_reappliesSame_roundedDown :
    ¬ ReappliesSame (.ofTable []) { minLimitA := .finite (151 / 25) } (151 / 25) := by
  intro h
  have hconfig : ({ minLimitA := .finite (151 / 25) } : ChargingConfig).validate = [] := by
    decide +kernel
  obtain hlow | habove := (reappliesSame_iff hconfig (by norm_num)).mp h
  · have hfloor : (151 / 25 : ℚ) < 151 / 25 := hlow
    norm_num at hfloor
  · have hclamped : (60 : ℤ) / 10 + 1 / 20 ≤ min (151 / 25 : ℚ) 32 :=
      habove 60 (by norm_num) (by change ((60 : ℤ) / 10 : ℚ) < 151 / 25; norm_num)
    norm_num at hclamped

end

end OcppProxy

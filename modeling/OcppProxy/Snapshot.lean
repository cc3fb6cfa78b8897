import OcppProxy.Command
import Mathlib.Data.List.AList

/-!
# The retained snapshot of a charge point

What the publisher keeps per charge point, how forwarded messages and command results are folded
into it, and the file behind it (`snapshot_store.rs`).
-/

namespace OcppProxy

structure ChargePointState where
  connectorStatus : Option String := none
  errorCode : Option String := none
  transactionId : Option Int := none
  idTag : Option String := none
  meterStartWh : Option Int := none
  lastMeterStopWh : Option Int := none
  lastSessionEnergyWh : Option Int := none
  lastTransactionId : Option Int := none
  lastStopReason : Option String := none
  lastStopTime : Option String := none
  /-- The limit the charger last accepted from the proxy, in amps. -/
  currentLimitA : Option F64 := none
  /-- Outcome of the most recent limit command. -/
  currentLimitStatus : Option String := none
  currentLimitUpdated : Option String := none
  lastUpdated : Option String := none
  deriving DecidableEq, Repr

/-- The argument object of a raw frame: a Call carries it at index 3, a response at index 2. -/
def ocppArgs (crates : Crates) (raw : String) (messageType : OcppMessageType) :
    Option (List (String × Json)) := do
  let parsed ← (crates.fromStr raw).toOption
  let items ← parsed.asArray
  (← items[if messageType.isCall then 3 else 2]?).asObject

namespace ChargePointState

/-- `PartialEq`: limits are compared as `f64`s. -/
def same (a b : ChargePointState) : Bool :=
  decide ({ a with currentLimitA := none } = { b with currentLimitA := none }) &&
    match a.currentLimitA, b.currentLimitA with
    | none, none => true
    | some x, some y => x.eq y
    | _, _ => false

/-- What a message does to the fields it carries, where it carries any. -/
def fold (st : ChargePointState) (action : String) (messageType : OcppMessageType)
    (args : List (String × Json)) : Option ChargePointState :=
  let text (key : String) : Option String := (args.lookup key).bind Json.asStr
  let int (key : String) : Option Int := (args.lookup key).bind Json.asI64
  -- the difference of two `i64`s wraps
  let energy (stop start : Int) : Int := (stop - start).bmod (2 ^ 64)
  match action, messageType with
  | "StatusNotification", .call _ => some { st with
      connectorStatus := (text "status").or st.connectorStatus
      errorCode := (text "errorCode").or st.errorCode }
  | "StartTransaction", .call _ => some { st with
      meterStartWh := int "meterStart"
      idTag := text "idTag" }
  | "StartTransaction", .callResult => some { st with transactionId := int "transactionId" }
  | "StopTransaction", .call _ => some { st with
      lastMeterStopWh := int "meterStop"
      lastSessionEnergyWh := match int "meterStop", st.meterStartWh with
        | some stop, some start => some (energy stop start)
        | _, _ => none
      lastTransactionId := (int "transactionId").or st.transactionId
      lastStopReason := text "reason"
      lastStopTime := text "timestamp"
      transactionId := none
      idTag := none
      meterStartWh := none }
  | _, _ => none

/-- Fold one forwarded message into the snapshot; whether anything changed. -/
def apply (crates : Crates) (now : Time) (st : ChargePointState) (action : String)
    (messageType : OcppMessageType) (raw : String) : Bool × ChargePointState :=
  match (ocppArgs crates raw messageType).bind (st.fold action messageType) with
  | none => (false, st)
  | some folded =>
    if folded.same st then (false, folded)
    else (true, { folded with lastUpdated := some (crates.rfc3339 now) })

/-- Fold the outcome of a limit command into the snapshot; whether anything changed. -/
def applyCommandResult (crates : Crates) (now : Time) (st : ChargePointState)
    (result : CommandResult) : Bool × ChargePointState :=
  if !result.isLimitResult then (false, st)
  else
    let folded := { st with
      currentLimitStatus := some result.status.asStr
      currentLimitA :=
        if result.status = .accepted then
          if result.action = some "SetChargingProfile" then result.appliedLimitA else none
        else st.currentLimitA }
    if folded.same st then (false, folded)
    else (true, { folded with
      currentLimitUpdated := some (crates.rfc3339 now)
      lastUpdated := some (crates.rfc3339 now) })

def toJson (st : ChargePointState) : Json :=
  let text (value : Option String) : Json := .ofOption .string value
  let int (value : Option Int) : Json := .ofOption .ofInt value
  .object [("connector_status", text st.connectorStatus), ("error_code", text st.errorCode),
    ("transaction_id", int st.transactionId), ("id_tag", text st.idTag),
    ("meter_start_wh", int st.meterStartWh), ("last_meter_stop_wh", int st.lastMeterStopWh),
    ("last_session_energy_wh", int st.lastSessionEnergyWh),
    ("last_transaction_id", int st.lastTransactionId),
    ("last_stop_reason", text st.lastStopReason), ("last_stop_time", text st.lastStopTime),
    ("current_limit_a", .ofOption .ofF64 st.currentLimitA),
    ("current_limit_status", text st.currentLimitStatus),
    ("current_limit_updated", text st.currentLimitUpdated), ("last_updated", text st.lastUpdated)]

section
variable (crates : Crates) (now : Time) (st : ChargePointState)

/-- What compares equal is equal. -/
theorem eq_of_same {a b : ChargePointState} (h : a.same b = true) : a = b := by
  obtain ⟨hothers, hlimit⟩ := Bool.and_eq_true_iff.mp h
  have hothers := of_decide_eq_true hothers
  have hlimits : a.currentLimitA = b.currentLimitA := by
    revert hlimit
    cases a.currentLimitA with
    | none => cases b.currentLimitA <;> simp
    | some x =>
      cases b.currentLimitA with
      | none => simp
      | some y => cases x <;> cases y <;> simp [F64.eq]
  cases a
  cases b
  simp only [mk.injEq] at hothers hlimits ⊢
  tauto

/-- What a message leaves unchanged is the snapshot as it was. -/
theorem apply_unchanged {action : String} {messageType : OcppMessageType} {raw : String}
    (h : (st.apply crates now action messageType raw).1 = false) :
    (st.apply crates now action messageType raw).2 = st := by
  unfold apply at h ⊢
  split
  · rfl
  · rename_i folded hfolded
    rw [hfolded] at h
    cases hsame : folded.same st with
    | true => exact eq_of_same hsame
    | false => simp [hsame] at h

theorem applyCommandResult_unchanged {result : CommandResult}
    (h : (st.applyCommandResult crates now result).1 = false) :
    (st.applyCommandResult crates now result).2 = st := by
  unfold applyCommandResult at h ⊢
  cases hlimit : result.isLimitResult with
  | false => simp
  | true =>
    rw [hlimit] at h
    simp only [Bool.not_true, Bool.false_eq_true, if_false] at h ⊢
    revert h
    cases hsame : same _ st with
    | true => exact fun _ => eq_of_same hsame
    | false => simp

/-- Messages do not touch the standing limit. -/
theorem apply_limit (action : String) (messageType : OcppMessageType) (raw : String) :
    (st.apply crates now action messageType raw).2.currentLimitA = st.currentLimitA ∧
      (st.apply crates now action messageType raw).2.currentLimitStatus =
        st.currentLimitStatus := by
  have hfold {args : List (String × Json)} {folded : ChargePointState}
      (h : st.fold action messageType args = some folded) :
      folded.currentLimitA = st.currentLimitA ∧
        folded.currentLimitStatus = st.currentLimitStatus := by
    unfold fold at h
    split at h <;> cases h <;> exact ⟨rfl, rfl⟩
  unfold apply
  split
  · exact ⟨rfl, rfl⟩
  · rename_i folded h
    obtain ⟨args, -, hargs⟩ := Option.bind_eq_some_iff.mp h
    have hlimit := hfold hargs
    cases folded.same st <;> exact hlimit

/-- The status of the last limit result is kept, whatever it was; the limit itself changes with
accepted results only. -/
theorem applyCommandResult_limit (result : CommandResult) :
    (st.applyCommandResult crates now result).2.currentLimitStatus =
        (if result.isLimitResult then some result.status.asStr else st.currentLimitStatus) ∧
      (st.applyCommandResult crates now result).2.currentLimitA =
        (if result.isLimitResult = true ∧ result.status = .accepted then
          if result.action = some "SetChargingProfile" then result.appliedLimitA else none
        else st.currentLimitA) := by
  unfold applyCommandResult
  cases result.isLimitResult with
  | false => simp
  | true =>
    simp only [Bool.not_true, Bool.false_eq_true, if_false, if_true, true_and]
    cases same _ st <;> exact ⟨rfl, rfl⟩

end

end ChargePointState

/-! ## The file -/

abbrev SnapshotMap := AList fun _ : String => ChargePointState

/-- Where the map is kept: whether there is a path, and what `load` would read back. -/
structure SnapshotStore where
  enabled : Bool
  file : SnapshotMap

namespace SnapshotStore

def load (store : SnapshotStore) : SnapshotMap := if store.enabled then store.file else ∅

def save (store : SnapshotStore) (map : SnapshotMap) : SnapshotStore :=
  if store.enabled then { store with file := map } else store

end SnapshotStore

end OcppProxy

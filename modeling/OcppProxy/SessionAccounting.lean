import OcppProxy.Snapshot
import Mathlib.Data.List.Induction

/-!
# Session accounting

What the snapshot says about the session that ended last, against everything folded into it since
it was empty; and what a repeated `StopTransaction` does to it.
-/

namespace OcppProxy

structure ForwardedMessage where
  now : Time
  action : String
  messageType : OcppMessageType
  raw : String

inductive SnapshotFold where
  | message (m : ForwardedMessage)
  | commandResult (now : Time) (result : CommandResult)

def argInt (key : String) (args : List (String × Json)) : Option Int :=
  (args.lookup key).bind Json.asI64

def ForwardedMessage.args (crates : Crates) (m : ForwardedMessage) :
    Option (List (String × Json)) :=
  ocppArgs crates m.raw m.messageType

/-- The messages of which the snapshot keeps something. -/
def ForwardedMessage.isKept (m : ForwardedMessage) : Bool :=
  match m.messageType with
  | .call _ => m.action ∈ ["StatusNotification", "StartTransaction", "StopTransaction"]
  | .callResult => m.action = "StartTransaction"
  | .callError => false

namespace SnapshotFold

def applyTo (crates : Crates) (st : ChargePointState) : SnapshotFold → Bool × ChargePointState
  | message m => st.apply crates m.now m.action m.messageType m.raw
  | commandResult now result => st.applyCommandResult crates now result

/-- The argument object, where the fold is a Call of the action with one. -/
def callArgs (crates : Crates) (action : String) : SnapshotFold → Option (List (String × Json))
  | message m => if m.action = action ∧ m.messageType.isCall then m.args crates else none
  | commandResult .. => none

/-- The argument object, where the fold is a CallResult of the action with one. -/
def resultArgs (crates : Crates) (action : String) : SnapshotFold → Option (List (String × Json))
  | message m => if m.action = action ∧ m.messageType = .callResult then m.args crates else none
  | commandResult .. => none

end SnapshotFold

def foldAll (crates : Crates) (folds : List SnapshotFold) : ChargePointState :=
  folds.foldl (fun st f => (f.applyTo crates st).2) {}

/-! ## The history -/

/-- The folds since the last `StopTransaction` Call, newest first. -/
def sinceStop (crates : Crates) (folds : List SnapshotFold) : List SnapshotFold :=
  folds.reverse.takeWhile fun f => (f.callArgs crates "StopTransaction").isNone

/-- The arguments of the latest `StartTransaction` Call since then. -/
def latestStart (crates : Crates) (folds : List SnapshotFold) : Option (List (String × Json)) :=
  (sinceStop crates folds).findSome? (·.callArgs crates "StartTransaction")

def latestStartResult (crates : Crates) (folds : List SnapshotFold) :
    Option (List (String × Json)) :=
  (sinceStop crates folds).findSome? (·.resultArgs crates "StartTransaction")

def ChargePointState.lastSession (st : ChargePointState) :
    Option Int × Option Int × Option Int × Option String × Option String :=
  (st.lastMeterStopWh, st.lastSessionEnergyWh, st.lastTransactionId, st.lastStopReason,
    st.lastStopTime)

/-- The snapshot once a `StopTransaction` with these arguments closed its session. -/
def ChargePointState.closed (st : ChargePointState) (args : List (String × Json)) :
    ChargePointState :=
  { st with
    lastMeterStopWh := argInt "meterStop" args
    lastSessionEnergyWh := match argInt "meterStop" args, st.meterStartWh with
      | some stop, some start => some ((stop - start).bmod (2 ^ 64))
      | _, _ => none
    lastTransactionId := (argInt "transactionId" args).or st.transactionId
    lastStopReason := (args.lookup "reason").bind Json.asStr
    lastStopTime := (args.lookup "timestamp").bind Json.asStr
    transactionId := none
    idTag := none
    meterStartWh := none }

/-- The snapshot says what it should about the session that a `StopTransaction` with these
arguments closes, after the folds before it. -/
structure ClosesSession (crates : Crates) (folds : List SnapshotFold)
    (args : List (String × Json)) (st : ChargePointState) : Prop where
  meterStop : st.lastMeterStopWh = argInt "meterStop" args
  energy : ∀ start stop, (latestStart crates folds).bind (argInt "meterStart") = some start →
    argInt "meterStop" args = some stop → -2 ^ 63 ≤ stop - start → stop - start < 2 ^ 63 →
    st.lastSessionEnergyWh = some (stop - start)
  energy_unknown : (latestStart crates folds).bind (argInt "meterStart") = none ∨
    argInt "meterStop" args = none → st.lastSessionEnergyWh = none
  lastTransactionId : st.lastTransactionId = (argInt "transactionId" args).or
    ((latestStartResult crates folds).bind (argInt "transactionId"))
  transactionId : st.transactionId = none
  idTag : st.idTag = none
  meterStart : st.meterStartWh = none

/-- What the snapshot says about the open session is what the history says. -/
structure TracksSession (crates : Crates) (folds : List SnapshotFold) (st : ChargePointState) :
    Prop where
  meterStart : st.meterStartWh = (latestStart crates folds).bind (argInt "meterStart")
  transactionId : st.transactionId =
    (latestStartResult crates folds).bind (argInt "transactionId")

section
variable {crates : Crates} {folds : List SnapshotFold} {f : SnapshotFold} {m : ForwardedMessage}
  {st : ChargePointState} {now : Time}

theorem foldAll_concat :
    foldAll crates (folds ++ [f]) = (f.applyTo crates (foldAll crates folds)).2 := by
  simp only [foldAll, List.foldl_append, List.foldl_cons, List.foldl_nil]

theorem sinceStop_concat : sinceStop crates (folds ++ [f]) =
    if (f.callArgs crates "StopTransaction").isNone then f :: sinceStop crates folds else [] := by
  simp only [sinceStop, List.reverse_append, List.reverse_cons, List.reverse_nil, List.nil_append,
    List.singleton_append, List.takeWhile_cons]

theorem latestStart_concat (h : f.callArgs crates "StopTransaction" = none) :
    latestStart crates (folds ++ [f]) =
      (f.callArgs crates "StartTransaction").or (latestStart crates folds) := by
  rw [latestStart, sinceStop_concat, h, latestStart]
  cases hf : f.callArgs crates "StartTransaction" <;> simp [hf]

theorem latestStartResult_concat (h : f.callArgs crates "StopTransaction" = none) :
    latestStartResult crates (folds ++ [f]) =
      (f.resultArgs crates "StartTransaction").or (latestStartResult crates folds) := by
  rw [latestStartResult, sinceStop_concat, h, latestStartResult]
  cases hf : f.resultArgs crates "StartTransaction" <;> simp [hf]

/-- A stop forgets the session before it. -/
theorem latest_concat_stop {args : List (String × Json)}
    (h : f.callArgs crates "StopTransaction" = some args) :
    latestStart crates (folds ++ [f]) = none ∧ latestStartResult crates (folds ++ [f]) = none := by
  simp [latestStart, latestStartResult, sinceStop_concat, h]

/-! ## One fold -/

namespace ChargePointState

/-- A fold writes the fields it carries and, where that changes anything, the time. -/
theorem apply_snd (action : String) (messageType : OcppMessageType) (raw : String) :
    ∃ updated, (st.apply crates now action messageType raw).2 =
      { ((ocppArgs crates raw messageType).bind (st.fold action messageType)).getD st with
        lastUpdated := updated } := by
  unfold apply
  cases hfold : (ocppArgs crates raw messageType).bind (st.fold action messageType) with
  | none => exact ⟨st.lastUpdated, rfl⟩
  | some folded =>
    dsimp only [Option.getD_some]
    cases folded.same st
    · exact ⟨some (crates.rfc3339 now), rfl⟩
    · exact ⟨folded.lastUpdated, rfl⟩

/-- A command result is about the limit only. -/
theorem applyCommandResult_snd (result : CommandResult) :
    ∃ limitA status limitUpdated updated, (st.applyCommandResult crates now result).2 =
      { st with currentLimitA := limitA, currentLimitStatus := status
                currentLimitUpdated := limitUpdated, lastUpdated := updated } := by
  unfold applyCommandResult
  split
  · exact ⟨_, _, _, _, rfl⟩
  · dsimp only
    cases same _ st <;> exact ⟨_, _, _, _, rfl⟩

theorem same_self (h : st.currentLimitA ≠ some .nan) : st.same st = true := by
  unfold same
  cases hlimit : st.currentLimitA with
  | none => simp
  | some limitA => cases limitA <;> simp_all [F64.eq]

/-- A fold writes the times only where another field changed, so they never make the difference. -/
theorem same_of_touched {folded : ChargePointState} {limitUpdated updated : Option String}
    (hlimitUpdated : folded.currentLimitUpdated = st.currentLimitUpdated)
    (hupdated : folded.lastUpdated = st.lastUpdated)
    (h : same { folded with currentLimitUpdated := limitUpdated, lastUpdated := updated } st =
      true) :
    folded.same st = true := by
  unfold same at h ⊢
  obtain ⟨hothers, hlimit⟩ := Bool.and_eq_true_iff.mp h
  refine Bool.and_eq_true_iff.mpr ⟨?_, hlimit⟩
  simp only [decide_eq_true_eq, mk.injEq] at hothers ⊢
  tauto

/-- So what answers true has left another snapshot. -/
theorem not_same_of_touched {folded : ChargePointState} {limitUpdated updated : Option String}
    (hlimitUpdated : folded.currentLimitUpdated = st.currentLimitUpdated)
    (hupdated : folded.lastUpdated = st.lastUpdated)
    (h : (if folded.same st then (false, folded)
      else (true, { folded with currentLimitUpdated := limitUpdated, lastUpdated := updated })).1 =
        true) :
    (if folded.same st then (false, folded)
      else (true, { folded with currentLimitUpdated := limitUpdated
                                lastUpdated := updated })).2.same st = false := by
  split at h
  · cases h
  · rename_i hsame
    rw [if_neg hsame]
    apply Bool.eq_false_iff.mpr
    intro htouched
    exact hsame (same_of_touched hlimitUpdated hupdated htouched)

theorem fold_times {action : String} {messageType : OcppMessageType} {args : List (String × Json)}
    {folded : ChargePointState} (h : st.fold action messageType args = some folded) :
    folded.currentLimitUpdated = st.currentLimitUpdated ∧
      folded.lastUpdated = st.lastUpdated := by
  unfold fold at h
  split at h <;> cases h <;> exact ⟨rfl, rfl⟩

theorem fold_stop {call : String} {args : List (String × Json)} :
    st.fold "StopTransaction" (.call call) args = some (st.closed args) :=
  rfl

/-- A message that is not kept is not folded. -/
theorem fold_eq_none {args : List (String × Json)} (h : m.isKept = false) :
    st.fold m.action m.messageType args = none := by
  unfold fold
  unfold ForwardedMessage.isKept at h
  split <;> simp_all

end ChargePointState

namespace SnapshotFold

theorem applyTo_unchanged (h : (f.applyTo crates st).1 = false) : (f.applyTo crates st).2 = st := by
  cases f with
  | message m => exact st.apply_unchanged crates m.now h
  | commandResult now result => exact st.applyCommandResult_unchanged crates now h

/-- A fold that answers true has left another snapshot. -/
theorem applyTo_changed (h : (f.applyTo crates st).1 = true) :
    (f.applyTo crates st).2.same st = false := by
  cases f with
  | message m =>
    unfold applyTo ChargePointState.apply at h ⊢
    dsimp only at h ⊢
    cases hfold : (ocppArgs crates m.raw m.messageType).bind (st.fold m.action m.messageType) with
    | none => simp [hfold] at h
    | some folded =>
      obtain ⟨args, -, hargs⟩ := Option.bind_eq_some_iff.mp hfold
      obtain ⟨hlimitUpdated, hupdated⟩ := ChargePointState.fold_times hargs
      rw [hfold] at h
      exact ChargePointState.not_same_of_touched hlimitUpdated hupdated h
  | commandResult now result =>
    unfold applyTo ChargePointState.applyCommandResult at h ⊢
    dsimp only at h ⊢
    cases hlimit : result.isLimitResult with
    | false => simp [hlimit] at h
    | true =>
      rw [hlimit] at h
      exact ChargePointState.not_same_of_touched rfl rfl h

/-- A stop closes the session. -/
theorem applyTo_stop {args : List (String × Json)}
    (h : f.callArgs crates "StopTransaction" = some args) :
    ∃ updated, (f.applyTo crates st).2 = { st.closed args with lastUpdated := updated } := by
  cases f with
  | commandResult now result => cases h
  | message m =>
    obtain ⟨now, action, messageType, raw⟩ := m
    simp only [callArgs, ForwardedMessage.args, Option.ite_none_right_eq_some] at h
    obtain ⟨⟨rfl, hcall⟩, hargs⟩ := h
    cases messageType with
    | callResult => cases hcall
    | callError => cases hcall
    | call c =>
      obtain ⟨updated, happly⟩ := @ChargePointState.apply_snd crates st now "StopTransaction"
        (.call c) raw
      refine ⟨updated, happly.trans ?_⟩
      rw [hargs, Option.bind_some, ChargePointState.fold_stop, Option.getD_some]

/-- Anything else keeps what is said about the session before, and follows the open one. -/
theorem applyTo_other (h : f.callArgs crates "StopTransaction" = none) :
    (f.applyTo crates st).2.lastSession = st.lastSession ∧
      (f.applyTo crates st).2.meterStartWh =
        ((f.callArgs crates "StartTransaction").map (argInt "meterStart")).getD st.meterStartWh ∧
      (f.applyTo crates st).2.transactionId =
        ((f.resultArgs crates "StartTransaction").map (argInt "transactionId")).getD
          st.transactionId := by
  cases f with
  | commandResult now result =>
    obtain ⟨_, _, _, _, happly⟩ := @ChargePointState.applyCommandResult_snd crates st now result
    rw [applyTo, happly]
    exact ⟨rfl, rfl, rfl⟩
  | message m =>
    obtain ⟨now, action, messageType, raw⟩ := m
    obtain ⟨updated, happly⟩ := @ChargePointState.apply_snd crates st now action messageType raw
    rw [applyTo, happly]
    simp only [callArgs, resultArgs, ForwardedMessage.args] at h ⊢
    cases hargs : ocppArgs crates raw messageType with
    | none => simp [ChargePointState.lastSession]
    | some args =>
      simp only [Option.bind_some]
      unfold ChargePointState.fold
      split
      · simp [ChargePointState.lastSession]
      · simp [ChargePointState.lastSession, argInt, OcppMessageType.isCall]
      · simp [ChargePointState.lastSession, argInt, OcppMessageType.isCall]
      · simp [hargs, OcppMessageType.isCall] at h
      · rename_i hstatus hstart hresult hstop
        cases messageType with
        | call c => simp_all [ChargePointState.lastSession, OcppMessageType.isCall]
        | callResult => simp_all [ChargePointState.lastSession, OcppMessageType.isCall]
        | callError => simp [ChargePointState.lastSession, OcppMessageType.isCall]

/-- A message that is not kept, or has no argument object, is not folded. -/
theorem applyTo_ignored (h : m.args crates = none ∨ m.isKept = false) :
    (message m).applyTo crates st = (false, st) := by
  have hnone : (ocppArgs crates m.raw m.messageType).bind (st.fold m.action m.messageType) =
      none := by
    rcases h with hargs | hkept
    · rw [ForwardedMessage.args] at hargs
      rw [hargs, Option.bind_none]
    · exact Option.bind_eq_none_iff.mpr fun args _ => ChargePointState.fold_eq_none hkept
  simp only [applyTo, ChargePointState.apply, hnone]

end SnapshotFold

/-! ## The whole history -/

theorem TracksSession.step (h : TracksSession crates folds st) :
    TracksSession crates (folds ++ [f]) (f.applyTo crates st).2 := by
  cases hstop : f.callArgs crates "StopTransaction" with
  | some args =>
    obtain ⟨updated, hclosed⟩ := @SnapshotFold.applyTo_stop crates f st args hstop
    obtain ⟨hstart, hresult⟩ := @latest_concat_stop crates folds f args hstop
    constructor
    · rw [hclosed, hstart]
      rfl
    · rw [hclosed, hresult]
      rfl
  | none =>
    obtain ⟨-, hmeter, htransaction⟩ := @SnapshotFold.applyTo_other crates f st hstop
    constructor
    · rw [hmeter, latestStart_concat hstop, h.meterStart]
      cases f.callArgs crates "StartTransaction" <;> rfl
    · rw [htransaction, latestStartResult_concat hstop, h.transactionId]
      cases f.resultArgs crates "StartTransaction" <;> rfl

theorem tracksSession (crates : Crates) (folds : List SnapshotFold) :
    TracksSession crates folds (foldAll crates folds) := by
  induction folds using List.reverseRecOn with
  | nil => exact ⟨rfl, rfl⟩
  | append_singleton folds f ih =>
    rw [foldAll_concat]
    exact ih.step

/-- The difference of two readings is what was delivered, where it fits. -/
theorem closesSession {args : List (String × Json)}
    (h : f.callArgs crates "StopTransaction" = some args) :
    ClosesSession crates folds args (foldAll crates (folds ++ [f])) := by
  obtain ⟨updated, hclosed⟩ := @SnapshotFold.applyTo_stop crates f (foldAll crates folds) args h
  have htracks := tracksSession crates folds
  rw [foldAll_concat, hclosed]
  refine ⟨rfl, ?_, ?_, ?_, rfl, rfl, rfl⟩
  · intro start stop hstart hstop hlow hhigh
    have hwrap : (stop - start).bmod (2 ^ 64) = stop - start :=
      Int.bmod_eq_of_le (by omega) (by omega)
    simp only [ChargePointState.closed, htracks.meterStart, hstart, hstop, hwrap]
  · intro hunknown
    simp only [ChargePointState.closed, htracks.meterStart]
    rcases hunknown with hstart | hstop
    · cases argInt "meterStop" args <;> simp [hstart]
    · simp [hstop]
  · rw [← htracks.transactionId]
    rfl

/-- After any folds, the next one closes the session if it is a `StopTransaction` and leaves the
last session alone otherwise; it answers whether the snapshot changed. -/
theorem session_accounting (crates : Crates) (folds : List SnapshotFold) (f : SnapshotFold) :
    (∀ args, f.callArgs crates "StopTransaction" = some args →
      ClosesSession crates folds args (foldAll crates (folds ++ [f]))) ∧
    (f.callArgs crates "StopTransaction" = none →
      (foldAll crates (folds ++ [f])).lastSession = (foldAll crates folds).lastSession) ∧
    (∀ m, f = .message m → m.args crates = none ∨ m.isKept = false →
      foldAll crates (folds ++ [f]) = foldAll crates folds) ∧
    ((f.applyTo crates (foldAll crates folds)).1 = false →
      foldAll crates (folds ++ [f]) = foldAll crates folds) ∧
    ((f.applyTo crates (foldAll crates folds)).1 = true →
      (foldAll crates (folds ++ [f])).same (foldAll crates folds) = false) := by
  refine ⟨fun args => closesSession, ?_, ?_, ?_, ?_⟩
  · intro hstop
    rw [foldAll_concat]
    exact (SnapshotFold.applyTo_other hstop).1
  · rintro m rfl hignored
    rw [foldAll_concat, SnapshotFold.applyTo_ignored hignored]
  · intro hfalse
    rw [foldAll_concat]
    exact SnapshotFold.applyTo_unchanged hfalse
  · intro htrue
    rw [foldAll_concat]
    exact SnapshotFold.applyTo_changed htrue

/-! ## A repeated stop -/

def stopTransaction (now : Time) (raw : String) : ForwardedMessage where
  now
  action := "StopTransaction"
  messageType := .call "StopTransaction"
  raw

/-- Folding the frame once more right away changes nothing. -/
def RetryUnchanged (crates : Crates) (st : ChargePointState) (raw : String) (now retriedAt : Time) :
    Prop :=
  let first := ((SnapshotFold.message (stopTransaction now raw)).applyTo crates st).2
  (SnapshotFold.message (stopTransaction retriedAt raw)).applyTo crates first = (false, first)

/-- Messages alone never put a limit into the snapshot. -/
theorem foldAll_messages_limit (crates : Crates) (messages : List ForwardedMessage) :
    (foldAll crates (messages.map .message)).currentLimitA = none := by
  induction messages using List.reverseRec with
  | nil => rfl
  | append_singleton messages m ih =>
    rw [List.map_append, List.map_singleton, foldAll_concat]
    exact (ChargePointState.apply_limit crates m.now _ m.action m.messageType m.raw).1.trans ih

/-- Where the limit compares equal to itself, a fold is without effect exactly when what it makes
of the snapshot is the snapshot. -/
theorem ChargePointState.apply_eq_self_iff {action : String} {messageType : OcppMessageType}
    {raw : String} {folded : ChargePointState} (hlimit : st.currentLimitA ≠ some .nan)
    (hfold : (ocppArgs crates raw messageType).bind (st.fold action messageType) = some folded) :
    st.apply crates now action messageType raw = (false, st) ↔ folded = st := by
  unfold apply
  rw [hfold]
  dsimp only
  cases hsame : folded.same st with
  | true => simp [eq_of_same hsame]
  | false =>
    constructor
    · simp
    · rintro rfl
      rw [same_self hlimit] at hsame
      cases hsame

/-- Closing again finds neither a start nor a transaction id. -/
theorem ChargePointState.closed_again_iff {args : List (String × Json)} {updated : Option String} :
    ({ st.closed args with lastUpdated := updated } : ChargePointState).closed args =
        { st.closed args with lastUpdated := updated } ↔
      (argInt "meterStop" args = none ∨ st.meterStartWh = none) ∧
        (argInt "transactionId" args ≠ none ∨ st.transactionId = none) := by
  simp only [closed, mk.injEq, true_and, and_true, Option.or_none]
  refine and_congr ?_ ?_
  · cases argInt "meterStop" args <;> cases st.meterStartWh <;> simp
  · cases argInt "transactionId" args <;> cases st.transactionId <;> simp

/-- The first stop leaves an energy and a transaction id which the second has nothing to compute
from. -/
theorem retryUnchanged_of_args {raw : String} {args : List (String × Json)} {retriedAt : Time}
    (hlimit : st.currentLimitA ≠ some .nan)
    (hargs : ocppArgs crates raw (.call "StopTransaction") = some args) :
    RetryUnchanged crates st raw now retriedAt ↔
      (argInt "meterStop" args = none ∨ st.meterStartWh = none) ∧
        (argInt "transactionId" args ≠ none ∨ st.transactionId = none) := by
  have hstop : (SnapshotFold.message (stopTransaction now raw)).callArgs crates
      "StopTransaction" = some args := hargs
  obtain ⟨updated, hfirst⟩ := @SnapshotFold.applyTo_stop crates _ st args hstop
  have hsecond (st : ChargePointState) : (ocppArgs crates raw (.call "StopTransaction")).bind
      (st.fold "StopTransaction" (.call "StopTransaction")) = some (st.closed args) := by
    rw [hargs, Option.bind_some, ChargePointState.fold_stop]
  have hlimit' : ({ st.closed args with lastUpdated := updated } : ChargePointState).currentLimitA ≠
      some .nan :=
    hlimit
  unfold RetryUnchanged
  rw [hfirst]
  refine (ChargePointState.apply_eq_self_iff hlimit' (hsecond _)).trans ?_
  exact ChargePointState.closed_again_iff

/-- A repeated stop changes nothing exactly when the first one had nothing to compute from the open
session: no energy and no transaction id. -/
theorem retryUnchanged_iff (crates : Crates) (messages : List ForwardedMessage) (raw : String)
    (now retriedAt : Time) :
    RetryUnchanged crates (foldAll crates (messages.map .message)) raw now retriedAt ↔
      ∀ args, ocppArgs crates raw (.call "StopTransaction") = some args →
        (argInt "meterStop" args = none ∨
          (foldAll crates (messages.map .message)).meterStartWh = none) ∧
        (argInt "transactionId" args ≠ none ∨
          (foldAll crates (messages.map .message)).transactionId = none) := by
  -- a NaN limit would make every comparison fail, and no message sets one
  have hlimit : (foldAll crates (messages.map .message)).currentLimitA ≠ some .nan := by
    rw [foldAll_messages_limit]
    simp
  cases hargs : ocppArgs crates raw (.call "StopTransaction") with
  | some args => simpa using retryUnchanged_of_args hlimit hargs
  | none =>
    have hignored (now : Time) (st : ChargePointState) :
        (SnapshotFold.message (stopTransaction now raw)).applyTo crates st = (false, st) :=
      SnapshotFold.applyTo_ignored (.inl hargs)
    simp [RetryUnchanged, hignored]

end

def startedAt100 : Json :=
  .array [.ofNat 2, .string "1", .string "StartTransaction",
    .object [("idTag", .string "A"), ("meterStart", .ofNat 100)]]

def stoppedAt500 : Json :=
  .array [.ofNat 2, .string "2", .string "StopTransaction",
    .object [("meterStop", .ofNat 500), ("transactionId", .ofNat 3)]]

/-- The second stop takes back the energy of the first. -/
theorem not_retryUnchanged_withEnergy :
    ¬ ∀ (crates : Crates) (messages : List ForwardedMessage) (raw : String) (now retriedAt : Time),
      RetryUnchanged crates (foldAll crates (messages.map .message)) raw now retriedAt := by
  intro h
  let crates := Crates.ofTable
    [(startedAt100.render, startedAt100), (stoppedAt500.render, stoppedAt500)]
  let start : ForwardedMessage := { now := 0, action := "StartTransaction"
                                    messageType := .call "StartTransaction"
                                    raw := startedAt100.render }
  have hfirst : (((SnapshotFold.message (stopTransaction 0 stoppedAt500.render)).applyTo crates
      (foldAll crates [.message start])).2).lastSessionEnergyWh = some 400 := by
    decide +kernel
  have hsecond : (((SnapshotFold.message (stopTransaction 0 stoppedAt500.render)).applyTo crates
      ((SnapshotFold.message (stopTransaction 0 stoppedAt500.render)).applyTo crates
        (foldAll crates [.message start])).2).2).lastSessionEnergyWh = none := by
    decide +kernel
  have hretry := h crates [start] stoppedAt500.render 0 0
  simp only [RetryUnchanged, List.map_singleton] at hretry
  rw [hretry, hfirst] at hsecond
  cases hsecond

end OcppProxy

import OcppProxy.SessionAccounting

/-!
# The energy of a session as an `i64`

A `StopTransaction` subtracts one reading from another. Both come off the wire as any `i64`; the
difference of two of them need not be one.
-/

namespace OcppProxy

def FitsI64 (n : Int) : Prop := -2 ^ 63 ≤ n ∧ n < 2 ^ 63

instance (n : Int) : Decidable (FitsI64 n) := inferInstanceAs (Decidable (_ ∧ _))

def ForwardedMessage.IsSessionCall (crates : Crates) (m : ForwardedMessage) : Prop :=
  m.action ∈ ["StartTransaction", "StopTransaction"] ∧ m.messageType = .call m.action ∧
    ∃ uniqueId, OcppFrame.parse crates m.now m.raw =
      .ok { raw := m.raw, messageType := m.messageType, uniqueId, receivedAt := m.now }

namespace SnapshotFold

/-- What a fold subtracts from what, where it subtracts at all. -/
def energyOperands (crates : Crates) (st : ChargePointState) (f : SnapshotFold) :
    Option (Int × Int) := do
  let args ← f.callArgs crates "StopTransaction"
  let stop ← argInt "meterStop" args
  let start ← st.meterStartWh
  some (stop, start)

/-- The readings whose difference is a session's energy, off the messages themselves: the stop's,
and that of the latest start since the stop before. -/
def sessionReadings (crates : Crates) (before : List SnapshotFold) (f : SnapshotFold) :
    Option (Int × Int) := do
  let args ← f.callArgs crates "StopTransaction"
  let stop ← argInt "meterStop" args
  let start ← (latestStart crates before).bind (argInt "meterStart")
  some (stop, start)

end SnapshotFold

/-- Every subtraction the folds make stays within an `i64`, and what is stored is the difference. -/
def EnergyExact (crates : Crates) (folds : List SnapshotFold) : Prop :=
  ∀ before f after, folds = before ++ f :: after → ∀ stop start,
    f.energyOperands crates (foldAll crates before) = some (stop, start) →
    FitsI64 (stop - start) ∧
      (foldAll crates (before ++ [f])).lastSessionEnergyWh = some (stop - start)

def ReadingsNear (crates : Crates) (folds : List SnapshotFold) : Prop :=
  ∀ before f after, folds = before ++ f :: after → ∀ stop start,
    f.sessionReadings crates before = some (stop, start) → FitsI64 (stop - start)

section
variable {crates : Crates} {before folds : List SnapshotFold} {f : SnapshotFold}
  {stop start : Int}

/-- What the snapshot subtracts is what the messages say. -/
theorem energyOperands_eq : f.energyOperands crates (foldAll crates before) =
    f.sessionReadings crates before := by
  unfold SnapshotFold.energyOperands SnapshotFold.sessionReadings
  rw [(tracksSession crates before).meterStart]

/-- What is stored is the difference as an `i64`. -/
theorem energy_stored (h : f.energyOperands crates (foldAll crates before) = some (stop, start)) :
    (foldAll crates (before ++ [f])).lastSessionEnergyWh =
      some ((stop - start).bmod (2 ^ 64)) := by
  unfold SnapshotFold.energyOperands at h
  obtain ⟨args, hargs, h⟩ := Option.bind_eq_some_iff.mp h
  obtain ⟨stop', hstop, h⟩ := Option.bind_eq_some_iff.mp h
  obtain ⟨start', hstart, h⟩ := Option.bind_eq_some_iff.mp h
  obtain ⟨rfl, rfl⟩ : stop' = stop ∧ start' = start := by simpa using h
  obtain ⟨updated, hclosed⟩ :=
    @SnapshotFold.applyTo_stop crates f (foldAll crates before) args hargs
  rw [foldAll_concat, hclosed]
  simp only [ChargePointState.closed, hstop, hstart]

/-- The energy of every session is exact if and only if its two readings lie within an `i64` of each
other. -/
theorem energyExact_iff (crates : Crates) (folds : List SnapshotFold) :
    EnergyExact crates folds ↔ ReadingsNear crates folds := by
  constructor
  · intro hexact before f after hfolds stop start hreadings
    have hoperands := energyOperands_eq.trans hreadings
    exact (hexact before f after hfolds stop start hoperands).1
  · intro hnear before f after hfolds stop start hoperands
    have hfits := hnear before f after hfolds stop start (energyOperands_eq.symm.trans hoperands)
    refine ⟨hfits, ?_⟩
    have hwrap : (stop - start).bmod (2 ^ 64) = stop - start := by
      unfold FitsI64 at hfits
      exact Int.bmod_eq_of_le (by omega) (by omega)
    rw [energy_stored hoperands, hwrap]

/-- A difference that does not fit is stored with the other sign. -/
theorem energy_wrapped (h : f.energyOperands crates (foldAll crates before) = some (stop, start))
    (hlow : 2 ^ 63 ≤ stop - start) (hhigh : stop - start < 2 ^ 64) :
    (foldAll crates (before ++ [f])).lastSessionEnergyWh = some (stop - start - 2 ^ 64) := by
  have hwrap : (stop - start).bmod (2 ^ 64) = stop - start - 2 ^ 64 := by
    rw [← Int.sub_bmod_right]
    exact Int.bmod_eq_of_le (by omega) (by omega)
  rw [energy_stored h, hwrap]

/-- `as_i64` gives an `i64`. -/
theorem fitsI64_of_argInt {key : String} {args : List (String × Json)} {n : Int}
    (h : argInt key args = some n) : FitsI64 n := by
  obtain ⟨j, -, hj⟩ := Option.bind_eq_some_iff.mp h
  unfold Json.asI64 at hj
  split at hj
  · rename_i u
    obtain ⟨hu, hn⟩ := Option.ite_none_right_eq_some.mp hj
    obtain rfl : (u.toNat : Int) = n := by simpa using hn
    exact ⟨by omega, by omega⟩
  · rename_i i
    obtain rfl : i.toInt = n := by simpa using hj
    exact ⟨i.le_toInt, i.toInt_lt⟩
  · cases hj

/-- The start a history names is in it. -/
theorem exists_of_latestStart {args : List (String × Json)}
    (h : latestStart crates before = some args) :
    ∃ f ∈ before, f.callArgs crates "StartTransaction" = some args := by
  obtain ⟨f, hf, hargs⟩ := List.exists_of_findSome?_eq_some h
  have hmem := (List.takeWhile_sublist _).subset hf
  exact ⟨f, List.mem_reverse.mp hmem, hargs⟩

/-- Registers that never read below zero are always near enough. -/
theorem energyExact_of_nonneg
    (hstops : ∀ f ∈ folds, ∀ args n, f.callArgs crates "StopTransaction" = some args →
      argInt "meterStop" args = some n → 0 ≤ n)
    (hstarts : ∀ f ∈ folds, ∀ args n, f.callArgs crates "StartTransaction" = some args →
      argInt "meterStart" args = some n → 0 ≤ n) : EnergyExact crates folds := by
  refine (energyExact_iff crates folds).mpr ?_
  intro before f after hfolds stop start hreadings
  unfold SnapshotFold.sessionReadings at hreadings
  obtain ⟨args, hargs, h⟩ := Option.bind_eq_some_iff.mp hreadings
  obtain ⟨stop', hstop, h⟩ := Option.bind_eq_some_iff.mp h
  obtain ⟨start', hstart, h⟩ := Option.bind_eq_some_iff.mp h
  obtain ⟨rfl, rfl⟩ : stop' = stop ∧ start' = start := by simpa using h
  obtain ⟨startArgs, hlatest, hmeter⟩ := Option.bind_eq_some_iff.mp hstart
  obtain ⟨g, hg, hcall⟩ := exists_of_latestStart hlatest
  have hstop0 : 0 ≤ stop' := hstops f (by simp [hfolds]) args stop' hargs hstop
  have hstart0 : 0 ≤ start' := hstarts g (by simp [hfolds, hg]) startArgs start' hcall hmeter
  have hstopFits := fitsI64_of_argInt hstop
  have hstartFits := fitsI64_of_argInt hmeter
  unfold FitsI64 at *
  omega

end

def startedBelowZero : Json :=
  .array [.ofNat 2, .string "1", .string "StartTransaction",
    .object [("idTag", .string "A"), ("meterStart", .ofInt (-1))]]

def stoppedAtMax : Json :=
  .array [.ofNat 2, .string "2", .string "StopTransaction",
    .object [("meterStop", .ofNat (2 ^ 63 - 1)), ("transactionId", .ofNat 3)]]

def sessionCall (action : String) (call : Json) : ForwardedMessage where
  now := 0
  action
  messageType := .call action
  raw := call.render

/-- From -1 Wh to the largest `i64` is one more than an `i64` holds. -/
theorem not_energyExact_belowZero :
    ¬ ∀ (crates : Crates) (messages : List ForwardedMessage),
      (∀ m ∈ messages, m.IsSessionCall crates) →
        EnergyExact crates (messages.map .message) := by
  intro h
  let crates := Crates.ofTable
    [(startedBelowZero.render, startedBelowZero), (stoppedAtMax.render, stoppedAtMax)]
  let start := sessionCall "StartTransaction" startedBelowZero
  let stop := sessionCall "StopTransaction" stoppedAtMax
  have haccepted : ∀ m ∈ [start, stop], m.IsSessionCall crates := by
    intro m hm
    rcases List.mem_pair.mp hm with rfl | rfl
    · exact ⟨by decide, rfl, "1", OcppFrame.parse_eq_ok.mpr ⟨by decide +kernel, rfl, rfl⟩⟩
    · exact ⟨by decide, rfl, "2", OcppFrame.parse_eq_ok.mpr ⟨by decide +kernel, rfl, rfl⟩⟩
  have hexact := h crates [start, stop] haccepted [.message start] (.message stop) [] rfl
    (2 ^ 63 - 1) (-1) (by decide +kernel)
  exact absurd hexact.1 (by decide)

end OcppProxy

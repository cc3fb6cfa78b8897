import OcppProxy.CallContents
import OcppProxy.ResultAccount
import OcppProxy.SnapshotRestart
import OcppProxy.SnapshotText

/-!
# What the publisher saves

A message puts `i64`s into a snapshot, and a result the limit of a Call that the policy allowed. So
whatever map the publisher writes out can be read back.
-/

namespace OcppProxy

open Relation

/-- A limit that the proxy may install, with the half tenth that rounding may add or take. -/
def ChargingConfig.Installs (config : ChargingConfig) (a : ℚ) : Prop :=
  0 ≤ a ∧ (a = 0 ∨ config.minLimitA.value - 1 / 20 ≤ a) ∧ a ≤ config.maxLimitA.value + 1 / 20

def LimitIn (limits : ℚ → Prop) (limit : Option F64) : Prop :=
  ∀ x ∈ limit, ∃ a, x = .finite a ∧ limits a

theorem limitIn_none (limits : ℚ → Prop) : LimitIn limits none := fun _ h => by cases h

theorem installs_of_prepareCall {crates : Crates} {config : ChargingConfig}
    {request : CommandRequest} {uniqueId : String} {now : Time} {prepared : PreparedCall}
    (hconfig : config.validate = [])
    (h : prepareCall crates config request uniqueId now = .ok prepared) :
    LimitIn config.Installs prepared.appliedLimitA := by
  by_cases haction : prepared.action = "SetChargingProfile"
  · obtain ⟨payload, amps, detail, hpayload, rfl⟩ := prepareCall_eq_ok.mp h
    have hwithin := withinPolicy_of_preparePayload hconfig hpayload
    cases hcommand : request.command with
    | setCurrentLimit limitA =>
      rw [hcommand] at hwithin
      obtain ⟨-, -, a, rfl, -, hpolicy⟩ := hwithin
      rintro x ⟨⟩
      exact ⟨a, rfl, hpolicy⟩
    | _ => simp [hcommand, ProxyCommand.action] at haction
  · rw [prepareCall_appliedLimitA h haction]
    exact limitIn_none _

/-! ## Snapshots -/

namespace ChargePointState

section
variable {limits : ℚ → Prop} {crates : Crates} {now : Time} {st folded : ChargePointState}

theorem storable_empty : Storable limits {} := by
  constructor <;> exact fun _ h => by cases h

theorem Storable.fold (h : st.Storable limits) {action : String} {messageType : OcppMessageType}
    {args : List (String × Json)} (hfolded : st.fold action messageType args = some folded) :
    folded.Storable limits := by
  have hint (key : String) : ∀ n ∈ (args.lookup key).bind Json.asI64, IsI64 n := by
    intro n hn
    obtain ⟨value, -, hvalue⟩ := Option.bind_eq_some_iff.mp hn
    exact isI64_of_asI64 value n hvalue
  unfold ChargePointState.fold at hfolded
  split at hfolded
  · cases hfolded
    exact ⟨h.transactionId, h.meterStartWh, h.lastMeterStopWh, h.lastSessionEnergyWh,
      h.lastTransactionId, h.currentLimitA⟩
  · cases hfolded
    exact ⟨h.transactionId, hint _, h.lastMeterStopWh, h.lastSessionEnergyWh, h.lastTransactionId,
      h.currentLimitA⟩
  · cases hfolded
    exact ⟨hint _, h.meterStartWh, h.lastMeterStopWh, h.lastSessionEnergyWh, h.lastTransactionId,
      h.currentLimitA⟩
  · cases hfolded
    refine ⟨fun _ h => (by cases h), fun _ h => (by cases h), hint _, ?_, ?_, h.currentLimitA⟩
    · intro n hn
      dsimp only at hn
      split at hn
      · rename_i stop start _ _
        cases hn
        have hlow := Int.le_bmod (x := stop - start) (m := 2 ^ 64) (by omega)
        have hhigh := Int.bmod_lt (x := stop - start) (m := 2 ^ 64) (by omega)
        exact ⟨by omega, by omega⟩
      · cases hn
    · intro n hn
      rcases Option.or_eq_some_iff.mp hn with hn | ⟨-, hn⟩
      · exact hint _ n hn
      · exact h.transactionId n hn
  · cases hfolded

theorem Storable.untimed (h : st.Storable limits) {lastUpdated currentLimitUpdated : Option String} :
    Storable limits { st with lastUpdated, currentLimitUpdated } :=
  ⟨h.transactionId, h.meterStartWh, h.lastMeterStopWh, h.lastSessionEnergyWh, h.lastTransactionId,
    h.currentLimitA⟩

theorem Storable.apply (h : st.Storable limits) (action : String) (messageType : OcppMessageType)
    (raw : String) : (st.apply crates now action messageType raw).2.Storable limits := by
  unfold ChargePointState.apply
  split
  · exact h
  · rename_i folded hfolded
    obtain ⟨args, -, hargs⟩ := Option.bind_eq_some_iff.mp hfolded
    have hst := h.fold hargs
    split
    · exact hst
    · exact hst.untimed

theorem Storable.applyCommandResult (h : st.Storable limits) {result : CommandResult}
    (hlimit : LimitIn limits result.appliedLimitA) :
    (st.applyCommandResult crates now result).2.Storable limits := by
  have hst : Storable limits { st with
      currentLimitStatus := some result.status.asStr
      currentLimitA :=
        if result.status = .accepted then
          if result.action = some "SetChargingProfile" then result.appliedLimitA else none
        else st.currentLimitA } := by
    refine ⟨h.transactionId, h.meterStartWh, h.lastMeterStopWh, h.lastSessionEnergyWh,
      h.lastTransactionId, ?_⟩
    dsimp only
    split
    · split
      · exact hlimit
      · exact limitIn_none _
    · exact h.currentLimitA
  unfold ChargePointState.applyCommandResult
  cases result.isLimitResult with
  | false => exact h
  | true =>
    simp only [Bool.not_true, Bool.false_eq_true, if_false]
    cases same _ st
    · exact hst.untimed
    · exact hst

end

end ChargePointState

theorem SnapshotMap.Storable.insert {limits : ℚ → Prop} {map : SnapshotMap}
    (h : map.Storable limits) (id : String) {st : ChargePointState} (hst : st.Storable limits) :
    SnapshotMap.Storable limits (map.insert id st) := by
  intro id' st' hlookup
  by_cases hid : id' = id
  · subst hid
    rw [AList.lookup_insert] at hlookup
    cases hlookup
    exact hst
  · rw [AList.lookup_insert_ne hid] at hlookup
    exact h id' st' hlookup

theorem storable_load {limits : ℚ → Prop} (enabled : Bool) {file : SnapshotMap}
    (h : file.Storable limits) :
    SnapshotMap.Storable limits (SnapshotStore.load { enabled, file }) := by
  unfold SnapshotStore.load
  split
  · exact h
  · exact fun _ _ hlookup => by cases hlookup

/-! ## The publisher -/

namespace MqttPublisher

variable {limits : ℚ → Prop} {crates : Crates} {now : Time} {N : String → Prop}
  {p q r : MqttPublisher} {input : PublisherInput}

theorem Storable.snapshotOf (h : p.chargePointState.Storable limits) (id : String) :
    (p.snapshotOf id).Storable limits := by
  unfold MqttPublisher.snapshotOf
  cases hst : p.chargePointState.lookup id with
  | none => exact ChargePointState.storable_empty
  | some st => exact h id st hst

/-- From `p` to `q` what can be stored stays so, unless a result is folded in that cannot. -/
structure Stores (limits : ℚ → Prop) (p q : MqttPublisher) : Prop where
  folded : ∃ own, q.trace PublisherEntry.folded? = p.trace PublisherEntry.folded? ++ own
  storable : (∀ r ∈ q.trace PublisherEntry.folded?, LimitIn limits r.2.appliedLimitA) →
    p.chargePointState.Storable limits → q.chargePointState.Storable limits

theorem Stores.trans (h : Stores limits p q) (h' : Stores limits q r) : Stores limits p r := by
  obtain ⟨own, hown⟩ := h.folded
  obtain ⟨own', hown'⟩ := h'.folded
  refine ⟨⟨own ++ own', by rw [hown', hown, List.append_assoc]⟩, fun hr hp => ?_⟩
  refine h'.storable hr (h.storable (fun e he => hr e ?_) hp)
  rw [hown']
  exact List.mem_append_left _ he

theorem Stores.of_same (hstate : q.chargePointState = p.chargePointState)
    (hfolded : q.trace PublisherEntry.folded? = p.trace PublisherEntry.folded?) :
    Stores limits p q :=
  ⟨⟨[], by rw [hfolded, List.append_nil]⟩, fun _ hp => hstate ▸ hp⟩

theorem Stores.idle (h : Idle p q) : Stores limits p q := .of_same h.chargePointState h.folded

theorem Stores.works (h : Works crates now N p q) : Stores limits p q := by
  induction h with
  | refl => exact .of_same rfl rfl
  | @tail u _ _ hwork ih =>
    refine ih.trans ?_
    cases hwork with
    | enqueue message _ => exact .idle (idle_enqueue message u)
    | @message id _ action messageType raw =>
      exact ⟨⟨[], (List.append_nil _).symm⟩, fun _ hu =>
        hu.insert id ((Storable.snapshotOf hu id).apply action messageType raw)⟩
    | @result id _ result =>
      have hfolded : (({ u with
          chargePointState := u.chargePointState.insert id
            ((u.snapshotOf id).applyCommandResult crates now result).2 } : MqttPublisher).note
              [.folded id result]).trace PublisherEntry.folded? =
          u.trace PublisherEntry.folded? ++ [(id, result)] := by
        rw [trace_append (p := u) PublisherEntry.folded? rfl]
        rfl
      refine ⟨⟨[(id, result)], hfolded⟩, fun hr hu => ?_⟩
      rw [hfolded] at hr
      exact hu.insert id ((Storable.snapshotOf hu id).applyCommandResult (hr (id, result) (by simp)))
    | save => exact .of_same rfl rfl
    | dispatch id request outcome inboxes =>
      refine .of_same rfl ?_
      rw [trace_append (p := u) PublisherEntry.folded? rfl]
      simp [PublisherEntry.folded?]
    | link => exact .of_same rfl rfl

theorem stores_of_stepped (h : Stepped crates now p input q) : Stores limits p q := by
  have hpolled (taken : Nat) : Idle p (p.afterPoll taken) := .of_same rfl rfl rfl rfl rfl rfl
  cases h with
  | enqueue message => exact .idle (idle_enqueue message p)
  | started taken =>
    have hrunning (p : MqttPublisher) : Idle p { p with stage := .running } :=
      .of_same rfl rfl rfl rfl rfl rfl
    exact .idle (((hpolled taken).trans (idle_onConnack crates _)).trans (hrunning _))
  | polled taken event =>
    refine (Stores.idle (hpolled (p.takenOff taken event))).trans ?_
    rcases @onPolled_cases crates now event (p.afterPoll (p.takenOff taken event)) with
      hidle | ⟨_, payload, -, hidle⟩
    · exact .idle hidle
    · exact (Stores.works (works_handleIncomingPublish crates now nameClass_true payload
        fun _ _ => trivial)).trans (.idle hidle)
  | handled event =>
    have hnames : NamesIn (fun _ => True) event := by cases event <;> simp [NamesIn]
    exact .works (works_handleEvent crates now nameClass_true hnames)
  | _ => exact .of_same rfl rfl

theorem AnswersAtOnce.limitIn {result : CommandResult} (h : AnswersAtOnce crates result) :
    LimitIn limits result.appliedLimitA := by
  cases h <;> exact limitIn_none _

theorem published_eq_trace (p : MqttPublisher) :
    p.published = p.trace PublisherEntry.folded? := by
  unfold published commandLog trace
  rw [List.filterMap_filter]
  congr 1
  funext e
  cases e <;> rfl

end MqttPublisher

/-! ## The sessions -/

/-- The limits of the results of a log, and of the Call in flight, are some of `limits`. -/
structure LocalView.Limited (limits : ℚ → Prop) (v : LocalView) : Prop where
  inFlight : ∀ f ∈ v.calls.inFlight, LimitIn limits f.prepared.appliedLimitA
  answers : ∀ a ∈ v.entries.filterMap Entry.answer?, LimitIn limits a.2.appliedLimitA

section
variable {limits : ℚ → Prop} {cx : SessionContext} {v w : LocalView}

theorem IsRefusal.limitIn {crates : Crates} {request : CommandRequest} {result : CommandResult}
    (h : IsRefusal crates request result) : LimitIn limits result.appliedLimitA := by
  obtain ⟨now, status, detail, -, rfl⟩ := h
  exact limitIn_none _

theorem limited_new (inbox : List CommandRequest) (timeout : Duration) (capacity : Nat) :
    LocalView.Limited limits ⟨inbox, .new timeout capacity, []⟩ :=
  ⟨fun f hf => absurd hf (Option.not_mem_none f), fun _ ha => absurd ha List.not_mem_nil⟩

theorem LocalView.Limited.append (hv : v.Limited limits) {new : List Entry}
    (hentries : w.entries = v.entries ++ new)
    (hnew : ∀ a ∈ new.filterMap Entry.answer?, LimitIn limits a.2.appliedLimitA)
    (hflight : ∀ f ∈ w.calls.inFlight, LimitIn limits f.prepared.appliedLimitA) :
    w.Limited limits := by
  refine ⟨hflight, fun a ha => ?_⟩
  rw [hentries, List.filterMap_append] at ha
  exact (List.mem_append.mp ha).elim (hv.answers a) (hnew a)

theorem LocalView.Limited.step
    (hcalls : ∀ request uniqueId now prepared,
      prepareCall cx.crates cx.config.charging request uniqueId now = .ok prepared →
        LimitIn limits prepared.appliedLimitA)
    (hv : v.Limited limits) (h : LocalStep cx v w) : w.Limited limits := by
  cases h with
  | @receive request inbox q es resultOf hresult =>
    refine hv.append rfl (fun a ha => ?_) ?_
    · have hanswer : ∃ r ∈ (q.push request).1, a = (r, resultOf r) := by
        simpa [Entry.answer?, List.filterMap_cons, List.filterMap_map, Function.comp_def,
          eq_comm] using ha
      obtain ⟨r, -, rfl⟩ := hanswer
      exact (hresult r).limitIn
    · obtain ⟨kept, hpush, -⟩ := q.push_spec request
      rw [hpush]
      exact hv.inFlight
  | @drop inbox q es before request after result hq hresult =>
    refine hv.append rfl ?_ hv.inFlight
    simpa [Entry.answer?] using hresult.limitIn
  | renumber sequence => exact ⟨hv.inFlight, hv.answers⟩
  | @send inbox q es request rest uniqueId prepared now hidle hq hp =>
    refine hv.append rfl (by simp [Entry.answer?]) fun f hf => ?_
    cases hf
    exact hcalls _ _ _ _ hp
  | @settle inbox q es f result hf hresult =>
    refine hv.append rfl ?_ fun f hf => by cases hf
    have hlimit : LimitIn limits result.appliedLimitA := by
      rw [hresult.fields.2.1]
      exact hv.inFlight f hf
    simpa [Entry.answer?] using hlimit
  | @late request inbox q es result hresult =>
    refine hv.append rfl ?_ hv.inFlight
    simpa [Entry.answer?, List.filterMap_cons] using hresult.limitIn

theorem LocalView.Limited.steps (cx : SessionContext)
    (hcalls : ∀ request uniqueId now prepared,
      prepareCall cx.crates cx.config.charging request uniqueId now = .ok prepared →
        LimitIn limits prepared.appliedLimitA)
    (hv : v.Limited limits) (h : LocalSteps cx v w) : w.Limited limits := by
  induction h with
  | refl => exact hv
  | tail _ hmove ih => exact ih.step hcalls hmove

end

namespace Process

section
variable {cx : ProxyContext} {limits : ℚ → Prop} {config : ProxyConfig} {file : SnapshotMap}
  {events : List ProcessEvent} {x y : Process} {ev : ProcessEvent}

def Limited (limits : ℚ → Prop) (x : Process) : Prop :=
  ∀ n id s, x.downstream.sessionOf n = some (id, s) → (s.localView []).Limited limits

theorem Limited.step (hcalls : ∀ request uniqueId now prepared,
      prepareCall cx.crates cx.sessionConfig.charging request uniqueId now = .ok prepared →
        LimitIn limits prepared.appliedLimitA)
    (h : x.Limited limits) (hd : x.downstream.Routed) (hmoved : Moved cx x ev y) :
    y.Limited limits := by
  obtain ⟨sent, hmove, -⟩ := downstreamMove_of_moved hmoved
  refine DownstreamState.forall_sessions_of_move (P := fun _ s => (s.localView []).Limited limits)
    hd hmove (fun id now manager => ?_) (fun id s t manager e hs hstep => ?_) h
  · rw [Session.start_localView]
    exact limited_new ..
  · have hlimited : (Session.localView { s with manager } (e.requests ++ [])).Limited limits :=
      ⟨hs.inFlight, hs.answers⟩
    exact hlimited.steps (cx.session id) hcalls (Session.localSteps_of_step hstep [])

/-- What the publisher publishes comes from the sessions, but for its own refusals. -/
theorem Limited.published (h : x.Limited limits) (hchannelled : x.Channelled cx.crates) :
    ∀ r ∈ x.publisher.published, LimitIn limits r.2.appliedLimitA := by
  intro r hr
  obtain ⟨own, hown, hanswers⟩ := hchannelled.published
  obtain ⟨brought, hbrought⟩ := hown.exists_fate hr
  cases brought with
  | false =>
    exact (hanswers r hbrought).limitIn
  | true =>
    obtain ⟨event, hevent, hresult⟩ := List.mem_filterMap.mp hbrought
    have htaken : event ∈ x.downstream.mqttTx.take x.offered := by
      refine hchannelled.events.mem (f := true) ?_
      simp only [if_true, List.mem_append]
      exact .inl (.inl hevent)
    have hresults : r ∈ (x.downstream.mqttTx.filterMap MqttEvent.result? : Multiset _) :=
      List.mem_filterMap.mpr ⟨event, List.mem_of_mem_take htaken, hresult⟩
    rw [← hchannelled.results] at hresults
    unfold DownstreamState.results DownstreamState.total tableTotal at hresults
    obtain ⟨n, -, hn⟩ := Multiset.mem_sum.mp hresults
    cases hs : x.downstream.sessionOf n with
    | none =>
      rw [hs] at hn
      exact absurd hn (Multiset.notMem_zero r)
    | some s =>
      rw [hs] at hn
      obtain ⟨a, ha, rfl⟩ := List.mem_map.mp (Multiset.mem_coe.mp hn)
      rw [← Session.filterMap_local Entry.answer?_of_not_isLocal] at ha
      exact (h n s.1 s.2 hs).answers a ha

theorem stores_of_moved (h : Moved cx x ev y) :
    MqttPublisher.Stores limits x.publisher y.publisher := by
  have hsame : MqttPublisher.Stores limits x.publisher x.publisher := .of_same rfl rfl
  have hstepped {ev : PublisherEvent} {p : MqttPublisher}
      (hp : MqttPublisher.step cx.crates x.seen ev = some p) :
      MqttPublisher.Stores limits x.publisher p :=
    (MqttPublisher.Stores.of_same (p := x.publisher) (q := x.seen) rfl rfl).trans
      (MqttPublisher.stores_of_stepped (MqttPublisher.stepped_of_step hp))
  cases h with
  | publisher _ hp => exact hstepped hp
  | received _ hp => exact hstepped hp
  | mqttUnavailable => exact .of_same rfl rfl
  | mqttAbandoned => exact .of_same rfl rfl
  | mqttStopped => exact .of_same rfl rfl
  | _ => exact hsame

theorem storable_of_run (hcalls : ∀ request uniqueId now prepared,
      prepareCall cx.crates cx.sessionConfig.charging request uniqueId now = .ok prepared →
        LimitIn limits prepared.appliedLimitA)
    (hfile : file.Storable limits) (hrun : (step cx).run (start config file) events = some x) :
    x.publisher.chargePointState.Storable limits := by
  refine ((step cx).invariant (P := fun x => (x.Delivered ∧ x.Channelled cx.crates) ∧
    x.Limited limits ∧ x.publisher.chargePointState.Storable limits) ?_ hrun
    ⟨⟨delivered_start, channelled_start cx.crates⟩, ?_, ?_⟩).2.2
  · rintro x ev y hstep ⟨⟨hdelivered, hchannelled⟩, hlimited, hstored⟩
    -- results come from the channel, and there from sessions, whose limits are prepared ones
    have hmoved := (moved_of_step hstep).2
    have hchannelled' := hchannelled.step hdelivered.routed hstep
    have hlimited' := hlimited.step hcalls hdelivered.routed hmoved
    have hpublished := hlimited'.published hchannelled'
    rw [MqttPublisher.published_eq_trace] at hpublished
    exact ⟨⟨hdelivered.step hstep, hchannelled'⟩, hlimited',
      (stores_of_moved hmoved).storable hpublished hstored⟩
  · simp [Limited, start, DownstreamState.new, DownstreamState.sessionOf]
  · have hmap := (MqttPublisher.build_snapshots (config.publisherSetup file)).1
    show SnapshotMap.Storable limits (MqttPublisher.build _).chargePointState
    rw [hmap]
    exact storable_load _ hfile

end

theorem commandedEvents_remembered :
    ((step commandedContext).run (start commandedConfig ∅) commandedEvents).map (fun x =>
      decide ((x.publisher.snapshotOf "CP01").currentLimitA = some 10)) = some true := by
  decide +kernel

end Process

end OcppProxy

import OcppProxy.SessionAccounting
import OcppProxy.StandingLimit

/-!
# Snapshots across a restart

The file holds what the publisher remembers, up to entries that say nothing, after every step. So a
publisher built from the file folds the same messages and results into the same snapshots, but for
the times in them.
-/

namespace OcppProxy

/-- What is saved is what is read back. -/
def SnapshotStore.Saves (store : SnapshotStore) : Prop := ∀ map, (store.save map).load = map

/-- A map that would be loaded agrees with one in memory, but for snapshots that say nothing. -/
structure SnapshotMap.Backs (loaded memory : SnapshotMap) : Prop where
  kept : ∀ id st, memory.lookup id = some st → st ≠ {} → loaded.lookup id = some st
  onlyKept : ∀ id st, loaded.lookup id = some st → st ≠ {} → memory.lookup id = some st

def ChargePointState.untimed (st : ChargePointState) : ChargePointState :=
  { st with currentLimitUpdated := none, lastUpdated := none }

/-- The charge point an event is folded into the snapshot of, and the fold. -/
def MqttEvent.snapshotFold (now : Time) : MqttEvent → Option (String × SnapshotFold)
  | messageForwarded chargePointId frame _ action =>
    some (chargePointId, .message { now, action, messageType := frame.messageType
                                    raw := frame.raw })
  | commandResult chargePointId result => some (chargePointId, .commandResult now result)
  | stateChange .. => none

/-- Whether an input changes snapshots by folding alone: it is neither a state change nor a message
on a command topic. -/
def PublisherInput.onlyFolds : PublisherInput → Bool
  | .event (some (.stateChange ..)) => false
  | .poll _ (.publish ..) => false
  | _ => true

def PublisherInput.handled : PublisherInput → List MqttEvent
  | .event (some e) => [e]
  | _ => []

/-- What an event does to the snapshots, without times. -/
def foldInto (crates : Crates) (snapshots : String → ChargePointState) (event : MqttEvent) :
    String → ChargePointState :=
  match event.snapshotFold 0 with
  | some (id, fold) => Function.update snapshots id (fold.applyTo crates (snapshots id)).2.untimed
  | none => snapshots

namespace SnapshotStore

variable {store : SnapshotStore}

theorem saves_iff : store.Saves ↔ store.enabled = true := by
  constructor
  · intro h
    by_contra hdisabled
    have hload := congrArg (AList.lookup "") (h (AList.insert "" {} ∅))
    rw [AList.lookup_insert] at hload
    simp [load, SnapshotStore.save, hdisabled] at hload
  · intro henabled map
    simp [save, load, henabled]

theorem Saves.save (h : store.Saves) (map : SnapshotMap) : (store.save map).Saves := by
  rw [saves_iff] at h ⊢
  simp [SnapshotStore.save, h]

end SnapshotStore

namespace ChargePointState

variable {crates : Crates} (st : ChargePointState)

theorem fold_untimed (action : String) (messageType : OcppMessageType)
    (args : List (String × Json)) : st.untimed.fold action messageType args =
      (st.fold action messageType args).map untimed := by
  unfold fold
  split <;> rfl

/-- What is folded does not depend on the times. -/
theorem apply_untimed (now now' : Time) (action : String) (messageType : OcppMessageType)
    (raw : String) : (st.untimed.apply crates now' action messageType raw).2.untimed =
      (st.apply crates now action messageType raw).2.untimed := by
  obtain ⟨_, h⟩ := @apply_snd crates st now action messageType raw
  obtain ⟨_, h'⟩ := @apply_snd crates st.untimed now' action messageType raw
  rw [h, h']
  cases ocppArgs crates raw messageType with
  | none => rfl
  | some args =>
    simp only [Option.bind_some, fold_untimed]
    cases st.fold action messageType args <;> rfl

theorem applyCommandResult_untimed (now now' : Time) (result : CommandResult) :
    (st.untimed.applyCommandResult crates now' result).2.untimed =
      (st.applyCommandResult crates now result).2.untimed := by
  have hlimit := st.applyCommandResult_limit crates now result
  have hlimit' := st.untimed.applyCommandResult_limit crates now' result
  obtain ⟨_, _, _, _, h⟩ := @applyCommandResult_snd crates st now result
  obtain ⟨_, _, _, _, h'⟩ := @applyCommandResult_snd crates st.untimed now' result
  rw [h] at hlimit ⊢
  rw [h'] at hlimit' ⊢
  simp only at hlimit hlimit'
  simp [untimed, hlimit, hlimit']

end ChargePointState

namespace MqttPublisher

structure Persisted (p : MqttPublisher) : Prop where
  saves : p.snapshotStore.Saves
  same : ∀ id, (p.snapshotStore.load.lookup id).getD {} = p.snapshotOf id

def untimedSnapshots (p : MqttPublisher) (chargePointId : String) : ChargePointState :=
  (p.snapshotOf chargePointId).untimed

section
variable {crates : Crates} {now : Time} {input : PublisherInput} {p q : MqttPublisher}
  {setup : PublisherSetup} {chargePointId : String} {events : List PublisherEvent}

/-! ## What leaves the file alone -/

theorem drainIfConnected_snapshotStore (p : MqttPublisher) :
    p.drainIfConnected.snapshotStore = p.snapshotStore := by
  unfold drainIfConnected
  split <;> rfl

theorem enqueue_snapshotStore (message : MqttMessage) (p : MqttPublisher) :
    (p.enqueue message).snapshotStore = p.snapshotStore :=
  drainIfConnected_snapshotStore _

theorem publishOnline_snapshotStore (p : MqttPublisher) :
    p.publishOnline.snapshotStore = p.snapshotStore := by
  unfold publishOnline
  split <;> rfl

theorem flushBuffer_snapshotStore (p : MqttPublisher) :
    p.flushBuffer.snapshotStore = p.snapshotStore := by
  unfold flushBuffer
  split <;> rfl

theorem trySubscribe_snapshotStore (p : MqttPublisher) :
    p.trySubscribe.snapshotStore = p.snapshotStore := by
  unfold trySubscribe
  split
  · rfl
  · split <;> rfl

theorem republishSnapshots_snapshotStore (p : MqttPublisher) :
    (p.republishSnapshots crates).snapshotStore = p.snapshotStore := by
  have hfold (es : List (Sigma fun _ : String => ChargePointState)) (p : MqttPublisher) :
      (es.foldl (fun p e => p.publishChargePointState crates e.1 e.2) p).snapshotStore =
        p.snapshotStore := by
    induction es generalizing p with
    | nil => rfl
    | cons e es ih => exact (ih _).trans (enqueue_snapshotStore _ p)
  exact hfold _ p

theorem onConnack_snapshotStore (p : MqttPublisher) :
    (p.onConnack crates).snapshotStore = p.snapshotStore := by
  unfold onConnack
  dsimp only
  rw [trySubscribe_snapshotStore]
  dsimp only
  rw [republishSnapshots_snapshotStore, flushBuffer_snapshotStore, publishOnline_snapshotStore]
  rfl

/-! ## Handlers -/

theorem Persisted.congr (h : p.Persisted) (hmap : q.chargePointState = p.chargePointState)
    (hstore : q.snapshotStore = p.snapshotStore) : q.Persisted := by
  refine ⟨hstore ▸ h.saves, fun id => ?_⟩
  unfold snapshotOf
  rw [hstore, hmap]
  exact h.same id

theorem Persisted.enqueue (h : p.Persisted) (message : MqttMessage) :
    (p.enqueue message).Persisted :=
  h.congr (idle_enqueue message p).chargePointState (enqueue_snapshotStore message p)

/-- The map is saved when a snapshot changed, and as it was when it did not. -/
theorem Persisted.storeSnapshot (h : p.Persisted) {folded : Bool × ChargePointState}
    (hfolded : folded.1 = false → folded.2 = p.snapshotOf chargePointId) :
    (p.storeSnapshot crates chargePointId folded).Persisted := by
  unfold MqttPublisher.storeSnapshot
  dsimp only
  split
  · refine Persisted.enqueue ⟨h.saves.save _, fun id => ?_⟩ _
    dsimp only
    rw [h.saves]
    rfl
  · rename_i hsame
    refine ⟨h.saves, fun id => ?_⟩
    rw [snapshotOf_insert]
    split
    · rename_i hid
      rw [hfolded (by simpa using hsame), hid]
      exact h.same _
    · exact h.same id

theorem Persisted.publishCommandResult (h : p.Persisted) (result : CommandResult) :
    (p.publishCommandResult crates now chargePointId result).Persisted := by
  unfold MqttPublisher.publishCommandResult
  have hqueued := h.enqueue { topic := commandResultTopic chargePointId
                              payload := crates.toText result.toJson, qos := .atLeastOnce
                              retain := false }
  generalize p.enqueue _ = u at hqueued ⊢
  dsimp only
  have hnoted : (u.note [.folded chargePointId result]).Persisted := hqueued.congr rfl rfl
  refine hnoted.storeSnapshot fun hsame => ?_
  exact (u.snapshotOf chargePointId).applyCommandResult_unchanged crates now hsame

theorem Persisted.dispatchCommand (h : p.Persisted) (request : CommandRequest) :
    (p.dispatchCommand crates now chargePointId request).Persisted := by
  unfold MqttPublisher.dispatchCommand
  split
  · exact h.publishCommandResult _
  · split
    · exact h.congr rfl rfl
    · refine Persisted.publishCommandResult ?_ _
      exact h.congr rfl rfl

theorem Persisted.maybeReapplyLimit (h : p.Persisted) :
    (p.maybeReapplyLimit crates now chargePointId).Persisted := by
  unfold MqttPublisher.maybeReapplyLimit
  split
  · exact h
  · exact h.dispatchCommand _

theorem Persisted.handleIncomingPublish (h : p.Persisted) (topic : String) (payload : ByteArray) :
    (p.handleIncomingPublish crates now topic payload).Persisted := by
  unfold MqttPublisher.handleIncomingPublish
  split
  · exact h
  · split
    · exact h.publishCommandResult _
    · exact h.dispatchCommand _

theorem Persisted.handleEvent (h : p.Persisted) (event : MqttEvent) :
    (p.handleEvent crates now event).Persisted := by
  cases event with
  | messageForwarded id frame direction action =>
    have hqueued := h.enqueue
      { topic := messageTopic id (directionStr direction) action
        payload := crates.toText (messagePayload crates frame), qos := .atLeastOnce
        retain := false }
    dsimp only [MqttPublisher.handleEvent]
    generalize p.enqueue _ = u at hqueued ⊢
    refine hqueued.storeSnapshot fun hsame => ?_
    exact (u.snapshotOf id).apply_unchanged crates now hsame
  | stateChange id upstream downstream =>
    have hqueued := h.enqueue
      { topic := statusTopic id, payload := crates.toText (statusPayload upstream downstream)
        qos := .atLeastOnce, retain := true }
    dsimp only [MqttPublisher.handleEvent]
    generalize p.enqueue _ = u at hqueued ⊢
    have hlinked : MqttPublisher.Persisted { u with
        linkState := u.linkState.insert id (upstream, downstream) } :=
      hqueued.congr rfl rfl
    split
    · exact hlinked.maybeReapplyLimit
    · exact hlinked
  | commandResult id result => exact h.publishCommandResult result

/-! ## Steps -/

/-- Of what a poll returns, only a message from a subscribed topic has to do with the file. -/
theorem onPolled_snapshotStore (event : Polled) (p : MqttPublisher)
    (h : ∀ topic payload, event ≠ .publish topic payload) :
    (p.onPolled crates now event).snapshotStore = p.snapshotStore := by
  cases event with
  | connAck => exact onConnack_snapshotStore p
  | publish topic payload => exact absurd rfl (h topic payload)
  | other =>
    unfold onPolled
    dsimp only
    split
    · exact trySubscribe_snapshotStore p
    · rfl
  | error =>
    unfold onPolled onPollError
    dsimp only
    split <;> rfl

theorem onPolled_chargePointState (event : Polled) (p : MqttPublisher)
    (h : ∀ topic payload, event ≠ .publish topic payload) :
    (p.onPolled crates now event).chargePointState = p.chargePointState := by
  rcases @onPolled_cases crates now event p with hidle | ⟨topic, payload, hevent, -⟩
  · exact hidle.chargePointState
  · exact absurd hevent (h topic payload)

theorem Persisted.onPolled (h : p.Persisted) (event : Polled) :
    (p.onPolled crates now event).Persisted := by
  by_cases hpublish : ∃ topic payload, event = .publish topic payload
  · obtain ⟨topic, payload, rfl⟩ := hpublish
    have hhandled : (p.handleIncomingPublish crates now topic payload).Persisted :=
      h.handleIncomingPublish topic payload
    exact hhandled.congr (idle_drainIfConnected _).chargePointState
      (drainIfConnected_snapshotStore _)
  · have hother : ∀ topic payload, event ≠ .publish topic payload :=
      fun topic payload hevent => hpublish ⟨topic, payload, hevent⟩
    exact h.congr (onPolled_chargePointState event p hother) (onPolled_snapshotStore event p hother)

theorem Persisted.stepped (hp : p.Persisted) (h : Stepped crates now p input q) :
    q.Persisted := by
  cases h with
  | world => exact hp.congr rfl rfl
  | enqueue message => exact hp.enqueue message
  | startup => exact hp.congr rfl rfl
  | startupTimeout => exact hp.congr rfl rfl
  | started taken =>
    exact hp.congr (idle_onConnack crates (p.afterPoll taken)).chargePointState
      (onConnack_snapshotStore (p.afterPoll taken))
  | waited taken => exact hp.congr rfl rfl
  | polled taken event =>
    have hpolled : (p.afterPoll (p.takenOff taken event)).Persisted := hp.congr rfl rfl
    exact hpolled.onPolled event
  | handled event => exact hp.handleEvent event
  | stopped => exact hp.congr rfl rfl

theorem build_snapshots (setup : PublisherSetup) :
    (build setup).chargePointState = setup.snapshotStore.load ∧
      (build setup).snapshotStore = setup.snapshotStore := by
  unfold build
  dsimp only
  split <;> split <;> exact ⟨rfl, rfl⟩

theorem build_persisted (h : setup.snapshotStore.Saves) : (build setup).Persisted := by
  obtain ⟨hmap, hstore⟩ := build_snapshots setup
  refine ⟨hstore ▸ h, fun id => ?_⟩
  unfold snapshotOf
  rw [hmap, hstore]

theorem persisted_of_run (h : setup.snapshotStore.Saves)
    (hrun : (step crates).run (build setup) events = some p) : p.Persisted :=
  (step crates).invariant (fun _ _ _ hstep hp => hp.stepped (stepped_of_step hstep)) hrun
    (build_persisted h)

theorem Persisted.backs (h : p.Persisted) :
    p.snapshotStore.load.Backs p.chargePointState := by
  have hsame (id : String) : (p.snapshotStore.load.lookup id).getD {} =
      (p.chargePointState.lookup id).getD {} :=
    h.same id
  constructor
  · intro id st hlookup hne
    have hid := hsame id
    rw [hlookup, Option.getD_some] at hid
    cases hloaded : p.snapshotStore.load.lookup id with
    | none => exact absurd (by simpa [hloaded] using hid.symm) hne
    | some st' => simpa [hloaded] using hid
  · intro id st hlookup hne
    have hid := hsame id
    rw [hlookup, Option.getD_some] at hid
    cases hmemory : p.chargePointState.lookup id with
    | none => exact absurd (by simpa [hmemory] using hid) hne
    | some st' => simpa [hmemory] using hid.symm

/-! ## Snapshots without times -/

theorem untimedSnapshots_congr (h : q.chargePointState = p.chargePointState) :
    q.untimedSnapshots = p.untimedSnapshots := by
  unfold untimedSnapshots snapshotOf
  rw [h]

theorem untimedSnapshots_storeSnapshot (folded : Bool × ChargePointState) :
    (p.storeSnapshot crates chargePointId folded).untimedSnapshots =
      Function.update p.untimedSnapshots chargePointId folded.2.untimed := by
  have hinsert : (p.storeSnapshot crates chargePointId folded).chargePointState =
      p.chargePointState.insert chargePointId folded.2 := by
    unfold storeSnapshot
    dsimp only
    split
    · exact (idle_enqueue _ _).chargePointState
    · rfl
  funext id
  rw [untimedSnapshots_congr (p := { p with
    chargePointState := p.chargePointState.insert chargePointId folded.2 }) hinsert]
  unfold untimedSnapshots
  rw [snapshotOf_insert, Function.update_apply]
  split <;> rfl

/-- An event that is only folded does to the snapshots what its fold says. -/
theorem untimedSnapshots_handleEvent {event : MqttEvent}
    (h : (PublisherInput.event (some event)).onlyFolds = true) :
    (p.handleEvent crates now event).untimedSnapshots =
      foldInto crates p.untimedSnapshots event := by
  cases event with
  | messageForwarded id frame direction action =>
    dsimp only [handleEvent]
    have hqueued := (idle_enqueue
      { topic := messageTopic id (directionStr direction) action
        payload := crates.toText (messagePayload crates frame), qos := .atLeastOnce
        retain := false } p).chargePointState
    generalize p.enqueue _ = u at hqueued ⊢
    rw [untimedSnapshots_storeSnapshot, untimedSnapshots_congr hqueued]
    have hsame : (u.snapshotOf id).untimed = p.untimedSnapshots id :=
      congrFun (untimedSnapshots_congr hqueued) id
    dsimp only [foldInto, MqttEvent.snapshotFold, SnapshotFold.applyTo]
    rw [← hsame, (u.snapshotOf id).apply_untimed now 0]
  | stateChange id upstream downstream => cases h
  | commandResult id result =>
    dsimp only [handleEvent, publishCommandResult]
    have hqueued := (idle_enqueue
      { topic := commandResultTopic id, payload := crates.toText result.toJson
        qos := .atLeastOnce, retain := false } p).chargePointState
    generalize p.enqueue _ = u at hqueued ⊢
    have hnoted : (u.note [.folded id result]).chargePointState = p.chargePointState := hqueued
    rw [untimedSnapshots_storeSnapshot, untimedSnapshots_congr hnoted]
    have hsame : (u.snapshotOf id).untimed = p.untimedSnapshots id :=
      congrFun (untimedSnapshots_congr hqueued) id
    dsimp only [foldInto, MqttEvent.snapshotFold, SnapshotFold.applyTo]
    rw [← hsame, (u.snapshotOf id).applyCommandResult_untimed now 0]

theorem untimedSnapshots_stepped (h : Stepped crates now p input q)
    (honly : input.onlyFolds = true) :
    q.untimedSnapshots = input.handled.foldl (foldInto crates) p.untimedSnapshots := by
  cases h with
  | world => exact untimedSnapshots_congr rfl
  | enqueue message => exact untimedSnapshots_congr (idle_enqueue message p).chargePointState
  | startup => exact untimedSnapshots_congr rfl
  | startupTimeout => exact untimedSnapshots_congr rfl
  | started taken =>
    exact untimedSnapshots_congr (idle_onConnack crates (p.afterPoll taken)).chargePointState
  | waited taken => exact untimedSnapshots_congr rfl
  | polled taken event =>
    refine untimedSnapshots_congr (onPolled_chargePointState event _ ?_)
    rintro topic payload rfl
    cases honly
  | handled event => exact untimedSnapshots_handleEvent honly
  | stopped => exact untimedSnapshots_congr rfl

/-- A run that only folds does to the snapshots what the events it handles say, whatever else
happens in it and whenever it does. -/
theorem untimedSnapshots_of_run (hrun : (step crates).run p events = some q)
    (honly : ∀ ev ∈ events, ev.input.onlyFolds = true) : q.untimedSnapshots =
      (events.flatMap fun ev => ev.input.handled).foldl (foldInto crates) p.untimedSnapshots := by
  induction events generalizing p with
  | nil =>
    obtain rfl : p = q := by simpa using hrun
    rfl
  | cons ev events ih =>
    obtain ⟨u, hstep, hrest⟩ := ((step crates).run_cons p q ev events).mp hrun
    obtain ⟨hev, hevents⟩ := List.forall_mem_cons.mp honly
    rw [ih hrest hevents, untimedSnapshots_stepped (stepped_of_step hstep) hev,
      List.flatMap_cons, List.foldl_append]

/-! ## The restart -/

/-- A publisher built from the file of another begins with its snapshots. -/
theorem untimedSnapshots_restart (h : p.Persisted)
    (hstore : setup.snapshotStore = p.snapshotStore) :
    (build setup).untimedSnapshots = p.untimedSnapshots := by
  funext id
  have hbuilt : (build setup).Persisted := build_persisted (hstore ▸ h.saves)
  have hrestarted := hbuilt.same id
  rw [(build_snapshots setup).2, hstore, h.same id] at hrestarted
  exact congrArg ChargePointState.untimed hrestarted.symm

/-- A restart loses no snapshot: after every step the file backs what the publisher remembers, and
a publisher built from it folds what follows into the same snapshots. -/
theorem restart_loses_nothing (hsaves : setup.snapshotStore.Saves)
    (hrun : (step crates).run (build setup) events = some p) :
    p.snapshotStore.load.Backs p.chargePointState ∧
      ∀ (restarted : PublisherSetup) (later later' : List PublisherEvent) (q r : MqttPublisher),
        restarted.snapshotStore = p.snapshotStore →
        (step crates).run p later = some q →
        (step crates).run (build restarted) later' = some r →
        (∀ ev ∈ later ++ later', ev.input.onlyFolds = true) →
        (later.flatMap fun ev => ev.input.handled) =
          (later'.flatMap fun ev => ev.input.handled) →
        ∀ id, (r.snapshotOf id).untimed = (q.snapshotOf id).untimed := by
  have hpersisted := persisted_of_run hsaves hrun
  refine ⟨hpersisted.backs, ?_⟩
  intro restarted later later' q r hstore hq hr honly hhandled id
  have hq' := untimedSnapshots_of_run hq fun ev hev => honly ev (List.mem_append_left _ hev)
  have hr' := untimedSnapshots_of_run hr fun ev hev => honly ev (List.mem_append_right _ hev)
  -- the same folds on the same snapshots, but for the times
  rw [untimedSnapshots_restart hpersisted hstore, ← hhandled, ← hq'] at hr'
  exact congrFun hr' id

def filed : PublisherSetup where
  snapshotStore := { enabled := true, file := ∅ }

/-- A limit is accepted before the restart. -/
def beforeRestart : List PublisherEvent :=
  [⟨0, .startup⟩, ⟨1, .poll 0 .connAck⟩, ⟨2, .event (some (limitResult 16 .accepted))⟩]

def refusal (now : Time) : PublisherEvent := ⟨now, .event (some (limitResult 10 .rejected))⟩

theorem restart_loses_nothing_limit : ∃ p q r,
    (step (.ofTable [])).run (build filed) beforeRestart = some p ∧
      (step (.ofTable [])).run p [refusal 3] = some q ∧
      (step (.ofTable [])).run (build { snapshotStore := p.snapshotStore })
        [⟨5, .startup⟩, ⟨6, .poll 0 .connAck⟩, refusal 7] = some r ∧
      (r.snapshotOf "CP01").currentLimitA = some 16 ∧
      (r.snapshotOf "CP01").untimed = (q.snapshotOf "CP01").untimed := by
  have hseen : (((step (.ofTable [])).run (build filed) beforeRestart).bind fun p =>
      ((step (.ofTable [])).run p [refusal 3]).bind fun _ =>
        ((step (.ofTable [])).run (build { snapshotStore := p.snapshotStore })
          [⟨5, .startup⟩, ⟨6, .poll 0 .connAck⟩, refusal 7]).map
            fun r => (r.snapshotOf "CP01").currentLimitA) = some (some 16) := by
    decide +kernel
  obtain ⟨p, hp, hseen⟩ := Option.bind_eq_some_iff.mp hseen
  obtain ⟨q, hq, hseen⟩ := Option.bind_eq_some_iff.mp hseen
  obtain ⟨r, hr, hlimit⟩ := Option.map_eq_some_iff.mp hseen
  have hsaves : filed.snapshotStore.Saves := SnapshotStore.saves_iff.mpr rfl
  have hsame := (restart_loses_nothing hsaves hp).2 { snapshotStore := p.snapshotStore } _ _ q r
    rfl hq hr (by decide) (by rfl) "CP01"
  exact ⟨p, q, r, hp, hq, hr, hlimit, hsame⟩

end

end MqttPublisher

end OcppProxy

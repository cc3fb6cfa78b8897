import OcppProxy.CommandTopics
import OcppProxy.Delivery

/-!
# What the proxy publishes

Every message the publisher makes is of one of five kinds. None of them is on a topic that the proxy
listens to, so nothing it says comes back to it as a command, and it listens to none while commands
are disabled.
-/

namespace OcppProxy

open MqttPublisher

/-- A message the publisher makes; what a later subscriber must still see is retained. -/
inductive OwnMessage (crates : Crates) : MqttMessage → Prop
  | message (id action : String) (direction : Direction) (frame : OcppFrame) : OwnMessage crates
    { topic := messageTopic id (directionStr direction) action
      payload := crates.toText (messagePayload crates frame), qos := .atLeastOnce, retain := false }
  | status (id : String) (upstream downstream : ConnectionState) : OwnMessage crates
    { topic := statusTopic id, payload := crates.toText (statusPayload upstream downstream)
      qos := .atLeastOnce, retain := true }
  | state (id : String) (snapshot : ChargePointState) : OwnMessage crates
    { topic := chargePointStateTopic id, payload := crates.toText snapshot.toJson
      qos := .atLeastOnce, retain := true }
  | availability (id : String) : OwnMessage crates
    { topic := availabilityTopic id, payload := "online", qos := .atLeastOnce, retain := true }
  | result (id : String) (result : CommandResult) : OwnMessage crates
    { topic := commandResultTopic id, payload := crates.toText result.toJson, qos := .atLeastOnce
      retain := false }

theorem OwnMessage.publisherTopic {crates : Crates} {m : MqttMessage} (h : OwnMessage crates m) :
    PublisherTopic m.topic := by
  cases h with
  | message id action direction => exact .message id action direction
  | status id => exact .status id
  | state id => exact .state id
  | availability id => exact .availability id
  | result id => exact .result id

/-- A request to the client; only a proxy with commands subscribes. -/
def OwnRequest (crates : Crates) (enabled : Bool) : ClientRequest → Prop
  | .publish m => OwnMessage crates m
  | .subscribe filters =>
    enabled = true ∧ filters = commandSubscriptions.map fun f => (f, .atLeastOnce)

namespace MqttPublisher

/-- Whatever is in the buffer, in the client or already past it is the publisher's own. -/
structure Speaks (crates : Crates) (p : MqttPublisher) : Prop where
  waiting : ∀ w ∈ p.buffer, OwnMessage crates w.message
  accepted : ∀ w ∈ p.trace PublisherEntry.accepted?, OwnMessage crates w.message
  requests : ∀ r ∈ p.client.requests, OwnRequest crates p.commandRouter.isSome r
  pending : p.subscribePending = true → p.commandRouter.isSome = true

section
variable {crates : Crates} {now : Time} {p q : MqttPublisher} {id : String}

/-- What else changes does not matter. -/
theorem Speaks.same (h : p.Speaks crates) (hbuffer : q.buffer = p.buffer)
    (hlog : ∃ es, q.log = p.log ++ es ∧ ∀ e ∈ es, e.isHandOver = false)
    (hclient : q.client = p.client) (hpending : q.subscribePending = p.subscribePending)
    (hrouter : q.commandRouter.isSome = p.commandRouter.isSome) : q.Speaks crates := by
  obtain ⟨es, hlog, hes⟩ := hlog
  refine ⟨hbuffer ▸ h.waiting, ?_, ?_, ?_⟩
  · rw [trace_append _ hlog, List.filterMap_eq_nil_iff.mpr fun e he => ?_, List.append_nil]
    · exact h.accepted
    · have hother := hes e he
      cases e <;> first | rfl | cases hother
  · rw [hclient, hrouter]
    exact h.requests
  · rw [hpending, hrouter]
    exact h.pending

theorem Speaks.quiet (h : p.Speaks crates) (hbuffer : q.buffer = p.buffer) (hlog : q.log = p.log)
    (hclient : q.client = p.client) (hpending : q.subscribePending = p.subscribePending)
    (hrouter : q.commandRouter.isSome = p.commandRouter.isSome) : q.Speaks crates :=
  h.same hbuffer ⟨[], by rw [hlog, List.append_nil], by simp⟩ hclient hpending hrouter

theorem Speaks.drainBuffer (h : p.Speaks crates) : p.drainBuffer.Speaks crates := by
  obtain ⟨accepted, hbuffer, hclient, hlog, -, -⟩ := p.drainBuffer_spec
  have hown : ∀ w ∈ accepted, OwnMessage crates w.message := fun w hw =>
    h.waiting w (hbuffer ▸ List.mem_append_left _ hw)
  refine ⟨fun w hw => h.waiting w (hbuffer ▸ List.mem_append_right _ hw), ?_, ?_, h.pending⟩
  · rw [trace_append _ hlog]
    intro w hw
    rcases List.mem_append.mp hw with hw | hw
    · exact h.accepted w hw
    · rw [List.filterMap_map] at hw
      obtain ⟨w', hw', hsome⟩ := List.mem_filterMap.mp hw
      cases hsome
      exact hown w hw'
  · rw [hclient]
    intro r hr
    rcases List.mem_append.mp hr with hr | hr
    · exact h.requests r hr
    · obtain ⟨w, hw, rfl⟩ := List.mem_map.mp hr
      exact hown w hw

theorem Speaks.drainIfConnected (h : p.Speaks crates) : p.drainIfConnected.Speaks crates := by
  unfold MqttPublisher.drainIfConnected
  split
  · exact h.drainBuffer
  · exact h

theorem Speaks.enqueue (h : p.Speaks crates) {message : MqttMessage}
    (hm : OwnMessage crates message) : (p.enqueue message).Speaks crates := by
  refine Speaks.drainIfConnected ?_
  obtain ⟨-, ⟨hbuffer, hlog⟩ | ⟨front, rest, hfront, -, hbuffer, hlog⟩⟩ :=
    p.bufferMessage_cases message
  all_goals
    refine ⟨?_, ?_, h.requests, h.pending⟩
    · rw [hbuffer]
      intro w hw
      rcases List.mem_append.mp hw with hw | hw
      · exact h.waiting w (by simp_all)
      · rw [List.mem_singleton.mp hw]
        exact hm
    · rw [trace_append _ hlog]
      simpa [List.filterMap_cons, PublisherEntry.accepted?] using h.accepted

theorem Speaks.publishOnline (h : p.Speaks crates) : p.publishOnline.Speaks crates := by
  cases hlwt : p.lwtChargePointId with
  | none =>
    unfold MqttPublisher.publishOnline
    rw [hlwt]
    exact h
  | some id =>
    rw [publishOnline_of_lwt hlwt]
    refine Speaks.drainBuffer ⟨?_, ?_, h.requests, h.pending⟩
    · exact List.forall_mem_cons.mpr ⟨.availability id, h.waiting⟩
    · have hlog : (p.announced id).log = p.log ++ [.announced (p.announcementOf id) p.buffer] := rfl
      rw [trace_append _ hlog]
      simpa [List.filterMap_cons, PublisherEntry.accepted?] using h.accepted

theorem Speaks.flushBuffer (h : p.Speaks crates) : p.flushBuffer.Speaks crates := by
  unfold MqttPublisher.flushBuffer
  split
  · exact h
  · have hstarted : Speaks crates { p with flushInProgress := some 0 } := h.quiet rfl rfl rfl rfl rfl
    exact hstarted.drainBuffer

theorem Speaks.trySubscribe (h : p.Speaks crates) : p.trySubscribe.Speaks crates := by
  unfold MqttPublisher.trySubscribe
  split
  · exact h
  · rename_i hpending
    split
    · rename_i client hsend
      obtain ⟨-, hrequests⟩ := (trySend_eq_some p.client).mp hsend
      refine ⟨h.waiting, h.accepted, ?_, by simp⟩
      intro r hr
      rcases List.mem_append.mp (hrequests ▸ hr) with hr | hr
      · exact h.requests r hr
      · rw [List.mem_singleton.mp hr]
        exact ⟨h.pending (by simpa using hpending), rfl⟩
    · exact h

theorem Speaks.republishSnapshots (h : p.Speaks crates) :
    (p.republishSnapshots crates).Speaks crates := by
  unfold MqttPublisher.republishSnapshots
  generalize p.chargePointState.entries = entries
  induction entries generalizing p with
  | nil => exact h
  | cons e entries ih => exact ih (h.enqueue (.state e.1 e.2))

theorem Speaks.onConnack (h : p.Speaks crates) : (p.onConnack crates).Speaks crates := by
  have hup : p.connected.Speaks crates := h.quiet rfl rfl rfl rfl rfl
  have hsaid := hup.publishOnline.flushBuffer.republishSnapshots
  exact Speaks.trySubscribe ⟨hsaid.waiting, hsaid.accepted, hsaid.requests, id⟩

theorem Speaks.storeSnapshot (h : p.Speaks crates) (folded : Bool × ChargePointState) :
    (p.storeSnapshot crates id folded).Speaks crates := by
  unfold MqttPublisher.storeSnapshot
  split
  · refine Speaks.enqueue (p := { p with
      chargePointState := p.chargePointState.insert id folded.2
      snapshotStore := p.snapshotStore.save (p.chargePointState.insert id folded.2) }) ?_
      (.state id folded.2)
    exact h.quiet rfl rfl rfl rfl rfl
  · exact h.quiet rfl rfl rfl rfl rfl

theorem Speaks.publishCommandResult (h : p.Speaks crates) (result : CommandResult) :
    (p.publishCommandResult crates now id result).Speaks crates := by
  refine Speaks.storeSnapshot ?_ _
  exact (h.enqueue (.result id result)).same rfl ⟨_, rfl, by simp [PublisherEntry.isHandOver]⟩ rfl rfl
    rfl

theorem Speaks.dispatchCommand (h : p.Speaks crates) (request : CommandRequest) :
    (p.dispatchCommand crates now id request).Speaks crates := by
  unfold MqttPublisher.dispatchCommand
  split
  · exact h.publishCommandResult _
  · split
    · exact h.same rfl ⟨_, rfl, by simp [PublisherEntry.isHandOver]⟩ rfl rfl rfl
    · refine Speaks.publishCommandResult ?_ _
      exact h.same rfl ⟨_, rfl, by simp [PublisherEntry.isHandOver]⟩ rfl rfl rfl

theorem Speaks.handleIncomingPublish (h : p.Speaks crates) (topic : String) (payload : ByteArray) :
    (p.handleIncomingPublish crates now topic payload).Speaks crates := by
  unfold MqttPublisher.handleIncomingPublish
  split
  · exact h
  · split
    · exact h.publishCommandResult _
    · exact h.dispatchCommand _

theorem Speaks.maybeReapplyLimit (h : p.Speaks crates) :
    (p.maybeReapplyLimit crates now id).Speaks crates := by
  unfold MqttPublisher.maybeReapplyLimit
  split
  · exact h
  · exact h.dispatchCommand _

theorem Speaks.handleEvent (h : p.Speaks crates) (event : MqttEvent) :
    (p.handleEvent crates now event).Speaks crates := by
  cases event with
  | messageForwarded id frame direction action =>
    exact (h.enqueue (.message id action direction frame)).storeSnapshot _
  | stateChange id upstream downstream =>
    have hsaid := h.enqueue (.status id upstream downstream)
    unfold MqttPublisher.handleEvent
    dsimp only
    split
    · exact Speaks.maybeReapplyLimit (hsaid.quiet rfl rfl rfl rfl rfl)
    · exact hsaid.quiet rfl rfl rfl rfl rfl
  | commandResult id result => exact h.publishCommandResult result

theorem Speaks.afterPoll (h : p.Speaks crates) (taken : Nat) : (p.afterPoll taken).Speaks crates :=
  ⟨h.waiting, h.accepted, fun r hr => h.requests r (List.mem_of_mem_drop hr), h.pending⟩

theorem Speaks.onPolled (h : p.Speaks crates) (event : Polled) :
    (p.onPolled crates now event).Speaks crates := by
  cases event with
  | connAck => exact h.onConnack
  | publish topic payload => exact (h.handleIncomingPublish topic payload).drainIfConnected
  | other =>
    unfold MqttPublisher.onPolled
    dsimp only
    split
    · exact h.trySubscribe.drainBuffer
    · exact h
  | error =>
    unfold MqttPublisher.onPolled onPollError
    dsimp only
    split <;> exact h.quiet rfl rfl rfl rfl rfl

theorem Speaks.step (h : p.Speaks crates) {ev : PublisherEvent}
    (hinput : ∀ message, ev.input ≠ .enqueue message)
    (hstep : MqttPublisher.step crates p ev = some q) : q.Speaks crates := by
  obtain ⟨now, input⟩ := ev
  have hstepped : Stepped crates now p input q := stepped_of_step hstep
  cases hstepped with
  | world router inboxes manager => exact h.quiet rfl rfl rfl rfl (by simp)
  | enqueue message => exact absurd rfl (hinput message)
  | startup => exact h.quiet rfl rfl rfl rfl rfl
  | startupTimeout => exact h.quiet rfl rfl rfl rfl rfl
  | started taken => exact (h.afterPoll taken).onConnack.quiet rfl rfl rfl rfl rfl
  | waited taken event => exact (h.afterPoll (p.takenOff taken event)).quiet rfl rfl rfl rfl rfl
  | polled taken event => exact (h.afterPoll (p.takenOff taken event)).onPolled event
  | handled event => exact h.handleEvent event
  | stopped => exact h.quiet rfl rfl rfl rfl rfl

theorem speaks_build (setup : PublisherSetup) : (build setup).Speaks crates := by
  obtain ⟨hbuffer, hlog, hclient, hpending⟩ : (build setup).buffer = [] ∧ (build setup).log = [] ∧
      (build setup).client = .new ∧ (build setup).subscribePending = false := by
    unfold build
    dsimp only
    split <;> split <;> exact ⟨rfl, rfl, rfl, rfl⟩
  refine ⟨by simp [hbuffer], by simp [trace, hlog], by simp [hclient, AsyncClient.new], ?_⟩
  rw [hpending]
  rintro ⟨⟩

end

end MqttPublisher

namespace Process

section
variable {cx : ProxyContext} {config : ProxyConfig} {file : SnapshotMap}
  {events : List ProcessEvent} {x y : Process} {ev : ProcessEvent}

/-- A property that the publisher keeps in every step, and in the eyes of the others. -/
theorem forall_publisher_of_moved {P : MqttPublisher → Prop} (hmoved : Moved cx x ev y)
    (hseen : P x.publisher → P x.seen)
    (hstep : ∀ ev p, (∀ message, ev.input ≠ .enqueue message) →
      MqttPublisher.step cx.crates x.seen ev = some p → P x.seen → P p)
    (hstopped : P x.publisher → P { x.publisher with stage := .stopped }) (h : P x.publisher) :
    P y.publisher := by
  cases hmoved with
  | publisher hbroker hp =>
    refine hstep _ _ (fun message hinput => ?_) hp (hseen h)
    rw [hinput] at hbroker
    cases hbroker
  | received hevents hp => exact hstep _ _ (fun _ hinput => by cases hinput) hp (hseen h)
  | mqttUnavailable => exact hstopped h
  | mqttAbandoned => exact hstopped h
  | mqttStopped => exact hstopped h
  | task => exact h
  | accepted => exact h
  | refused => exact h
  | bound => exact h
  | signalled => exact h
  | drainBegun => exact h
  | slept => exact h
  | drained => exact h
  | joined => exact h

theorem speaks_of_run (hrun : (step cx).run (start config file) events = some x) :
    x.publisher.Speaks cx.crates :=
  (step cx).invariant (P := fun x => x.publisher.Speaks cx.crates)
    (fun _ _ _ hs h => forall_publisher_of_moved (moved_of_step hs).2
      (fun h => h.quiet rfl rfl rfl rfl (by simp [seen]))
      (fun _ _ hinput hstep h => h.step hinput hstep) (fun h => h.quiet rfl rfl rfl rfl rfl) h)
    hrun (speaks_build (config.publisherSetup file))

/-- The router is the publisher's only where commands are enabled. -/
theorem isSome_commandRouter_of_run (hrun : (step cx).run (start config file) events = some x) :
    x.publisher.commandRouter.isSome = config.chargingEnabled := by
  refine (step cx).invariant
    (P := fun x => x.publisher.commandRouter.isSome = config.chargingEnabled) ?_ hrun ?_
  · rintro x ev y hs h
    refine forall_publisher_of_moved (P := fun p => p.commandRouter.isSome = config.chargingEnabled)
      (moved_of_step hs).2 (fun h => by simpa [seen] using h) ?_ id h
    intro ev p _ hstep h
    rw [← h]
    obtain ⟨now, input⟩ := ev
    have hstepped : Stepped cx.crates now x.seen input p := stepped_of_step hstep
    by_cases hworld : ∃ router inboxes manager, input = .world router inboxes manager
    · obtain ⟨router, inboxes, manager, rfl⟩ := hworld
      cases hstepped
      simp
    · exact congrArg Option.isSome (MqttPublisher.routes_of_stepped hstepped
        fun router inboxes manager hinput => hworld ⟨_, _, _, hinput⟩).2.commandRouter
  · unfold start
    dsimp only
    unfold build ProxyConfig.publisherSetup
    cases config.chargingEnabled <;> rfl

/-- In every run each message the client accepted, and each that still waits, is one of the
publisher's own: on a topic that no subscription of the proxy covers and that would not be read as a
command. The client is asked for those subscriptions, and only where commands are enabled. -/
theorem own_messages_of_run (hrun : (step cx).run (start config file) events = some x) :
    (∀ w, w ∈ x.publisher.trace PublisherEntry.accepted? ∨ w ∈ x.publisher.buffer →
      OwnMessage cx.crates w.message ∧ parseCommandTopic w.message.topic = none ∧
        ∀ filter ∈ commandSubscriptions, filterMatches filter w.message.topic = false) ∧
    ∀ r ∈ x.publisher.client.requests, OwnRequest cx.crates config.chargingEnabled r := by
  have hspeaks := speaks_of_run hrun
  refine ⟨fun w hw => ?_, isSome_commandRouter_of_run hrun ▸ hspeaks.requests⟩
  have hown : OwnMessage cx.crates w.message := hw.elim (hspeaks.accepted w) (hspeaks.waiting w)
  have hforeign := hown.publisherTopic.foreign
  exact ⟨hown, hforeign.not_parsed, hforeign.not_matches⟩

end

theorem own_messages_of_run_commanded : ∃ x,
    (step commandedContext).run (start commandedConfig ∅) commandedEvents = some x ∧
      (∀ w, w ∈ x.publisher.trace PublisherEntry.accepted? ∨ w ∈ x.publisher.buffer →
        OwnMessage commandedContext.crates w.message ∧ parseCommandTopic w.message.topic = none ∧
          ∀ filter ∈ commandSubscriptions, filterMatches filter w.message.topic = false) ∧
      ∀ r ∈ x.publisher.client.requests, OwnRequest commandedContext.crates true r := by
  obtain ⟨x, hrun, -⟩ := Option.map_eq_some_iff.mp commandedEvents_run
  exact ⟨x, hrun, own_messages_of_run hrun⟩

end Process

end OcppProxy

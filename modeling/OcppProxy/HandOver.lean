import OcppProxy.EnqueuedMessages

/-!
# Handing messages over to MQTT

Whatever the publisher does, its buffer is an outbox; and as long as no topic has a wildcard, what
stays in the buffer of a connected publisher waits for the request channel only.
-/

namespace OcppProxy

open Relation (ReflTransGen)

namespace MqttPublisher

section
variable {crates : Crates} {now : Time} {input : PublisherInput} {p q : MqttPublisher}
  {setup : PublisherSetup}

/-! ## First in, first out -/

theorem publishOnline_fields (p : MqttPublisher) :
    p.publishOnline.stage = p.stage ∧ p.publishOnline.state = p.state := by
  unfold publishOnline
  split <;> exact ⟨rfl, rfl⟩

theorem trySubscribe_fields (p : MqttPublisher) :
    p.trySubscribe.stage = p.stage ∧ p.trySubscribe.state = p.state := by
  unfold trySubscribe
  split
  · exact ⟨rfl, rfl⟩
  · split <;> exact ⟨rfl, rfl⟩

/-- What follows the announcement in a ConnAck. -/
theorem acts_afterOnline (crates : Crates) (p : MqttPublisher) :
    Acts p.connected.publishOnline (p.onConnack crates) := by
  have hflushed : Acts p.connected.publishOnline p.connected.publishOnline.flushBuffer :=
    acts_flushBuffer (publishOnline_fields _).2
  have hsnapshots : Acts p.connected.publishOnline.flushBuffer
      (p.connected.publishOnline.flushBuffer.republishSnapshots crates) :=
    (works_republishSnapshots crates 0 nameClass_true fun _ _ => trivial).acts
  refine (hflushed.trans hsnapshots).trans (.trans ?_ (acts_trySubscribe _))
  exact acts_of_same rfl rfl rfl rfl

theorem acts_onConnack (p : MqttPublisher) : Acts p (p.onConnack crates) := by
  have hup : Acts p p.connected := acts_of_same rfl rfl rfl rfl
  have honline : Acts p.connected p.connected.publishOnline := acts_publishOnline rfl
  exact (hup.trans honline).trans (acts_afterOnline crates p)

theorem acts_onPolled (now : Time) (event : Polled) (p : MqttPublisher) :
    Acts p (p.onPolled crates now event) := by
  cases event with
  | connAck => exact acts_onConnack p
  | publish topic payload =>
    exact (works_handleIncomingPublish crates now nameClass_true payload fun _ _ => trivial).acts.trans
      (acts_drainIfConnected _)
  | other =>
    unfold onPolled
    dsimp only
    split
    · rename_i hstate
      exact (acts_trySubscribe p).tail (.drain _ ((trySubscribe_fields p).2.trans hstate))
    · exact .refl
  | error =>
    unfold onPolled onPollError
    dsimp only
    split
    · exact acts_of_same rfl rfl rfl rfl
    · exact acts_of_same rfl rfl rfl rfl

theorem acts_of_stepped (h : Stepped crates now p input q) : Acts p q := by
  have hpolled (taken : Nat) : Acts p (p.afterPoll taken) := acts_of_same rfl rfl rfl rfl
  cases h with
  | world => exact acts_of_same rfl rfl rfl rfl
  | enqueue message => exact acts_enqueue message p
  | startup => exact acts_of_same rfl rfl rfl rfl
  | startupTimeout => exact acts_of_same rfl rfl rfl rfl
  | started taken =>
    have hrunning (p : MqttPublisher) : Acts p { p with stage := .running } :=
      acts_of_same rfl rfl rfl rfl
    exact ((hpolled taken).trans (acts_onConnack _)).trans (hrunning _)
  | waited taken => exact acts_of_same rfl rfl rfl rfl
  | polled taken event => exact (hpolled _).trans (acts_onPolled now event _)
  | handled event =>
    have hnames : NamesIn (fun _ => True) event := by cases event <;> simp [NamesIn]
    exact (works_handleEvent crates now nameClass_true hnames).acts
  | stopped => exact acts_of_same rfl rfl rfl rfl

/-- A publisher that has just been built. -/
theorem build_fields (setup : PublisherSetup) : (build setup).buffer = [] ∧
    (build setup).log = [] ∧ (build setup).maxBufferSize = setup.maxBufferSize ∧
    (build setup).stage = .built ∧ (build setup).state = .disconnected ∧
    (build setup).lwtChargePointId = setup.lwtChargePointId ∧
    (build setup).chargePointState = setup.snapshotStore.load ∧ (build setup).linkState = ∅ := by
  unfold build
  split <;> split <;> exact ⟨rfl, rfl, rfl, rfl, rfl, rfl, rfl, rfl⟩

/-- A run of the publisher is a chain of acts. -/
theorem acts_of_run {events : List PublisherEvent}
    (hrun : (step crates).run p events = some q) : Acts p q :=
  (step crates).refines id (fun _ _ _ hs => acts_of_stepped (stepped_of_step hs)) hrun

/-- The outbox of a publisher that a run has reached. -/
theorem sound_of_run {events : List PublisherEvent}
    (hrun : (step crates).run (build setup) events = some p) :
    p.Numbered ∧ p.outbox.Sound Waiting.isEntry := by
  obtain ⟨hbuffer, hlog, -⟩ := build_fields setup
  have hstart : (build setup).outbox = ⟨[], [], [], [], []⟩ := by
    simp [outbox, trace, hbuffer, hlog]
  have hnumbered : (build setup).Numbered := by
    intro w hw
    rw [hstart] at hw
    cases hw
  obtain ⟨hnumbered', hmoves⟩ := (acts_of_run hrun).handOver.moves hnumbered
  exact ⟨hnumbered', Outbox.Sound.moves (hstart ▸ Outbox.sound_empty) hmoves⟩

theorem build_client (setup : PublisherSetup) : (build setup).client.requests = [] := by
  unfold build
  split <;> split <;> rfl

/-- What the log calls entered is what the steps of the run enqueue, what it calls announced is what
its ConnAcks announce, and what it calls accepted is what the client was given. The messages are
handed over in the order in which they were enqueued, each at most once and only while connected.
One that is not is still waiting, or was evicted from the front of a full buffer. An announcement is
handed over before what waited when it was made. -/
theorem messages_fifo {events : List PublisherEvent}
    (hrun : (step crates).run (build setup) events = some p) :
    (p.trace PublisherEntry.entered?).map Waiting.message =
        (step crates).outputs (enqueued crates) (build setup) events ∧
      (p.trace PublisherEntry.announced?).map (fun a => (a.1.message, a.2)) =
        (step crates).outputs announcements (build setup) events ∧
      (p.trace PublisherEntry.accepted?).map Waiting.message =
        ((step crates).outputs polledRequests (build setup) events ++
          p.client.requests).filterMap ClientRequest.message? ∧
      (p.trace PublisherEntry.entered? ++
        (p.trace PublisherEntry.announced?).map Prod.fst).Nodup ∧
      ((p.trace PublisherEntry.accepted?).filter Waiting.isEntry ++
        p.buffer.filter Waiting.isEntry).Sublist (p.trace PublisherEntry.entered?) ∧
      (p.trace PublisherEntry.entered?).Perm
        ((p.trace PublisherEntry.accepted? ++ p.trace PublisherEntry.evicted? ++ p.buffer).filter
          Waiting.isEntry) ∧
      (∀ e ∈ p.log, e.Sound setup.maxBufferSize) ∧
      ∀ a ∈ p.trace PublisherEntry.announced?, ∀ w ∈ a.2,
        ¬ [w, a.1].Sublist (p.trace PublisherEntry.accepted?) := by
  obtain ⟨-, hlog, hmax, -⟩ := build_fields setup
  obtain ⟨hentered, hannounced, haccepted⟩ := recorded_of_run hrun hlog (build_client setup)
  -- the log of the run is what the outbox did
  obtain ⟨es, hes, hsound⟩ := (acts_of_run hrun).handOver.entries
  obtain ⟨-, houtbox⟩ := sound_of_run hrun
  refine ⟨hentered, hannounced, haccepted, houtbox.nodup, ?_, houtbox.entered_perm, ?_,
    fun a ha w hw h => ?_⟩
  · rw [← List.filter_append]
    exact houtbox.fifo
  · rw [hes, hlog, List.nil_append, ← hmax]
    exact hsound
  · exact houtbox.first a ha w hw (h.trans (List.sublist_append_left _ _))

/-- A message enqueued, an outage, and another connection. -/
def outage : List PublisherEvent :=
  let message (text : String) : MqttMessage :=
    { topic := "test/topic", payload := text, qos := .atLeastOnce, retain := false }
  [⟨0, .startup⟩, ⟨1, .poll 0 .connAck⟩, ⟨2, .enqueue (message "a")⟩, ⟨3, .poll 1 .error⟩,
    ⟨4, .enqueue (message "b")⟩, ⟨5, .enqueue (message "c")⟩, ⟨6, .poll 0 .connAck⟩]

theorem messages_fifo_outage :
    ∃ p, (step (.ofTable [])).run
        (build { lwtChargePointId := some "CP01", maxBufferSize := 1 }) outage = some p ∧
      (p.trace PublisherEntry.entered?).map (fun w => w.message.payload) = ["a", "b", "c"] ∧
      ((p.trace PublisherEntry.accepted?).filter Waiting.isEntry ++
        p.buffer.filter Waiting.isEntry).Sublist (p.trace PublisherEntry.entered?) := by
  obtain ⟨p, hrun⟩ := Option.isSome_iff_exists.mp (show ((step (.ofTable [])).run
    (build { lwtChargePointId := some "CP01", maxBufferSize := 1 }) outage).isSome = true by
      decide +kernel)
  have hfifo := messages_fifo hrun
  have hpayloads := congrArg (List.map MqttMessage.payload) hfifo.1
  rw [List.map_map] at hpayloads
  refine ⟨p, hrun, hpayloads.trans ?_, hfifo.2.2.2.2.1⟩
  decide +kernel

/-! ## What stays in the buffer -/

/-- How much of a buffer the channel takes: a drain empties the buffer or fills the channel if and
only if no message that the channel has room for is on a topic with a wildcard. -/
theorem drainBuffer_complete_iff (p : MqttPublisher) :
    (p.drainBuffer.buffer = [] ∨ p.drainBuffer.client.isFull = true) ↔
      ∀ w ∈ p.buffer.take p.client.room, hasWildcard w.message.topic = false := by
  obtain ⟨accepted, hbuffer, hclient, -, hclean, hstop⟩ := p.drainBuffer_spec
  have hlength : p.client.requests.length + accepted.length ≤ requestChannelCapacity := by
    simpa [hclient] using p.drainBuffer.client.length_le
  have hfull : p.drainBuffer.client.isFull = true ↔ p.client.room ≤ accepted.length := by
    simp only [AsyncClient.isFull, hclient, AsyncClient.room, List.length_append, List.length_map,
      decide_eq_true_eq]
    omega
  constructor
  · rintro h w hw
    refine hclean w ?_
    rcases h with hempty | h
    · rw [hbuffer, hempty, List.append_nil] at hw
      exact List.mem_of_mem_take hw
    · rw [hbuffer, List.take_append_of_le_length (hfull.mp h)] at hw
      exact List.mem_of_mem_take hw
  · intro h
    rcases hstop with hempty | hstop | ⟨w, hw, hwild⟩
    · exact .inl hempty
    · exact .inr hstop
    · -- the message that stopped the drain is not among those there was room for
      refine .inr (hfull.mpr (not_lt.mp fun hroom => ?_))
      obtain ⟨rest, hrest⟩ : ∃ rest, p.drainBuffer.buffer = w :: rest :=
        List.head?_eq_some_iff.mp hw
      have hmem : w ∈ p.buffer.take p.client.room := by
        rw [hbuffer, hrest, List.take_append, List.mem_append]
        refine .inr ?_
        rw [List.take_cons (by omega)]
        exact List.mem_cons_self
      rw [h w hmem] at hwild
      cases hwild

def Settled (p : MqttPublisher) : Prop :=
  p.state = .connected → p.buffer = [] ∨ p.client.isFull = true

/-- No wildcard in a topic of the buffer or in a name that topics are made of. -/
structure WildcardFree (p : MqttPublisher) : Prop where
  buffer : ∀ w ∈ p.buffer, hasWildcard w.message.topic = false
  chargePoints : ∀ id ∈ p.chargePointState, hasWildcard id = false
  lwt : ∀ id ∈ p.lwtChargePointId, hasWildcard id = false

theorem hasWildcard_append (a b : String) :
    hasWildcard (a ++ b) = (hasWildcard a || hasWildcard b) := by
  simp [hasWildcard]

theorem nameClass_wildcardFree : NameClass fun name => hasWildcard name = false where
  status id h := by
    simp only [statusTopic, toString, hasWildcard_append, h]
    decide
  result id h := by
    simp only [commandResultTopic, toString, hasWildcard_append, h]
    decide
  state id h := by
    simp only [chargePointStateTopic, toString, hasWildcard_append, h]
    decide
  message id direction action h h' := by
    simp only [messageTopic, toString, hasWildcard_append, h, h']
    cases direction <;> decide
  availability id h := by
    simp only [availabilityTopic, toString, hasWildcard_append, h]
    decide

/-- A drain leaves less of the same. -/
theorem WildcardFree.drainBuffer (h : p.WildcardFree) : p.drainBuffer.WildcardFree := by
  obtain ⟨accepted, hbuffer, -⟩ := p.drainBuffer_spec
  exact ⟨fun w hw => h.buffer w (hbuffer ▸ List.mem_append_right _ hw), h.chargePoints, h.lwt⟩

theorem WildcardFree.drained (h : p.WildcardFree) :
    p.drainBuffer.buffer = [] ∨ p.drainBuffer.client.isFull = true :=
  p.drainBuffer_complete_iff.mpr fun w hw => h.buffer w (List.mem_of_mem_take hw)

theorem WildcardFree.bufferMessage (h : p.WildcardFree) {message : MqttMessage}
    (hm : hasWildcard message.topic = false) : (p.bufferMessage message).WildcardFree := by
  refine ⟨fun w hw => ?_, h.chargePoints, h.lwt⟩
  obtain ⟨-, ⟨hbuffer, -⟩ | ⟨front, rest, hfront, -, hbuffer, -⟩⟩ := p.bufferMessage_cases message
  · rw [hbuffer, List.mem_append, List.mem_singleton] at hw
    rcases hw with hw | rfl
    · exact h.buffer w hw
    · exact hm
  · rw [hbuffer, List.mem_append, List.mem_singleton] at hw
    rcases hw with hw | rfl
    · exact h.buffer w (hfront ▸ List.mem_cons_of_mem _ hw)
    · exact hm

/-- The invariant of a run without wildcards: it stays free of them, and settled. -/
def Flowing (p : MqttPublisher) : Prop := p.WildcardFree ∧ p.Settled

theorem WildcardFree.drainIfConnected (h : p.WildcardFree) : p.drainIfConnected.Flowing := by
  unfold MqttPublisher.drainIfConnected
  split
  · exact ⟨h.drainBuffer, fun _ => h.drained⟩
  · exact ⟨h, fun hstate => absurd hstate ‹_›⟩

theorem WildcardFree.note (h : p.WildcardFree) (es : List PublisherEntry) :
    (p.note es).WildcardFree := ⟨h.buffer, h.chargePoints, h.lwt⟩

/-- A charge point without a wildcard comes in. -/
theorem WildcardFree.insert (h : p.WildcardFree) {id : String} (hid : hasWildcard id = false)
    (snapshot : ChargePointState) :
    WildcardFree { p with chargePointState := p.chargePointState.insert id snapshot } := by
  refine ⟨h.buffer, fun id' hid' => ?_, h.lwt⟩
  rcases (AList.mem_insert _).mp hid' with rfl | hid'
  · exact hid
  · exact h.chargePoints id' hid'

theorem Works.wildcardFree (h : Works crates now (fun name => hasWildcard name = false) p q)
    (hp : p.WildcardFree) : q.WildcardFree := by
  induction h with
  | refl => exact hp
  | tail _ hwork ih =>
    cases hwork with
    | enqueue message hm => exact (ih.bufferMessage hm).drainIfConnected.1
    | message hid => exact ih.insert hid _
    | result hid result => exact WildcardFree.note (ih.insert hid _) _
    | dispatch => exact ⟨ih.buffer, ih.chargePoints, ih.lwt⟩
    | save => exact ⟨ih.buffer, ih.chargePoints, ih.lwt⟩
    | link => exact ⟨ih.buffer, ih.chargePoints, ih.lwt⟩

theorem Works.flowing (h : Works crates now (fun name => hasWildcard name = false) p q)
    (hp : p.Flowing) :
    q.Flowing := by
  refine ⟨h.wildcardFree hp.1, ?_⟩
  induction h with
  | refl => exact hp.2
  | tail hworks hwork ih =>
    cases hwork with
    | enqueue message hm =>
      exact ((Works.wildcardFree hworks hp.1).bufferMessage hm).drainIfConnected.2
    | _ => exact ih

theorem WildcardFree.publishOnline (h : p.WildcardFree) : p.publishOnline.WildcardFree := by
  unfold MqttPublisher.publishOnline
  split
  · exact h
  · rename_i id hid
    refine WildcardFree.drainBuffer ⟨fun w hw => ?_, h.chargePoints, h.lwt⟩
    rcases List.mem_cons.mp hw with rfl | hw
    · exact nameClass_wildcardFree.availability id (h.lwt id hid)
    · exact h.buffer w hw

theorem WildcardFree.flushBuffer (h : p.WildcardFree) : p.flushBuffer.Flowing := by
  unfold MqttPublisher.flushBuffer
  split
  · rename_i hempty
    exact ⟨h, fun _ => .inl (List.isEmpty_iff.mp hempty)⟩
  · have hstarted : WildcardFree { p with flushInProgress := some 0 } :=
      ⟨h.buffer, h.chargePoints, h.lwt⟩
    exact ⟨hstarted.drainBuffer, fun _ => hstarted.drained⟩

theorem WildcardFree.trySubscribe (h : p.WildcardFree) : p.trySubscribe.WildcardFree := by
  unfold MqttPublisher.trySubscribe
  split
  · exact h
  · split
    · exact ⟨h.buffer, h.chargePoints, h.lwt⟩
    · exact h

/-- A full channel takes no subscription, and an empty buffer does not need the channel. -/
theorem Flowing.trySubscribe (h : p.Flowing) : p.trySubscribe.Flowing := by
  refine ⟨h.1.trySubscribe, ?_⟩
  unfold MqttPublisher.trySubscribe
  split
  · exact h.2
  · split
    · rename_i client hsend
      intro hstate
      rcases h.2 hstate with hempty | hfull
      · exact .inl hempty
      · have hroom := ((trySend_eq_some _).mp hsend).1
        simp only [AsyncClient.isFull, decide_eq_true_eq] at hfull
        omega
    · exact h.2

theorem WildcardFree.onConnack (crates : Crates) (h : p.WildcardFree) :
    (p.onConnack crates).Flowing := by
  have hup : p.connected.WildcardFree := ⟨h.buffer, h.chargePoints, h.lwt⟩
  have hflushed := hup.publishOnline.flushBuffer
  have hrepublished := (works_republishSnapshots crates 0 nameClass_wildcardFree
    hflushed.1.chargePoints).flowing hflushed
  refine Flowing.trySubscribe ?_
  exact ⟨⟨hrepublished.1.buffer, hrepublished.1.chargePoints, hrepublished.1.lwt⟩,
    hrepublished.2⟩

theorem enqueue_fields (message : MqttMessage) (p : MqttPublisher) :
    (p.enqueue message).stage = p.stage ∧ (p.enqueue message).state = p.state := by
  unfold enqueue MqttPublisher.drainIfConnected
  split <;> exact ⟨rfl, rfl⟩

theorem Works.fields {N : String → Prop} (h : Works crates now N p q) :
    q.stage = p.stage ∧ q.state = p.state := by
  induction h with
  | refl => exact ⟨rfl, rfl⟩
  | tail _ hwork ih =>
    cases hwork with
    | enqueue message _ =>
      exact ⟨(enqueue_fields message _).1.trans ih.1, (enqueue_fields message _).2.trans ih.2⟩
    | _ => exact ih

theorem onConnack_stage (p : MqttPublisher) : (p.onConnack crates).stage = p.stage := by
  refine (trySubscribe_fields _).1.trans ?_
  refine (works_republishSnapshots crates 0 nameClass_true
    fun _ _ => trivial).fields.1.trans ?_
  have hflush (p : MqttPublisher) : p.flushBuffer.stage = p.stage := by
    unfold MqttPublisher.flushBuffer
    split <;> rfl
  exact (hflush _).trans (publishOnline_fields p.connected).1

/-- A ConnAck is read at startup or while running. -/
theorem step_connAck {taken : Nat} (h : step crates p ⟨now, .poll taken .connAck⟩ = some q) :
    q = { (p.afterPoll taken).onConnack crates with stage := .running } := by
  cases hstage : p.stage with
  | starting =>
    simp only [step, hstage, Option.some.injEq] at h
    exact h.symm
  | running =>
    simp only [step, hstage, Option.some.injEq] at h
    have hrunning : ((p.afterPoll taken).onConnack crates).stage = .running :=
      (onConnack_stage _).trans hstage
    rw [← h, ← hrunning]
    rfl
  | built => simp [step, hstage] at h
  | stopped => simp [step, hstage] at h

theorem drainIfConnected_stage (p : MqttPublisher) : p.drainIfConnected.stage = p.stage := by
  unfold MqttPublisher.drainIfConnected
  split <;> rfl

theorem onPolled_stage (now : Time) (event : Polled) (p : MqttPublisher) :
    (p.onPolled crates now event).stage = p.stage := by
  cases event with
  | connAck => exact onConnack_stage p
  | publish topic payload =>
    exact (drainIfConnected_stage _).trans
      (works_handleIncomingPublish crates now nameClass_true payload fun _ _ => trivial).fields.1
  | other =>
    unfold onPolled
    dsimp only
    split
    · exact (trySubscribe_fields p).1
    · rfl
  | error =>
    unfold onPolled onPollError
    dsimp only
    split <;> rfl

def BringsNoWildcard (input : PublisherInput) : Prop :=
  match input with
  | .poll _ (.publish topic _) =>
    ∀ command ∈ parseCommandTopic topic, hasWildcard command.1 = false
  | .event (some event) => NamesIn (fun name => hasWildcard name = false) event
  | .enqueue message => hasWildcard message.topic = false
  | _ => True

def Waits (p : MqttPublisher) : Prop := p.stage = .starting → p.state = .connecting

theorem waits_of_stepped (h : Stepped crates now p input q) (hp : p.Waits) : q.Waits := by
  have hleft {q : MqttPublisher} (hstage : q.stage ≠ .starting) : q.Waits :=
    fun hs => absurd hs hstage
  cases h with
  | world => exact hp
  | enqueue message =>
    intro hs
    rw [(enqueue_fields message p).1] at hs
    exact (enqueue_fields message p).2.trans (hp hs)
  | startup => exact fun _ => rfl
  | startupTimeout => exact hleft (by simp)
  | started taken => exact hleft (by simp)
  | waited => exact hp
  | polled taken event hstage =>
    refine hleft ?_
    rw [onPolled_stage]
    show p.stage ≠ .starting
    rw [hstage]
    decide
  | handled event hstage =>
    have hnames : NamesIn (fun _ => True) event := by cases event <;> simp [NamesIn]
    refine hleft ?_
    rw [(works_handleEvent crates now nameClass_true hnames).fields.1, hstage]
    decide
  | stopped => exact hleft (by simp)

theorem WildcardFree.onPolled (h : p.WildcardFree) {event : Polled}
    (hinput : ∀ topic payload, event = .publish topic payload →
      ∀ command ∈ parseCommandTopic topic, hasWildcard command.1 = false) :
    (p.onPolled crates now event).Flowing := by
  cases event with
  | connAck => exact h.onConnack crates
  | publish topic payload =>
    exact ((works_handleIncomingPublish crates now nameClass_wildcardFree payload
      (hinput topic payload rfl)).wildcardFree h).drainIfConnected
  | other =>
    unfold MqttPublisher.onPolled
    dsimp only
    split
    · exact ⟨h.trySubscribe.drainBuffer, fun _ => h.trySubscribe.drained⟩
    · exact ⟨h, fun hs => absurd hs ‹_›⟩
  | error =>
    have hdown : p.onPollError.state ≠ .connected := by
      unfold onPollError
      dsimp only
      split
      · simp [setState]
      · assumption
    refine ⟨?_, fun hs => absurd hs hdown⟩
    unfold MqttPublisher.onPolled onPollError
    dsimp only
    split <;> exact ⟨h.buffer, h.chargePoints, h.lwt⟩

theorem flowing_of_stepped (h : Stepped crates now p input q) (hinput : BringsNoWildcard input)
    (hwaits : p.Waits) (hp : p.Flowing) : q.Flowing := by
  have hfields {q : MqttPublisher} (hbuffer : q.buffer = p.buffer)
      (hkeys : q.chargePointState = p.chargePointState)
      (hlwt : q.lwtChargePointId = p.lwtChargePointId) : q.WildcardFree :=
    ⟨hbuffer ▸ hp.1.buffer, hkeys ▸ hp.1.chargePoints, hlwt ▸ hp.1.lwt⟩
  cases h with
  | world => exact ⟨hfields rfl rfl rfl, hp.2⟩
  | enqueue message => exact (hp.1.bufferMessage hinput).drainIfConnected
  | startup => exact ⟨hfields rfl rfl rfl, fun hs => by cases hs⟩
  | startupTimeout => exact ⟨hfields rfl rfl rfl, fun hs => by cases hs⟩
  | started taken =>
    have hup := (hfields (q := p.afterPoll taken) rfl rfl rfl).onConnack crates
    exact ⟨⟨hup.1.buffer, hup.1.chargePoints, hup.1.lwt⟩, hup.2⟩
  | waited taken event backoff hstage =>
    refine ⟨hfields rfl rfl rfl, fun hs => ?_⟩
    have hstate : p.state = .connected := hs
    rw [hwaits hstage] at hstate
    cases hstate
  | polled taken event hstage =>
    have hafter : (p.afterPoll (p.takenOff taken event)).WildcardFree := hfields rfl rfl rfl
    refine hafter.onPolled ?_
    rintro topic payload rfl
    exact hinput
  | handled event hstage =>
    exact (works_handleEvent crates now nameClass_wildcardFree hinput).flowing hp
  | stopped => exact ⟨hfields rfl rfl rfl, hp.2⟩

/-- A poll that took a request off the channel and returned nothing to handle. -/
def IsTick (ev : PublisherEvent) : Prop := ∃ taken, ev.input = .poll (taken + 1) .other

/-- How many slots of the channel the publisher still waits for. -/
def owed (p : MqttPublisher) : Nat := p.buffer.length + if p.subscribePending then 1 else 0

/-- Where the channel has room, subscribing is no longer owed afterwards, or the room is left. -/
theorem trySubscribe_cases (p : MqttPublisher) (hroom : p.client.isFull = false) :
    p.trySubscribe.buffer = p.buffer ∧ p.trySubscribe.log = p.log ∧
      p.trySubscribe.subscribePending = false ∧
      (p.subscribePending = true ∨ p.trySubscribe = p) := by
  unfold trySubscribe
  cases hpending : p.subscribePending with
  | false => simp [hpending]
  | true =>
    have hlt : p.client.requests.length < requestChannelCapacity := by
      simpa [AsyncClient.isFull] using hroom
    simp [AsyncClient.trySubscribeMany, AsyncClient.trySend, hlt]

theorem tick (crates : Crates) (hstage : p.stage = .running) (hstate : p.state = .connected)
    (hp : p.WildcardFree) {ev : PublisherEvent} (hev : IsTick ev) : ∃ q, step crates p ev = some q ∧
      q.stage = .running ∧ q.state = .connected ∧ q.WildcardFree ∧
      (∃ accepted, p.buffer = accepted ++ q.buffer ∧
        q.log = p.log ++ accepted.map fun w => .accepted w .connected) ∧
      (q.buffer = [] ∨ q.owed < p.owed) := by
  obtain ⟨now, input⟩ := ev
  obtain ⟨taken, hinput⟩ := hev
  obtain rfl : input = .poll (taken + 1) .other := hinput
  obtain ⟨u, hu⟩ : ∃ u, u = p.afterPoll (taken + 1) := ⟨_, rfl⟩
  have hroom : u.client.isFull = false := by
    have hle := p.client.length_le
    simp only [hu, afterPoll, AsyncClient.polled, AsyncClient.isFull, List.length_drop,
      decide_eq_false_iff_not, requestChannelCapacity] at hle ⊢
    omega
  have hfree : u.WildcardFree := hu ▸ ⟨hp.buffer, hp.chargePoints, hp.lwt⟩
  have hpoll : step crates p ⟨now, .poll (taken + 1) .other⟩ = some u.trySubscribe.drainBuffer := by
    simp [step, hstage, onPolled, takenOff, ← hu, show u.state = .connected from hu ▸ hstate]
  obtain ⟨hbuffer, hlog, hpending, hsubscribed⟩ := u.trySubscribe_cases hroom
  obtain ⟨accepted, hdrain, hclient, hlog', -, -⟩ := u.trySubscribe.drainBuffer_spec
  have hstate' : u.trySubscribe.state = .connected :=
    (trySubscribe_fields u).2.trans (hu ▸ hstate)
  refine ⟨_, hpoll, (trySubscribe_fields u).1.trans (hu ▸ hstage), hstate',
    hfree.trySubscribe.drainBuffer, ⟨accepted, ?_, ?_⟩, ?_⟩
  · rw [← hdrain, hbuffer, hu]
    rfl
  · rw [hlog', hlog, hstate', hu]
    rfl
  · have hlength : p.buffer.length =
        accepted.length + u.trySubscribe.drainBuffer.buffer.length := by
      rw [← List.length_append, ← hdrain, hbuffer, hu]
      rfl
    have howed : u.trySubscribe.drainBuffer.owed = u.trySubscribe.drainBuffer.buffer.length := by
      have hdue : u.trySubscribe.drainBuffer.subscribePending = false := hpending
      simp [owed, hdue]
    rw [howed]
    rcases hsubscribed with hdue | hsame
    · have hdue : p.subscribePending = true := by
        rw [hu] at hdue
        exact hdue
      refine .inr ?_
      simp only [owed, hdue, if_true]
      omega
    · rw [hsame] at hclient hlength ⊢
      refine hfree.drained.imp_right fun hfull => ?_
      -- the channel had room and is full now
      have haccepted : 0 < accepted.length := by
        simp only [AsyncClient.isFull, hclient, List.length_append, List.length_map,
          decide_eq_true_eq, decide_eq_false_iff_not] at hfull hroom
        omega
      unfold owed
      omega

/-- While polls make room, the whole buffer goes out, in order and without another eviction. -/
theorem drained_of_ticks {ticks : List PublisherEvent} (hticks : ∀ ev ∈ ticks, IsTick ev)
    (hstage : p.stage = .running) (hstate : p.state = .connected) (hp : p.WildcardFree)
    (howed : p.buffer = [] ∨ p.owed ≤ ticks.length) :
    ∃ q, (step crates).run p ticks = some q ∧ q.buffer = [] ∧
      q.log = p.log ++ p.buffer.map fun w => .accepted w .connected := by
  induction ticks generalizing p with
  | nil =>
    have hempty : p.buffer = [] := by
      refine howed.elim id fun h => List.length_eq_zero_iff.mp ?_
      unfold owed at h
      simp only [List.length_nil] at h
      omega
    exact ⟨p, rfl, hempty, by simp [hempty]⟩
  | cons ev ticks ih =>
    obtain ⟨hev, hticks⟩ := List.forall_mem_cons.mp hticks
    obtain ⟨u, hu, hstage', hstate', hu', ⟨accepted, hbuffer, hlog⟩, hless⟩ :=
      tick crates hstage hstate hp hev
    have howed' : u.buffer = [] ∨ u.owed ≤ ticks.length := by
      rcases howed with hempty | howed
      · exact .inl (List.append_eq_nil_iff.mp (hbuffer.symm.trans hempty)).2
      · refine hless.imp_right fun hless => ?_
        rw [List.length_cons] at howed
        omega
    obtain ⟨q, hq, hempty, hlog'⟩ := ih hticks hstage' hstate' hu' howed'
    refine ⟨q, ((step crates).run_cons p q ev ticks).mpr ⟨u, hu, hq⟩, hempty, ?_⟩
    rw [hlog', hlog, hbuffer, List.map_append, List.append_assoc]

/-- A drain leaves nothing behind that the channel had room for if and only if no such message is
on a topic with a wildcard. So where no name or topic has one, a connected publisher always waits
for the channel only, and its whole buffer goes out once polls make room. -/
theorem drained_of_no_wildcard {events : List PublisherEvent}
    (hrun : (step crates).run (build setup) events = some p)
    (hlwt : ∀ id ∈ setup.lwtChargePointId, hasWildcard id = false)
    (hloaded : ∀ id ∈ setup.snapshotStore.load, hasWildcard id = false)
    (hevents : ∀ ev ∈ events, BringsNoWildcard ev.input) :
    (∀ q : MqttPublisher, (q.drainBuffer.buffer = [] ∨ q.drainBuffer.client.isFull = true) ↔
        ∀ w ∈ q.buffer.take q.client.room, hasWildcard w.message.topic = false) ∧
      (p.state = .connected → p.buffer = [] ∨ p.client.isFull = true) ∧
      ∀ ticks : List PublisherEvent, (∀ ev ∈ ticks, IsTick ev) → p.buffer.length < ticks.length →
        p.stage = .running → p.state = .connected →
          ∃ q, (step crates).run p ticks = some q ∧ q.buffer = [] ∧
            q.log = p.log ++ p.buffer.map fun w => .accepted w .connected := by
  obtain ⟨hbuffer, -, -, hstage, hstate, hlwt', hchargePoints, -⟩ := build_fields setup
  have hstart : (build setup).Waits ∧ (build setup).Flowing := by
    refine ⟨fun hs => ?_, ⟨?_, ?_, ?_⟩, fun hs => ?_⟩
    · rw [hstage] at hs
      cases hs
    · simp [hbuffer]
    · exact hchargePoints ▸ hloaded
    · exact hlwt' ▸ hlwt
    · rw [hstate] at hs
      cases hs
  -- before its first ConnAck the publisher is not connected, afterwards it is settled
  have hkeep (s : MqttPublisher) (ev : PublisherEvent) (t : MqttPublisher)
      (hev : BringsNoWildcard ev.input) (hs : step crates s ev = some t)
      (h : s.Waits ∧ s.Flowing) : t.Waits ∧ t.Flowing :=
    have hstepped := stepped_of_step hs
    ⟨waits_of_stepped hstepped h.1, flowing_of_stepped hstepped hev h.1 h.2⟩
  have hp : p.Flowing := ((step crates).invariant_of_meets hkeep hrun
    ((step crates).meets_of_forall _ hevents) hstart).2
  refine ⟨drainBuffer_complete_iff, hp.2, fun ticks hticks hlength hstage hstate => ?_⟩
  -- one tick for each message, and one for the subscription
  refine drained_of_ticks hticks hstage hstate hp.1 (.inr ?_)
  unfold owed
  split <;> omega

theorem drained_of_no_wildcard_outage :
    ∃ p, (step (.ofTable [])).run (build { lwtChargePointId := some "CP01" }) outage = some p ∧
      (p.buffer = [] ∨ p.client.isFull = true) := by
  have hup : ((step (.ofTable [])).run (build { lwtChargePointId := some "CP01" }) outage).map
      MqttPublisher.state = some .connected := by decide +kernel
  obtain ⟨p, hrun, hstate⟩ := Option.map_eq_some_iff.mp hup
  have hall := drained_of_no_wildcard hrun (by decide)
    (by simp [SnapshotStore.load]) (by simp [outage, BringsNoWildcard]; decide)
  exact ⟨p, hrun, hall.2.1 hstate⟩

def wildTransfer : String × Json :=
  ("[2,\"d1\",\"Data#1\",\x7b\x7d]",
    .array [.ofNat 2, .string "d1", .string "Data#1", .ofFields []])

/-- The frame parses, and once its message is in the buffer of a connected publisher nothing goes
out any more, with the channel empty. -/
theorem not_drained_wildTransfer :
    ∃ frame p, OcppFrame.parse (.ofTable [wildTransfer]) 0 wildTransfer.1 = .ok frame ∧
      (step (.ofTable [wildTransfer])).run (build {})
        [⟨0, .startup⟩, ⟨1, .poll 0 .connAck⟩,
          ⟨2, .event (some (.messageForwarded "CP01" frame .chargerToCentral "Data#1"))⟩,
          ⟨3, .event (some (.stateChange "CP01" .connected .connected))⟩,
          ⟨4, .poll 10 .other⟩] = some p ∧
      p.state = .connected ∧ ¬ (p.buffer = [] ∨ p.client.isFull = true) := by
  obtain ⟨frame, hframe⟩ : ∃ frame : OcppFrame, frame =
      { raw := wildTransfer.1, messageType := .call "Data#1", uniqueId := "d1", receivedAt := 0 } :=
    ⟨_, rfl⟩
  have hseen : ((step (.ofTable [wildTransfer])).run (build {})
      [⟨0, .startup⟩, ⟨1, .poll 0 .connAck⟩,
        ⟨2, .event (some (.messageForwarded "CP01" frame .chargerToCentral "Data#1"))⟩,
        ⟨3, .event (some (.stateChange "CP01" .connected .connected))⟩,
        ⟨4, .poll 10 .other⟩]).map (fun p => (p.state, p.buffer.length, p.client.isFull)) =
      some (.connected, 2, false) := by
    subst hframe
    decide +kernel
  obtain ⟨p, hrun, hp⟩ := Option.map_eq_some_iff.mp hseen
  obtain ⟨hstate, hbuffer, hfull⟩ : p.state = .connected ∧ p.buffer.length = 2 ∧
      p.client.isFull = false := by simpa using hp
  refine ⟨frame, p, ?_, hrun, hstate, ?_⟩
  · subst hframe
    decide +kernel
  · rintro (hempty | hfull')
    · simp [hempty] at hbuffer
    · simp [hfull] at hfull'

end

end MqttPublisher

end OcppProxy

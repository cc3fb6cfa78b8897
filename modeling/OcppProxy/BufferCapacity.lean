import OcppProxy.NoCapacity

/-!
# The capacity of the buffer

Two operations add to the publisher's buffer. `bufferMessage` evicts where it would exceed the
capacity, unless there is nothing to evict; `publishOnline` does not look at it.
-/

namespace OcppProxy

namespace MqttPublisher

def Bounded (p : MqttPublisher) : Prop := p.buffer.length ≤ p.maxBufferSize

instance (p : MqttPublisher) : Decidable p.Bounded := inferInstanceAs (Decidable (_ ≤ _))

section
variable {crates : Crates} {now : Time} {input : PublisherInput} {p q : MqttPublisher}
  {setup : PublisherSetup} {front : Waiting} {rest : List Waiting}

/-! ## What the operations do to the buffer -/

theorem drainBuffer_length_le (p : MqttPublisher) :
    p.drainBuffer.buffer.length ≤ p.buffer.length := by
  obtain ⟨accepted, hbuffer, -⟩ := p.drainBuffer_spec
  have hlength := congrArg List.length hbuffer
  rw [List.length_append] at hlength
  omega

theorem Bounded.drainBuffer (h : p.Bounded) : p.drainBuffer.Bounded :=
  p.drainBuffer_length_le.trans h

theorem Bounded.drainIfConnected (h : p.Bounded) : p.drainIfConnected.Bounded := by
  unfold MqttPublisher.drainIfConnected
  split
  · exact h.drainBuffer
  · exact h

/-- A full buffer gives up as much as it takes, unless it has nothing to give. -/
theorem Bounded.bufferMessage (hmax : 0 < p.maxBufferSize) (h : p.Bounded)
    (message : MqttMessage) : (p.bufferMessage message).Bounded := by
  by_cases hroom : p.buffer.length < p.maxBufferSize
  · have hlength := congrArg List.length (bufferMessage_of_room message hroom).1
    rw [List.length_append] at hlength
    exact hlength.le.trans hroom
  · have hfull : p.maxBufferSize ≤ p.buffer.length := not_lt.mp hroom
    obtain ⟨front, rest, hfront⟩ := List.exists_cons_of_length_pos (hmax.trans_le hfull)
    have hlength := congrArg List.length (bufferMessage_of_full message hfront hfull).1
    rw [List.length_append] at hlength
    refine hlength.le.trans (le_trans ?_ h)
    rw [hfront]
    exact le_rfl

theorem Bounded.enqueue (hmax : 0 < p.maxBufferSize) (h : p.Bounded) (message : MqttMessage) :
    (p.enqueue message).Bounded :=
  (h.bufferMessage hmax message).drainIfConnected

theorem Works.bounded {N : String → Prop} (h : Works crates now N p q) (hmax : 0 < p.maxBufferSize)
    (hp : p.Bounded) : q.Bounded := by
  induction h with
  | refl => exact hp
  | tail hworks hwork ih =>
    cases hwork with
    | enqueue message =>
      exact ih.enqueue ((Works.acts hworks).handOver.maxBufferSize ▸ hmax) message
    | _ => exact ih

/-! ## One message too many -/

/-- A connected publisher holds one message too many, and the client refuses the front. -/
structure Stuck (p : MqttPublisher) (front : Waiting) (rest : List Waiting) : Prop where
  connected : p.state = .connected
  buffer : p.buffer = front :: rest
  excess : rest.length = p.maxBufferSize
  refused : p.client.tryPublish front.message = none

/-- The message in front goes, and the one behind it is refused like it was, or it makes room. -/
theorem Stuck.enqueue (h : p.Stuck front rest) (message : MqttMessage) {next : Waiting}
    {others : List Waiting} (hnext : rest ++ [p.entryOf message] = next :: others) :
    (p.client.tryPublish next.message ≠ none → (p.enqueue message).Bounded) ∧
      (p.client.tryPublish next.message = none →
        (p.enqueue message).Stuck next others ∧ (p.enqueue message).client = p.client) := by
  have hfull : p.maxBufferSize ≤ p.buffer.length := by
    rw [h.buffer, List.length_cons, h.excess]
    omega
  have hbuffer : (p.bufferMessage message).buffer = next :: others :=
    (bufferMessage_of_full message h.buffer hfull).1.trans hnext
  have hothers : others.length = p.maxBufferSize := by
    have hlength := congrArg List.length hnext
    simp only [List.length_append, List.length_cons, List.length_nil, h.excess] at hlength
    omega
  have hdrains : p.enqueue message = (p.bufferMessage message).drainBuffer :=
    if_pos h.connected
  rw [hdrains]
  constructor
  · intro haccepted
    have hlength := (drainBuffer_of_accepted hbuffer haccepted).1
    exact hlength.trans hothers.le
  · intro hrefused
    obtain ⟨hsame, hclient, -⟩ := drainBuffer_of_refused hbuffer hrefused
    have hstuck : (p.bufferMessage message).drainBuffer.Stuck next others :=
      ⟨h.connected, hsame.trans hbuffer, hothers, by rw [hclient]; exact hrefused⟩
    exact ⟨hstuck, hclient⟩

/-- Each snapshot evicts the message in front, until one comes to the front that the channel
takes. -/
theorem Stuck.republish (crates : Crates) {es : List (Sigma fun _ : String => ChargePointState)}
    (h : p.Stuck front rest) (hmax : 0 < p.maxBufferSize) :
    (es.foldl (fun p e => p.publishChargePointState crates e.1 e.2) p).Bounded ↔
      p.client.isFull = false ∧ ∃ topic ∈ (rest.map (fun w => w.message.topic) ++
        es.map fun e => chargePointStateTopic e.1).take es.length, hasWildcard topic = false := by
  induction es generalizing p front rest with
  | nil =>
    have hover : ¬ p.Bounded := by
      unfold Bounded
      rw [h.buffer, List.length_cons, h.excess]
      omega
    simpa using hover
  | cons e es ih =>
    obtain ⟨message, hmessage⟩ : ∃ message : MqttMessage, message =
        { topic := chargePointStateTopic e.1, payload := crates.toText e.2.toJson
          qos := .atLeastOnce, retain := true } := ⟨_, rfl⟩
    have hfirst : p.publishChargePointState crates e.1 e.2 = p.enqueue message := hmessage ▸ rfl
    have htopic : (p.entryOf message).message.topic = chargePointStateTopic e.1 := hmessage ▸ rfl
    obtain ⟨next, others, hnext⟩ : ∃ next others, rest ++ [p.entryOf message] = next :: others :=
      List.exists_cons_of_length_pos (by simp)
    obtain ⟨hmoves, hstays⟩ := h.enqueue message hnext
    have hmax' : 0 < (p.enqueue message).maxBufferSize :=
      (acts_enqueue message p).handOver.maxBufferSize ▸ hmax
    have htopics : rest.map (fun w => w.message.topic) ++
        (e :: es).map (fun e => chargePointStateTopic e.1) =
          next.message.topic :: (others.map (fun w => w.message.topic) ++
            es.map fun e => chargePointStateTopic e.1) := by
      have hmap := congrArg (List.map fun w => w.message.topic) hnext
      rw [List.map_append, List.map_singleton, htopic, List.map_cons] at hmap
      rw [List.map_cons, ← List.singleton_append, ← List.append_assoc, hmap, List.cons_append]
    rw [List.foldl_cons, hfirst, htopics, List.length_cons, List.take_succ_cons]
    by_cases hrefused : p.client.tryPublish next.message = none
    · obtain ⟨hstuck, hclient⟩ := hstays hrefused
      rw [ih hstuck hmax', hclient]
      refine and_congr_right fun hroom => ?_
      have hwild : hasWildcard next.message.topic = true :=
        ((tryPublish_eq_none _ _).mp hrefused).resolve_right (by simp [hroom])
      simp [hwild]
    · have hfree : hasWildcard next.message.topic = false ∧ p.client.isFull = false := by
        rw [tryPublish_eq_none, not_or] at hrefused
        simpa using hrefused
      have hbounded : (es.foldl (fun p e => p.publishChargePointState crates e.1 e.2)
          (p.enqueue message)).Bounded := by
        have hworks := works_publishSnapshots crates 0 nameClass_true es (fun _ _ => trivial)
          (p.enqueue message)
        exact hworks.bounded hmax' (hmoves hrefused)
      exact iff_of_true hbounded ⟨hfree.2, _, List.mem_cons_self, hfree.1⟩

/-! ## A ConnAck -/

/-- The topics of the messages that a ConnAck announces, finds waiting and republishes, in the order
in which they are in the buffer. -/
def connackTopics (p : MqttPublisher) (id : String) : List String :=
  availabilityTopic id :: (p.buffer.map (fun w => w.message.topic) ++
    p.chargePointState.entries.map fun e => chargePointStateTopic e.1)

/-- The announcement finds a place in the buffer, or it or a message that comes to the front behind
it can be published. -/
def AnnouncesWithin (p : MqttPublisher) : Prop :=
  ∀ id ∈ p.lwtChargePointId, p.buffer.length < p.maxBufferSize ∨
    ∃ topic ∈ (p.connackTopics id).take (p.chargePointState.entries.length + 1),
      hasWildcard topic = false

instance (p : MqttPublisher) : Decidable p.AnnouncesWithin :=
  inferInstanceAs (Decidable (∀ id ∈ p.lwtChargePointId, _ ∨ _))

def ConnacksWithin (p : MqttPublisher) (ev : PublisherEvent) : Prop :=
  match ev.input with
  | .poll _ .connAck => p.AnnouncesWithin
  | _ => True

instance (p : MqttPublisher) : ∀ ev, Decidable (p.ConnacksWithin ev)
  | ⟨_, .poll _ .connAck⟩ => inferInstanceAs (Decidable p.AnnouncesWithin)
  | ⟨_, .poll _ (.publish ..)⟩ | ⟨_, .poll _ .other⟩ | ⟨_, .poll _ .error⟩ | ⟨_, .startup⟩
  | ⟨_, .startupTimeout⟩ | ⟨_, .event _⟩ | ⟨_, .enqueue _⟩ | ⟨_, .world ..⟩ =>
    inferInstanceAs (Decidable True)

theorem Bounded.flushBuffer (h : p.Bounded) : p.flushBuffer.Bounded := by
  unfold MqttPublisher.flushBuffer
  split
  · exact h
  · have hstarted : Bounded { p with flushInProgress := some 0 } := h
    exact hstarted.drainBuffer

theorem trySubscribe_bounded : p.trySubscribe.Bounded ↔ p.Bounded := by
  unfold trySubscribe
  split
  · exact Iff.rfl
  · split <;> exact Iff.rfl

/-- After a ConnAck the buffer is as the republished snapshots leave it. -/
theorem onConnack_bounded : (p.onConnack crates).Bounded ↔
    (p.connected.publishOnline.flushBuffer.republishSnapshots crates).Bounded :=
  trySubscribe_bounded

theorem Bounded.republish (hmax : 0 < p.maxBufferSize) (h : p.flushBuffer.Bounded) :
    (p.flushBuffer.republishSnapshots crates).Bounded := by
  have hmax' : 0 < p.flushBuffer.maxBufferSize := by
    unfold MqttPublisher.flushBuffer
    split <;> exact hmax
  exact (works_republishSnapshots crates 0 nameClass_true fun _ _ => trivial).bounded hmax' h

/-- A flush of a buffer whose front is refused. -/
theorem Stuck.flushBuffer (h : p.Stuck front rest) :
    p.flushBuffer.Stuck front rest ∧ p.flushBuffer.client = p.client := by
  have hsome : p.buffer.isEmpty = false := by rw [h.buffer]; rfl
  unfold MqttPublisher.flushBuffer
  rw [hsome]
  obtain ⟨hbuffer, hclient, -⟩ := @drainBuffer_of_refused { p with flushInProgress := some 0 }
    front rest h.buffer h.refused
  have hrefused : ({ p with
      flushInProgress := some 0 } : MqttPublisher).drainBuffer.client.tryPublish front.message =
        none := by
    rw [hclient]
    exact h.refused
  exact ⟨⟨h.connected, hbuffer.trans h.buffer, h.excess, hrefused⟩, hclient⟩

/-- An announcement that is refused in front of a full buffer is one message too many; it makes room
for the snapshots until a message comes to the front that can be published. -/
theorem announced_bounded_iff {id : String} (hmax : 0 < p.maxBufferSize)
    (hunused : p.client.requests = []) (hfull : p.buffer.length = p.maxBufferSize)
    (hrefused : p.client.tryPublish (p.announcementOf id).message = none) :
    ((p.connected.announced id).drainBuffer.flushBuffer.republishSnapshots crates).Bounded ↔
      ∃ topic ∈ (p.connackTopics id).take (p.chargePointState.entries.length + 1),
        hasWildcard topic = false := by
  obtain ⟨w, hw⟩ : ∃ w, w = p.announcementOf id := ⟨_, rfl⟩
  have hfront : (p.connected.announced id).buffer = w :: p.buffer := hw ▸ rfl
  rw [← hw] at hrefused
  obtain ⟨hbuffer, hclient, -⟩ := drainBuffer_of_refused hfront hrefused
  have hstuck : (p.connected.announced id).drainBuffer.Stuck w p.buffer :=
    ⟨rfl, hbuffer.trans hfront, hfull, hclient ▸ hrefused⟩
  obtain ⟨hflushed, hclient'⟩ := hstuck.flushBuffer
  have hsame : (p.connected.announced id).client = p.client := rfl
  have hsnapshots : (p.connected.announced id).drainBuffer.flushBuffer.chargePointState =
      p.chargePointState := (idle_flushBuffer _).chargePointState
  have hmax' : 0 < (p.connected.announced id).drainBuffer.flushBuffer.maxBufferSize := by
    rw [(acts_flushBuffer hstuck.connected).handOver.maxBufferSize]
    exact hmax
  -- the channel has room, so what is refused has a wildcard in its topic
  have hroom : p.client.isFull = false := isFull_of_unused hunused
  have hwild : hasWildcard (availabilityTopic id) = true := by
    have htopic : w.message.topic = availabilityTopic id := hw ▸ rfl
    rw [← htopic]
    exact ((tryPublish_eq_none _ _).mp hrefused).resolve_right (by simp [hroom])
  unfold republishSnapshots
  rw [hflushed.republish crates hmax', hclient', hclient, hsame, hsnapshots]
  simp [connackTopics, hwild, hroom]

/-- Whether a ConnAck of a new connection keeps the buffer within its capacity. -/
theorem onConnack_bounded_iff (hmax : 0 < p.maxBufferSize) (hunused : p.client.requests = [])
    (h : p.Bounded) : (p.onConnack crates).Bounded ↔ p.AnnouncesWithin := by
  rw [onConnack_bounded]
  cases hlwt : p.lwtChargePointId with
  | none =>
    have hsame : p.connected.publishOnline = p.connected := by
      unfold publishOnline
      rw [show p.connected.lwtChargePointId = none from hlwt]
    have hup : p.connected.Bounded := h
    rw [hsame]
    refine iff_of_true (Bounded.republish (by exact hmax) hup.flushBuffer) ?_
    simp [AnnouncesWithin, hlwt]
  | some id =>
    have hfront : (p.connected.announced id).buffer = p.announcementOf id :: p.buffer := rfl
    have hbounded (h : (p.connected.announced id).drainBuffer.Bounded) :
        ((p.connected.announced id).drainBuffer.flushBuffer.republishSnapshots crates).Bounded :=
      Bounded.republish (by exact hmax) h.flushBuffer
    rw [show p.connected.publishOnline = _ from publishOnline_of_lwt hlwt]
    by_cases hplace : p.buffer.length < p.maxBufferSize
    · have hpushed : (p.connected.announced id).Bounded := hplace
      refine iff_of_true (hbounded hpushed.drainBuffer) ?_
      simp [AnnouncesWithin, hlwt, hplace]
    · have hfull : p.buffer.length = p.maxBufferSize := le_antisymm h (not_lt.mp hplace)
      have hwithin : p.AnnouncesWithin ↔
          ∃ topic ∈ (p.connackTopics id).take (p.chargePointState.entries.length + 1),
            hasWildcard topic = false := by
        simp [AnnouncesWithin, hlwt, hplace]
      rw [hwithin]
      by_cases hrefused : p.client.tryPublish (p.announcementOf id).message = none
      · exact announced_bounded_iff hmax hunused hfull hrefused
      · have hdrained := (drainBuffer_of_accepted hfront hrefused).1
        refine iff_of_true (hbounded (hdrained.trans h)) ⟨_, List.mem_cons_self, ?_⟩
        rw [tryPublish_eq_none, not_or] at hrefused
        exact Bool.eq_false_iff.mpr hrefused.1

/-! ## Runs -/

theorem Bounded.onPolled (hmax : 0 < p.maxBufferSize) (h : p.Bounded) {event : Polled}
    (hevent : event ≠ .connAck) : (p.onPolled crates now event).Bounded := by
  cases event with
  | connAck => exact absurd rfl hevent
  | publish topic payload =>
    exact ((works_handleIncomingPublish crates now nameClass_true payload
      fun _ _ => trivial).bounded hmax h).drainIfConnected
  | other =>
    unfold MqttPublisher.onPolled
    dsimp only
    split
    · exact (trySubscribe_bounded.mpr h).drainBuffer
    · exact h
  | error =>
    unfold MqttPublisher.onPolled onPollError
    dsimp only
    split <;> exact h

/-- A step keeps the buffer within its capacity if and only if it is no ConnAck that cannot
announce within it. -/
theorem bounded_iff_of_step {ev : PublisherEvent} (hs : step crates p ev = some q)
    (hmax : 0 < p.maxBufferSize) (hunused : p.Unused) (hanew : p.ConnectsAnew ev)
    (h : p.Bounded) : q.Bounded ↔ p.ConnacksWithin ev := by
  have hpolled (taken : Nat) : (p.afterPoll taken).Bounded := h
  by_cases hconnack : ∃ taken, ev.input = .poll taken .connAck
  · obtain ⟨taken, hinput⟩ := hconnack
    obtain ⟨now, input⟩ := ev
    obtain rfl : input = .poll taken .connAck := hinput
    rw [step_connAck hs]
    exact onConnack_bounded_iff (p := p.afterPoll taken) (by exact hmax)
      (requests_afterPoll taken (hunused.requests hanew)) (hpolled taken)
  · have hwithin : p.ConnacksWithin ev := by
      unfold ConnacksWithin
      split
      · rename_i taken hinput
        exact absurd ⟨taken, hinput⟩ hconnack
      · trivial
    refine iff_of_true ?_ hwithin
    have hstepped := stepped_of_step hs
    generalize ev.input = input at hstepped hconnack
    cases hstepped with
    | world => exact h
    | enqueue message => exact h.enqueue hmax message
    | startup => exact h
    | startupTimeout => exact h
    | started taken => exact absurd ⟨taken, rfl⟩ hconnack
    | waited taken => exact hpolled taken
    | polled taken event =>
      refine Bounded.onPolled (p := p.afterPoll (p.takenOff taken event)) (by exact hmax)
        (hpolled _) fun hevent => hconnack ⟨taken, ?_⟩
      rw [hevent]
    | handled event =>
      have hnames : NamesIn (fun _ => True) event := by cases event <;> simp [NamesIn]
      exact (works_handleEvent crates ev.now nameClass_true hnames).bounded hmax h
    | stopped => exact h

theorem bounded_iff_of_none (hmax : p.maxBufferSize = 0) : p.Bounded ↔ p.buffer = [] := by
  unfold Bounded
  rw [hmax, Nat.le_zero, List.length_eq_zero_iff]

/-- A charger connects while there is no broker. -/
def unreachable : List PublisherEvent :=
  [⟨0, .startup⟩, ⟨5, .startupTimeout⟩,
    ⟨6, .event (some (.stateChange "CP01" .connecting .connected))⟩]

def reconnected : List PublisherEvent :=
  [⟨0, .startup⟩, ⟨1, .poll 0 .connAck⟩, ⟨2, .poll 0 .error⟩, ⟨3, .poll 0 .connAck⟩]

end

end MqttPublisher

end OcppProxy

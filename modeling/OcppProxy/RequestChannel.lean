import OcppProxy.HandOver

/-!
# The request channel

What the client takes, message by message; and without a connection there is nothing in its channel,
so that a ConnAck finds it empty.
-/

namespace OcppProxy

namespace MqttPublisher

/-- Assumed of `rumqttc`: a ConnAck is reported for a new connection, not for one that is up. -/
def ConnectsAnew (p : MqttPublisher) (ev : PublisherEvent) : Prop :=
  match ev.input with
  | .poll _ .connAck => p.state ≠ .connected
  | _ => True

instance (p : MqttPublisher) : ∀ ev, Decidable (p.ConnectsAnew ev)
  | ⟨_, .poll _ .connAck⟩ => inferInstanceAs (Decidable (_ ≠ _))
  | ⟨_, .poll _ (.publish ..)⟩ | ⟨_, .poll _ .other⟩ | ⟨_, .poll _ .error⟩ | ⟨_, .startup⟩
  | ⟨_, .startupTimeout⟩ | ⟨_, .event _⟩ | ⟨_, .enqueue _⟩ | ⟨_, .world ..⟩ =>
    inferInstanceAs (Decidable True)

/-- The client takes nothing from the front of the buffer. -/
def Spent (p : MqttPublisher) : Prop := ∀ w ∈ p.buffer.head?, p.client.tryPublish w.message = none

section
variable {crates : Crates} {now : Time} {input : PublisherInput} {p q : MqttPublisher}
  {setup : PublisherSetup} {front : Waiting} {rest : List Waiting}

/-! ## What the client takes -/

theorem bufferMessage_of_room (message : MqttMessage) (h : p.buffer.length < p.maxBufferSize) :
    (p.bufferMessage message).buffer = p.buffer ++ [p.entryOf message] ∧
      (p.bufferMessage message).log = p.log ++ [.entered (p.entryOf message)] := by
  have hroom : ¬ p.maxBufferSize ≤ p.buffer.length := by omega
  simp [bufferMessage, note, hroom, entryOf]

theorem bufferMessage_of_full (message : MqttMessage) (hfront : p.buffer = front :: rest)
    (hfull : p.maxBufferSize ≤ p.buffer.length) :
    (p.bufferMessage message).buffer = rest ++ [p.entryOf message] ∧
      (p.bufferMessage message).log =
        p.log ++ [.evicted front p.buffer, .entered (p.entryOf message)] := by
  unfold bufferMessage note
  simp only [hfull, decide_true, if_true]
  simp [hfront, entryOf]

/-- A client that refuses the front takes nothing. -/
theorem drainBuffer_of_refused (hfront : p.buffer = front :: rest)
    (hrefused : p.client.tryPublish front.message = none) :
    p.drainBuffer.buffer = p.buffer ∧ p.drainBuffer.client = p.client ∧
      p.drainBuffer.log = p.log := by
  have hhand : handOver p.client p.buffer = ([], p.buffer, p.client) := by
    rw [hfront, handOver, hrefused]
  unfold drainBuffer note
  simp [hhand]

/-- A client that takes the front leaves no more than the others. -/
theorem drainBuffer_of_accepted (hfront : p.buffer = front :: rest)
    (haccepted : p.client.tryPublish front.message ≠ none) :
    p.drainBuffer.buffer.length ≤ rest.length ∧
      ∃ others, p.drainBuffer.log = p.log ++ .accepted front p.state :: others := by
  obtain ⟨accepted, hbuffer, hclient, hlog, hclean, hstop⟩ := p.drainBuffer_spec
  cases accepted with
  | nil =>
    -- nothing was taken, so the front is what stopped the drain
    rw [List.nil_append] at hbuffer
    rw [List.map_nil, List.append_nil] at hclient
    refine absurd ((tryPublish_eq_none _ _).mpr ?_) haccepted
    rcases hstop with hempty | hfull | ⟨w, hw, hwild⟩
    · rw [hempty, hfront] at hbuffer
      cases hbuffer
    · rw [AsyncClient.isFull, hclient] at hfull
      exact .inr hfull
    · rw [← hbuffer, hfront] at hw
      obtain rfl : front = w := by simpa using hw
      exact .inl hwild
  | cons w accepted =>
    rw [hfront, List.cons_append] at hbuffer
    obtain ⟨rfl, hrest⟩ := List.cons.inj hbuffer
    refine ⟨?_, _, hlog⟩
    rw [hrest, List.length_append]
    omega

theorem spent_of_nil (h : p.buffer = []) : p.Spent := by simp [Spent, h]

theorem spent_drainBuffer (p : MqttPublisher) : p.drainBuffer.Spent := by
  obtain ⟨-, -, -, -, -, hstop⟩ := p.drainBuffer_spec
  intro w hw
  rw [tryPublish_eq_none]
  rcases hstop with hempty | hfull | ⟨v, hv, hwild⟩
  · rw [hempty] at hw
    cases hw
  · exact .inr hfull
  · obtain rfl : v = w := Option.some.inj (hv.symm.trans hw)
    exact .inl hwild

theorem Spent.drainBuffer (h : p.Spent) :
    p.drainBuffer.buffer = p.buffer ∧ p.drainBuffer.client = p.client := by
  cases hb : p.buffer with
  | nil => simp [MqttPublisher.drainBuffer, note, handOver, hb]
  | cons w rest =>
    obtain ⟨hbuffer, hclient, -⟩ := drainBuffer_of_refused hb (h w (by simp [hb]))
    exact ⟨hbuffer.trans hb, hclient⟩

theorem Spent.flushBuffer (h : p.Spent) :
    p.flushBuffer.buffer = p.buffer ∧ p.flushBuffer.client = p.client := by
  unfold MqttPublisher.flushBuffer
  split
  · exact ⟨rfl, rfl⟩
  · have hstarted : Spent { p with flushInProgress := some 0 } := h
    exact hstarted.drainBuffer

theorem drainIfConnected_buffer (h : p.state = .connected → p.Spent) :
    p.drainIfConnected.buffer = p.buffer := by
  unfold drainIfConnected
  split
  · exact (h ‹_›).drainBuffer.1
  · rfl

theorem isFull_of_unused (h : p.client.requests = []) : p.client.isFull = false := by
  unfold AsyncClient.isFull
  rw [h]
  rfl

/-! ## Without a connection -/

/-- Without a connection the request channel is empty. -/
structure Unused (p : MqttPublisher) : Prop where
  requests : p.state ≠ .connected → p.client.requests = []
  built : p.stage = .built → p.state = .disconnected
  waits : p.Waits

theorem Works.client {N : String → Prop} (h : Works crates now N p q)
    (hstate : p.state ≠ .connected) : q.client = p.client := by
  induction h with
  | refl => rfl
  | @tail q r hworks hwork ih =>
    cases hwork with
    | enqueue message _ =>
      have hdown : q.state ≠ .connected := (Works.fields hworks).2 ▸ hstate
      have hbuffered : q.enqueue message = q.bufferMessage message := if_neg hdown
      rw [hbuffered]
      exact ih
    | _ => exact ih

theorem onConnack_state (p : MqttPublisher) : (p.onConnack crates).state = .connected := by
  have hflush (p : MqttPublisher) : p.flushBuffer.state = p.state := by
    unfold flushBuffer
    split <;> rfl
  have hrepublished := (works_republishSnapshots crates 0 nameClass_true
    (p := p.connected.publishOnline.flushBuffer) fun _ _ => trivial).fields.2
  have hup : p.connected.publishOnline.flushBuffer.state = .connected :=
    (hflush _).trans (publishOnline_fields p.connected).2
  exact (trySubscribe_fields _).2.trans (hrepublished.trans hup)

theorem requests_afterPoll (taken : Nat) (h : p.client.requests = []) :
    (p.afterPoll taken).client.requests = [] := by
  show p.client.requests.drop taken = []
  rw [h, List.drop_nil]

theorem drainIfConnected_state (p : MqttPublisher) : p.drainIfConnected.state = p.state := by
  unfold drainIfConnected
  split <;> rfl

/-- A poll that ends a connection takes what is in the channel, and without one no handler gives the
client anything. -/
theorem requests_onPolled (taken : Nat) (event : Polled)
    (h : p.state ≠ .connected → p.client.requests = [])
    (hstate : ((p.afterPoll (p.takenOff taken event)).onPolled crates now event).state ≠
      .connected) :
    ((p.afterPoll (p.takenOff taken event)).onPolled crates now event).client.requests = [] := by
  cases event with
  | connAck => exact absurd (onConnack_state _) hstate
  | publish topic payload =>
    obtain ⟨u, hu⟩ : ∃ u, u = (p.afterPoll taken).handleIncomingPublish crates now topic payload :=
      ⟨_, rfl⟩
    have hworks : Works crates now (fun _ => True) (p.afterPoll taken) u :=
      hu ▸ works_handleIncomingPublish crates now nameClass_true payload fun _ _ => trivial
    have hpolled : (p.afterPoll (p.takenOff taken (.publish topic payload))).onPolled crates now
        (.publish topic payload) = u.drainIfConnected := hu ▸ rfl
    rw [hpolled] at hstate ⊢
    rw [drainIfConnected_state] at hstate
    have hdown : p.state ≠ .connected := fun hup => hstate (hworks.fields.2.trans hup)
    rw [show u.drainIfConnected = u from if_neg hstate, hworks.client hdown]
    exact requests_afterPoll taken (h hdown)
  | other =>
    unfold onPolled at hstate ⊢
    dsimp only at hstate ⊢
    split at hstate
    · rename_i hup
      exact absurd ((trySubscribe_fields _).2.trans hup) hstate
    · rw [if_neg ‹_›]
      exact requests_afterPoll taken (h ‹_›)
  | error =>
    have hclean : (p.afterPoll (p.takenOff taken .error)).onPollError.client.requests =
        p.client.requests.drop p.client.requests.length := by
      unfold onPollError
      dsimp only
      split <;> rfl
    exact hclean.trans List.drop_length

theorem unused_of_stepped (h : Stepped crates now p input q) (hp : p.Unused) : q.Unused := by
  refine ⟨fun hdown => ?_, fun hbuilt => ?_, waits_of_stepped h hp.waits⟩
  · cases h with
    | world => exact hp.requests hdown
    | enqueue message =>
      rw [(enqueue_fields message p).2] at hdown
      have hbuffered : p.enqueue message = p.bufferMessage message := if_neg hdown
      rw [hbuffered]
      exact hp.requests hdown
    | startup hstage =>
      refine hp.requests ?_
      rw [hp.built hstage]
      decide
    | startupTimeout hstage =>
      refine hp.requests ?_
      rw [hp.waits hstage]
      decide
    | started taken => exact absurd (onConnack_state _) hdown
    | waited taken event => exact requests_afterPoll _ (hp.requests hdown)
    | polled taken event => exact requests_onPolled taken event hp.requests hdown
    | handled event =>
      have hnames : NamesIn (fun _ => True) event := by cases event <;> simp [NamesIn]
      have hworks := works_handleEvent (p := p) crates now nameClass_true hnames
      rw [hworks.fields.2] at hdown
      rw [hworks.client hdown]
      exact hp.requests hdown
    | stopped => exact hp.requests hdown
  · cases h with
    | world => exact hp.built hbuilt
    | enqueue message =>
      rw [(enqueue_fields message p).1] at hbuilt
      exact (enqueue_fields message p).2.trans (hp.built hbuilt)
    | startup => cases hbuilt
    | startupTimeout => cases hbuilt
    | started => cases hbuilt
    | waited taken event backoff hstage =>
      rw [show p.stage = .built from hbuilt] at hstage
      cases hstage
    | polled taken event hstage =>
      rw [onPolled_stage] at hbuilt
      rw [show p.stage = .built from hbuilt] at hstage
      cases hstage
    | handled event hstage =>
      have hnames : NamesIn (fun _ => True) event := by cases event <;> simp [NamesIn]
      rw [(works_handleEvent crates now nameClass_true hnames).fields.1, hstage] at hbuilt
      cases hbuilt
    | stopped => cases hbuilt

theorem unused_build (setup : PublisherSetup) : (build setup).Unused := by
  obtain ⟨-, -, -, hstage, hstate, -⟩ := build_fields setup
  refine ⟨fun _ => build_client setup, fun _ => hstate, fun h => ?_⟩
  rw [hstage] at h
  cases h

/-- At a ConnAck of a new connection the channel is empty. -/
theorem unused_of_run {events : List PublisherEvent}
    (hrun : (step crates).run (build setup) events = some p) : p.Unused :=
  (step crates).invariant (fun _ _ _ hs => unused_of_stepped (stepped_of_step hs)) hrun
    (unused_build setup)

end

end MqttPublisher

end OcppProxy

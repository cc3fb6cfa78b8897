import OcppProxy.RequestChannel

/-!
# A buffer without a capacity

With a `maxBufferSize` of zero `bufferMessage` evicts what it finds and leaves its own message. The
buffer is empty only where the client has taken the last message that came in.
-/

namespace OcppProxy

namespace MqttPublisher

/-- How many of the messages are on topics that can be published to. -/
def publishable (messages : List MqttMessage) : Nat :=
  (messages.filter fun message => !hasWildcard message.topic).length

/-- The client of a connected publisher takes the last of the messages. -/
def TakesLast (state : ConnectionState) (room : Nat) (messages : List MqttMessage) : Prop :=
  ∀ last ∈ messages.getLast?,
    state = .connected ∧ hasWildcard last.topic = false ∧ publishable messages ≤ room

def stateAfterPoll (p : MqttPublisher) (ev : PublisherEvent) : ConnectionState :=
  match ev.input with
  | .poll _ .connAck => .connected
  | _ => p.state

def roomAfterPoll (p : MqttPublisher) (ev : PublisherEvent) : Nat :=
  match ev.input with
  | .poll taken event => (p.afterPoll (p.takenOff taken event)).client.room
  | _ => p.client.room

def TakesBrought (crates : Crates) (p : MqttPublisher) (ev : PublisherEvent) : Prop :=
  TakesLast (p.stateAfterPoll ev) (p.roomAfterPoll ev)
    ((p.announcements ev).map Prod.fst ++ p.enqueued crates ev)

section
variable {crates : Crates} {now : Time} {p q : MqttPublisher}

/-! ## Messages in a row -/

theorem publishable_append (messages messages' : List MqttMessage) :
    publishable (messages ++ messages') = publishable messages + publishable messages' := by
  simp [publishable]

theorem publishable_single {message : MqttMessage} (h : hasWildcard message.topic = false) :
    publishable [message] = 1 := by
  simp [publishable, h]

/-- A drain of a buffer of one message. -/
theorem drainBuffer_single {w : Waiting} (h : p.buffer = [w]) :
    p.drainBuffer.buffer.length ≤ 1 ∧
      p.drainBuffer.client.room = p.client.room - publishable [w.message] ∧
      (p.drainBuffer.buffer = [] ↔ hasWildcard w.message.topic = false ∧ 0 < p.client.room) := by
  cases hsend : p.client.tryPublish w.message with
  | none =>
    obtain ⟨hbuffer, hclient, -⟩ := drainBuffer_of_refused h hsend
    rw [hbuffer, hclient, h]
    rcases (tryPublish_eq_none _ _).mp hsend with hwild | hfull
    · simp [publishable, hwild]
    · have hroom : p.client.room = 0 := by
        simpa [AsyncClient.isFull, AsyncClient.room, Nat.sub_eq_zero_iff_le] using hfull
      simp [hroom]
  | some client =>
    obtain ⟨hfree, hroom, hrequests⟩ := (tryPublish_eq_some _ _).mp hsend
    have hdrained : p.drainBuffer.buffer = [] ∧ p.drainBuffer.client = client := by
      simp [drainBuffer, note, handOver, h, hsend]
    rw [hdrained.1, hdrained.2]
    refine ⟨by simp, ?_, ?_⟩
    · rw [publishable_single hfree]
      simp only [AsyncClient.room, hrequests, List.length_append, List.length_singleton]
      omega
    · simp only [AsyncClient.room, hfree, true_and, true_iff]
      omega

/-- What a message finds in a buffer without a capacity, it evicts. -/
theorem bufferMessage_of_none (hmax : p.maxBufferSize = 0) (hone : p.buffer.length ≤ 1)
    (message : MqttMessage) : (p.bufferMessage message).buffer = [p.entryOf message] := by
  cases hb : p.buffer with
  | nil => simp [bufferMessage, note, hb, entryOf]
  | cons w rest =>
    obtain rfl : rest = [] := by
      rw [hb, List.length_cons] at hone
      exact List.length_eq_zero_iff.mp (by omega)
    simp [bufferMessage, note, hb, hmax, entryOf]

/-- What messages leave in a buffer without a capacity, and in the channel. -/
structure Passed (messages : List MqttMessage) (p q : MqttPublisher) : Prop where
  maxBufferSize : q.maxBufferSize = 0
  state : q.state = p.state
  length : q.buffer.length ≤ 1
  spent : p.state = .connected → q.Spent
  room : p.state = .connected → q.client.room = p.client.room - publishable messages

theorem Passed.refl (hmax : p.maxBufferSize = 0) (hone : p.buffer.length ≤ 1)
    (hspent : p.state = .connected → p.Spent) : Passed [] p p :=
  ⟨hmax, rfl, hone, hspent, fun _ => rfl⟩

/-- One message more: it stays behind, or it goes out at once. -/
theorem Passed.enqueue {messages : List MqttMessage} (h : Passed messages p q)
    (message : MqttMessage) :
    Passed (messages ++ [message]) p (q.enqueue message) ∧
      ((q.enqueue message).buffer = [] ↔
        TakesLast p.state p.client.room (messages ++ [message])) := by
  have hbuffer := bufferMessage_of_none h.maxBufferSize h.length message
  have hmax : (q.enqueue message).maxBufferSize = 0 :=
    (acts_enqueue message q).handOver.maxBufferSize.trans h.maxBufferSize
  have hstate := (enqueue_fields message q).2.trans h.state
  by_cases hup : p.state = .connected
  · have hdrains : q.enqueue message = (q.bufferMessage message).drainBuffer :=
      if_pos (h.state.trans hup)
    obtain ⟨hlength, hroom, hempty⟩ := drainBuffer_single hbuffer
    have hbefore : (q.bufferMessage message).client.room =
        p.client.room - publishable messages := h.room hup
    rw [hbefore] at hroom hempty
    rw [hdrains] at hmax hstate ⊢
    refine ⟨⟨hmax, hstate, hlength, fun _ => spent_drainBuffer _, fun _ => ?_⟩, hempty.trans ?_⟩
    · rw [hroom, publishable_append, Nat.sub_sub]
      rfl
    · simp only [TakesLast, List.getLast?_append, List.getLast?_singleton, Option.some_or,
        Option.mem_def, Option.some.injEq, forall_eq', hup, true_and, publishable_append]
      refine and_congr_right fun hfree => ?_
      have hone : publishable [message] = 1 := publishable_single hfree
      omega
  · have hstays : q.enqueue message = q.bufferMessage message :=
      if_neg fun hq => hup (h.state.symm.trans hq)
    rw [hstays] at hmax hstate ⊢
    refine ⟨⟨hmax, hstate, by rw [hbuffer]; exact le_rfl, fun h => absurd h hup,
      fun h => absurd h hup⟩, ?_⟩
    rw [hbuffer]
    simp [TakesLast, hup]

theorem Passed.enqueueAll {messages : List MqttMessage} (h : Passed messages p q)
    (messages' : List MqttMessage) : Passed (messages ++ messages') p (q.enqueueAll messages') := by
  induction messages' generalizing messages q with
  | nil => simpa [MqttPublisher.enqueueAll] using h
  | cons message messages' ih =>
    have hall := ih (h.enqueue message).1
    rw [List.append_assoc] at hall
    exact hall

/-- Without a capacity the buffer is empty after messages if and only if it was, and there are none,
or the last of them is taken. -/
theorem Passed.enqueueAll_empty_iff {messages : List MqttMessage} (h : Passed messages p q)
    (hempty : q.buffer = [] ↔ TakesLast p.state p.client.room messages)
    (messages' : List MqttMessage) : (q.enqueueAll messages').buffer = [] ↔
      TakesLast p.state p.client.room (messages ++ messages') := by
  obtain rfl | ⟨others, last, rfl⟩ := messages'.eq_nil_or_concat
  · rw [List.append_nil]
    exact hempty
  · have hall : q.enqueueAll (others ++ [last]) = (q.enqueueAll others).enqueue last :=
      List.foldl_append
    have hothers := ((h.enqueueAll others).enqueue last).2
    rw [List.append_assoc] at hothers
    rw [List.concat_eq_append, hall]
    exact hothers

theorem Passed.of_queue {messages : List MqttMessage} {r : MqttPublisher}
    (h : Passed messages p q) (hqueue : r.queue = q.queue) : Passed messages p r := by
  simp only [queue, MessageQueue.mk.injEq] at hqueue
  obtain ⟨hclient, hbuffer, hmax, hstate, -, -⟩ := hqueue
  refine ⟨hmax.trans h.maxBufferSize, hstate.trans h.state, hbuffer ▸ h.length, fun hup => ?_,
    fun hup => hclient ▸ h.room hup⟩
  unfold Spent
  rw [hbuffer, hclient]
  exact h.spent hup

theorem passed_of_enqueues {messages : List MqttMessage} (h : Enqueues messages p q)
    (hmax : p.maxBufferSize = 0) (hempty : p.buffer = []) :
    Passed messages p q ∧ (q.buffer = [] ↔ TakesLast p.state p.client.room messages) := by
  have hrefl : Passed [] p p := .refl hmax (by simp [hempty]) fun _ => spent_of_nil hempty
  have hbuffer : q.buffer = (p.enqueueAll messages).buffer := congrArg MessageQueue.buffer h
  refine ⟨(hrefl.enqueueAll messages).of_queue h, ?_⟩
  rw [hbuffer]
  exact hrefl.enqueueAll_empty_iff (iff_of_true hempty (by simp [TakesLast])) messages

/-- The announcement of a ConnAck without a capacity. -/
theorem passed_publishOnline (hup : p.state = .connected) (hmax : p.maxBufferSize = 0)
    (hempty : p.buffer = []) :
    Passed (p.lwtChargePointId.toList.map .online) p p.publishOnline.flushBuffer ∧
      (p.publishOnline.flushBuffer.buffer = [] ↔
        TakesLast p.state p.client.room (p.lwtChargePointId.toList.map .online)) := by
  cases hlwt : p.lwtChargePointId with
  | none =>
    have hsame : p.publishOnline.flushBuffer = p := by
      unfold publishOnline flushBuffer
      rw [hlwt]
      simp [hempty]
    rw [hsame]
    exact passed_of_enqueues (.of_same rfl) hmax hempty
  | some id =>
    have hfront : (p.announced id).buffer = [p.announcementOf id] := by
      simp [announced, note, hempty]
    obtain ⟨hlength, hroom, htaken⟩ := drainBuffer_single hfront
    have hspent := spent_drainBuffer (p.announced id)
    obtain ⟨hbuffer, hclient⟩ := hspent.flushBuffer
    have hmax' : (p.announced id).drainBuffer.flushBuffer.maxBufferSize = 0 :=
      (acts_flushBuffer (p := (p.announced id).drainBuffer) hup).handOver.maxBufferSize.trans hmax
    have hstate : (p.announced id).drainBuffer.flushBuffer.state = p.state := by
      unfold flushBuffer
      split <;> rfl
    rw [publishOnline_of_lwt hlwt]
    refine ⟨⟨hmax', hstate, hbuffer ▸ hlength, fun _ => ?_, fun _ => ?_⟩, ?_⟩
    · unfold Spent
      rw [hbuffer, hclient]
      exact hspent
    · rw [hclient]
      exact hroom
    · rw [hbuffer]
      refine htaken.trans ?_
      simp only [TakesLast, Option.toList_some, List.map_singleton, List.getLast?_singleton,
        Option.mem_def, Option.some.injEq, forall_eq', hup, true_and]
      refine and_congr_right fun hfree => ?_
      have hone : publishable [MqttMessage.online id] = 1 := publishable_single hfree
      rw [hone]
      rfl

theorem onConnack_empty_iff (hmax : p.maxBufferSize = 0) (hempty : p.buffer = []) :
    (p.onConnack crates).buffer = [] ↔ TakesLast .connected p.client.room
      (p.lwtChargePointId.toList.map .online ++
        p.chargePointState.entries.map fun e => .snapshot crates e.1 e.2) := by
  obtain ⟨r, hr⟩ : ∃ r, r = p.connected.publishOnline.flushBuffer := ⟨_, rfl⟩
  obtain ⟨hpassed, honline⟩ := passed_publishOnline (p := p.connected) rfl hmax hempty
  rw [← hr] at hpassed honline
  have hsnapshots : r.chargePointState = p.chargePointState := by
    rw [hr, ((idle_publishOnline _).trans (idle_flushBuffer _)).chargePointState]
    rfl
  have hbuffer : (p.onConnack crates).buffer = (r.republishSnapshots crates).buffer := by
    rw [hr]
    unfold onConnack trySubscribe
    dsimp only
    split
    · rfl
    · split <;> rfl
  have hqueue := congrArg MessageQueue.buffer (enqueues_republishSnapshots crates r)
  rw [hsnapshots] at hqueue
  rw [hbuffer, show (r.republishSnapshots crates).buffer = _ from hqueue]
  exact hpassed.enqueueAll_empty_iff honline _

/-- What a poll that is no ConnAck brings. -/
theorem passed_onPolled {taken : Nat} {event : Polled} (hevent : event ≠ .connAck)
    (hstage : p.stage = .running) (hmax : p.maxBufferSize = 0) (hempty : p.buffer = []) :
    ((p.afterPoll (p.takenOff taken event)).onPolled crates now event).buffer = [] ↔
      p.TakesBrought crates ⟨now, .poll taken event⟩ := by
  cases event with
  | connAck => exact absurd rfl hevent
  | publish topic payload =>
    have henqueues : Enqueues ((p.afterPoll taken).incomingMessages crates now topic payload)
        (p.afterPoll taken) ((p.afterPoll taken).handleIncomingPublish crates now topic payload) :=
      enqueues_handleIncomingPublish topic payload _
    obtain ⟨hpassed, htaken⟩ := passed_of_enqueues henqueues hmax hempty
    have hdrained := drainIfConnected_buffer fun hup => hpassed.spent (hpassed.state.symm.trans hup)
    have hbrought : p.enqueued crates ⟨now, .poll taken (.publish topic payload)⟩ =
        (p.afterPoll taken).incomingMessages crates now topic payload := by
      unfold enqueued
      rw [hstage]
      rfl
    unfold TakesBrought
    rw [hbrought]
    exact (Eq.congr_left hdrained).trans htaken
  | other =>
    refine iff_of_true ?_ (by simp [TakesBrought, announcements, enqueued, TakesLast])
    unfold onPolled
    dsimp only
    split
    · rename_i hup
      have hsent : (p.afterPoll taken).trySubscribe.buffer = [] := by
        unfold trySubscribe
        split
        · exact hempty
        · split <;> exact hempty
      exact (spent_of_nil hsent).drainBuffer.1.trans hsent
    · exact hempty
  | error =>
    refine iff_of_true ?_ (by simp [TakesBrought, announcements, enqueued, TakesLast])
    unfold onPolled onPollError
    dsimp only
    split <;> exact hempty

/-- Without a capacity a step keeps the buffer empty if and only if the client takes what it
brings. -/
theorem empty_iff_of_step {ev : PublisherEvent} (hs : step crates p ev = some q)
    (hmax : p.maxBufferSize = 0) (hempty : p.buffer = []) :
    q.buffer = [] ↔ p.TakesBrought crates ev := by
  have hnothing (hnone : p.announcements ev = []) (hmessages : p.enqueued crates ev = [])
      (hq : q.buffer = []) : q.buffer = [] ↔ p.TakesBrought crates ev := by
    refine iff_of_true hq ?_
    unfold TakesBrought TakesLast
    rw [hnone, hmessages]
    simp
  obtain ⟨now, input⟩ := ev
  have hstepped := stepped_of_step hs
  have hconnack (taken : Nat) : ((p.afterPoll taken).onConnack crates).buffer = [] ↔
      p.TakesBrought crates ⟨now, .poll taken .connAck⟩ := by
    have hbrought : p.enqueued crates ⟨now, .poll taken .connAck⟩ =
        p.chargePointState.entries.map fun e => .snapshot crates e.1 e.2 := by
      simp [enqueued]
    have hannounced : (p.announcements ⟨now, .poll taken .connAck⟩).map Prod.fst =
        p.lwtChargePointId.toList.map .online := by
      simp [announcements, Function.comp_def]
    unfold TakesBrought
    rw [hbrought, hannounced]
    exact onConnack_empty_iff (p := p.afterPoll taken) hmax hempty
  cases hstepped with
  | world => exact hnothing rfl (by simp [enqueued]) hempty
  | enqueue message =>
    have hbrought : p.enqueued crates ⟨now, .enqueue message⟩ = [message] := by simp [enqueued]
    unfold TakesBrought
    rw [hbrought]
    exact (passed_of_enqueues (enqueues_enqueue message p) hmax hempty).2
  | startup => exact hnothing rfl (by simp [enqueued]) hempty
  | startupTimeout => exact hnothing rfl (by simp [enqueued]) hempty
  | started taken hstage => exact hconnack taken
  | waited taken event backoff hstage hevent =>
    refine hnothing ?_ ?_ hempty
    · cases event <;> first | exact absurd rfl hevent | rfl
    · cases event <;> first | exact absurd rfl hevent | simp [enqueued, hstage]
  | polled taken event hstage =>
    by_cases hevent : event = .connAck
    · subst hevent
      exact hconnack taken
    · exact passed_onPolled hevent hstage hmax hempty
  | handled event hstage =>
    have hbrought : p.enqueued crates ⟨now, .event (some event)⟩ =
        p.eventMessages crates now event := by simp [enqueued, hstage]
    unfold TakesBrought
    rw [hbrought]
    exact (passed_of_enqueues (enqueues_handleEvent event p) hmax hempty).2
  | stopped => exact hnothing rfl (by simp [enqueued]) hempty

end

end MqttPublisher

end OcppProxy

import OcppProxy.PublisherSteps

/-!
# What the publisher enqueues

`enqueued` reads off a step which messages it brings, `announcements` what a ConnAck announces.
Apart from the broker connection a handler does nothing to the queue but to enqueue its messages one
after another, so the log has exactly these, and what it calls accepted is what the client was
given.
-/

namespace OcppProxy

def ClientRequest.message? : ClientRequest → Option MqttMessage
  | publish message => some message
  | subscribe _ => none

namespace MqttMessage

def online (id : String) : MqttMessage :=
  { topic := availabilityTopic id, payload := "online", qos := .atLeastOnce, retain := true }

def snapshot (crates : Crates) (id : String) (st : ChargePointState) : MqttMessage :=
  { topic := chargePointStateTopic id, payload := crates.toText st.toJson, qos := .atLeastOnce
    retain := true }

def commandResult (crates : Crates) (id : String) (result : CommandResult) : MqttMessage :=
  { topic := commandResultTopic id, payload := crates.toText result.toJson, qos := .atLeastOnce
    retain := false }

def forwarded (crates : Crates) (id : String) (frame : OcppFrame) (direction : Direction)
    (action : String) : MqttMessage :=
  { topic := messageTopic id (directionStr direction) action
    payload := crates.toText (MqttPublisher.messagePayload crates frame), qos := .atLeastOnce
    retain := false }

def status (crates : Crates) (id : String) (upstream downstream : ConnectionState) : MqttMessage :=
  { topic := statusTopic id
    payload := crates.toText (MqttPublisher.statusPayload upstream downstream)
    qos := .atLeastOnce, retain := true }

/-- A snapshot goes out only if it changed. -/
def changed (crates : Crates) (id : String) (folded : Bool × ChargePointState) :
    List MqttMessage :=
  if folded.1 then [snapshot crates id folded.2] else []

end MqttMessage

namespace MqttPublisher

/-! ## The messages of a step -/

section
variable (crates : Crates) (now : Time) (id : String)

def resultMessages (result : CommandResult) (p : MqttPublisher) : List MqttMessage :=
  .commandResult crates id result ::
    MqttMessage.changed crates id ((p.snapshotOf id).applyCommandResult crates now result)

/-- A request that is handed on brings no message, one that is not is answered. -/
def dispatchMessages (request : CommandRequest) (p : MqttPublisher) : List MqttMessage :=
  match p.commandRouter with
  | none => p.resultMessages crates now id (.forRequest crates now request .rejected
      (some "charger commands are disabled on this proxy"))
  | some router =>
    match router.dispatch p.inboxes id request with
    | .ok _ => []
    | .error e => p.resultMessages crates now id
        (.forRequest crates now request (refusalOf e).1 (some (refusalOf e).2))

end

section
variable (crates : Crates) (now : Time)

def incomingMessages (topic : String) (payload : ByteArray) (p : MqttPublisher) :
    List MqttMessage :=
  match parseCommandTopic topic with
  | none => []
  | some (id, kind) =>
    match parseCommandPayload crates now kind payload with
    | .error reason => p.resultMessages crates now id (.invalidPayload crates now reason)
    | .ok request => p.dispatchMessages crates now id request

def eventMessages (event : MqttEvent) (p : MqttPublisher) : List MqttMessage :=
  match event with
  | .messageForwarded id frame direction action =>
    .forwarded crates id frame direction action ::
      MqttMessage.changed crates id
        ((p.snapshotOf id).apply crates now action frame.messageType frame.raw)
  | .stateChange id upstream downstream =>
    .status crates id upstream downstream ::
      if upstream = .connected ∧ downstream = .connected ∧ !p.wasUp id then
        (p.limitToReapply id).elim [] fun limitA =>
          p.dispatchMessages crates now id (reapplyRequest now limitA)
      else []
  | .commandResult id result => p.resultMessages crates now id result

end

/-- The messages a step enqueues, in order: a caller's, a handler's, or the snapshots that a ConnAck
republishes. -/
def enqueued (crates : Crates) (p : MqttPublisher) (ev : PublisherEvent) : List MqttMessage :=
  match p.stage, ev.input with
  | _, .enqueue message => [message]
  | .running, .event (some event) => p.eventMessages crates ev.now event
  | .running, .poll _ (.publish topic payload) => p.incomingMessages crates ev.now topic payload
  | _, .poll _ .connAck => p.chargePointState.entries.map fun e => .snapshot crates e.1 e.2
  | _, _ => []

/-- What a step announces, and ahead of which messages. -/
def announcements (p : MqttPublisher) (ev : PublisherEvent) : List (MqttMessage × List Waiting) :=
  match ev.input with
  | .poll _ .connAck => p.lwtChargePointId.toList.map fun id => (.online id, p.buffer)
  | _ => []

def polledRequests (p : MqttPublisher) (ev : PublisherEvent) : List ClientRequest :=
  match ev.input with
  | .poll taken event => p.client.requests.take (p.takenOff taken event)
  | _ => []

/-! ## The queue -/

structure MessageQueue where
  client : AsyncClient
  buffer : List Waiting
  maxBufferSize : Nat
  state : ConnectionState
  nextSerial : Nat
  log : List PublisherEntry

def queue (p : MqttPublisher) : MessageQueue :=
  ⟨p.client, p.buffer, p.maxBufferSize, p.state, p.nextSerial,
    p.log.filter PublisherEntry.isHandOver⟩

def enqueueAll (p : MqttPublisher) (messages : List MqttMessage) : MqttPublisher :=
  messages.foldl (fun p message => p.enqueue message) p

/-- From `p` to `q` the messages are enqueued, and nothing else happens to the queue. -/
def Enqueues (messages : List MqttMessage) (p q : MqttPublisher) : Prop :=
  q.queue = (p.enqueueAll messages).queue

section
variable {crates : Crates} {now : Time} {p q r : MqttPublisher} {id : String}
  {messages messages' : List MqttMessage}

/-- What the buffer does depends on the queue alone. -/
theorem queue_enqueue (h : q.queue = p.queue) (message : MqttMessage) :
    (q.enqueue message).queue = (p.enqueue message).queue := by
  simp only [queue, MessageQueue.mk.injEq] at h
  obtain ⟨hclient, hbuffer, hmax, hstate, hserial, hlog⟩ := h
  unfold enqueue drainIfConnected bufferMessage note queue
  simp only [hbuffer, hmax, hserial, hstate]
  split
  · simp [drainBuffer, note, hclient, hlog, List.filter_append]
  · simp [hclient, hlog, List.filter_append]

theorem queue_enqueueAll (h : q.queue = p.queue) (messages : List MqttMessage) :
    (q.enqueueAll messages).queue = (p.enqueueAll messages).queue := by
  induction messages generalizing p q with
  | nil => exact h
  | cons message messages ih => exact ih (queue_enqueue h message)

theorem Enqueues.of_same (h : q.queue = p.queue) : Enqueues [] p q := h

theorem enqueues_enqueue (message : MqttMessage) (p : MqttPublisher) :
    Enqueues [message] p (p.enqueue message) := rfl

theorem Enqueues.trans (h : Enqueues messages p q) (h' : Enqueues messages' q r) :
    Enqueues (messages ++ messages') p r := by
  have hall : p.enqueueAll (messages ++ messages') = (p.enqueueAll messages).enqueueAll messages' :=
    List.foldl_append
  unfold Enqueues
  rw [hall, h', queue_enqueueAll h]

/-! ### The handlers -/

theorem enqueues_storeSnapshot (folded : Bool × ChargePointState) (p : MqttPublisher) :
    Enqueues (MqttMessage.changed crates id folded) p (p.storeSnapshot crates id folded) := by
  unfold storeSnapshot MqttMessage.changed
  split
  · have hsaved : Enqueues [] p { p with
        chargePointState := p.chargePointState.insert id folded.2
        snapshotStore := p.snapshotStore.save (p.chargePointState.insert id folded.2) } :=
      .of_same rfl
    exact hsaved.trans (enqueues_enqueue _ _)
  · exact .of_same rfl

theorem snapshotOf_enqueue (message : MqttMessage) (p : MqttPublisher) :
    (p.enqueue message).snapshotOf = p.snapshotOf := by
  funext id
  unfold snapshotOf
  rw [(idle_enqueue message p).chargePointState]

theorem enqueues_publishCommandResult (result : CommandResult) (p : MqttPublisher) :
    Enqueues (p.resultMessages crates now id result) p
      (p.publishCommandResult crates now id result) := by
  obtain ⟨u, hu⟩ : ∃ u, u = p.enqueue (.commandResult crates id result) := ⟨_, rfl⟩
  have hqueued : Enqueues [.commandResult crates id result] p (u.note [.folded id result]) := by
    refine Eq.trans ?_ (hu ▸ rfl : u.queue = _)
    simp [queue, note, PublisherEntry.isHandOver]
  have hsnapshot : u.snapshotOf id = p.snapshotOf id := hu ▸ congrFun (snapshotOf_enqueue _ p) id
  have hstored : Enqueues (p.resultMessages crates now id result) p
      ((u.note [.folded id result]).storeSnapshot crates id
        ((u.snapshotOf id).applyCommandResult crates now result)) := by
    rw [hsnapshot]
    exact hqueued.trans (enqueues_storeSnapshot _ _)
  rw [hu] at hstored
  exact hstored

theorem enqueues_dispatchCommand (request : CommandRequest) (p : MqttPublisher) :
    Enqueues (p.dispatchMessages crates now id request) p
      (p.dispatchCommand crates now id request) := by
  cases hrouter : p.commandRouter with
  | none =>
    simp only [dispatchCommand, dispatchMessages, hrouter]
    exact enqueues_publishCommandResult _ p
  | some router =>
    cases hsend : router.dispatch p.inboxes id request with
    | ok inboxes =>
      simp only [dispatchCommand, dispatchMessages, hrouter, hsend]
      refine .of_same ?_
      simp [queue, note, PublisherEntry.isHandOver]
    | error e =>
      obtain ⟨u, hu⟩ : ∃ u, u = p.note [.dispatched id request (.error e)] := ⟨_, rfl⟩
      have hnoted : Enqueues [] p u := by
        refine .of_same ?_
        simp [hu, queue, note, PublisherEntry.isHandOver]
      have hsame (result : CommandResult) :
          p.resultMessages crates now id result = u.resultMessages crates now id result := by
        rw [hu]
        rfl
      simp only [dispatchCommand, dispatchMessages, hrouter, hsend, ← hu, hsame]
      exact hnoted.trans (enqueues_publishCommandResult _ u)

theorem enqueues_handleIncomingPublish (topic : String) (payload : ByteArray) (p : MqttPublisher) :
    Enqueues (p.incomingMessages crates now topic payload) p
      (p.handleIncomingPublish crates now topic payload) := by
  cases htopic : parseCommandTopic topic with
  | none =>
    simp only [handleIncomingPublish, incomingMessages, htopic]
    exact .of_same rfl
  | some command =>
    obtain ⟨id, kind⟩ := command
    cases hpayload : parseCommandPayload crates now kind payload with
    | error reason =>
      simp only [handleIncomingPublish, incomingMessages, htopic, hpayload]
      exact enqueues_publishCommandResult _ p
    | ok request =>
      simp only [handleIncomingPublish, incomingMessages, htopic, hpayload]
      exact enqueues_dispatchCommand _ p

theorem enqueues_maybeReapplyLimit (p : MqttPublisher) :
    Enqueues ((p.limitToReapply id).elim [] fun limitA =>
        p.dispatchMessages crates now id (reapplyRequest now limitA)) p
      (p.maybeReapplyLimit crates now id) := by
  unfold maybeReapplyLimit
  cases p.limitToReapply id with
  | none => exact .of_same rfl
  | some limitA => exact enqueues_dispatchCommand _ p

theorem enqueues_handleEvent (event : MqttEvent) (p : MqttPublisher) :
    Enqueues (p.eventMessages crates now event) p (p.handleEvent crates now event) := by
  cases event with
  | messageForwarded id frame direction action =>
    obtain ⟨u, hu⟩ : ∃ u, u = p.enqueue (.forwarded crates id frame direction action) := ⟨_, rfl⟩
    have hsnapshot : u.snapshotOf id = p.snapshotOf id := hu ▸ congrFun (snapshotOf_enqueue _ p) id
    have hstored : Enqueues (p.eventMessages crates now (.messageForwarded id frame direction
        action)) p (u.storeSnapshot crates id
          ((u.snapshotOf id).apply crates now action frame.messageType frame.raw)) := by
      rw [hsnapshot]
      have hqueued : Enqueues [.forwarded crates id frame direction action] p u :=
        hu ▸ enqueues_enqueue _ p
      exact hqueued.trans (enqueues_storeSnapshot _ u)
    rw [hu] at hstored
    exact hstored
  | stateChange id upstream downstream =>
    obtain ⟨u, hu⟩ : ∃ u, u = p.enqueue (.status crates id upstream downstream) := ⟨_, rfl⟩
    have hidle : Idle p u := hu ▸ idle_enqueue _ p
    have hqueued : Enqueues [.status crates id upstream downstream] p
        { u with linkState := u.linkState.insert id (upstream, downstream) } := by
      rw [hu]
      exact enqueues_enqueue _ p
    have hup : u.wasUp id = p.wasUp id := by
      unfold wasUp
      rw [hidle.linkState]
    have hlimit : ({ u with linkState := u.linkState.insert id (upstream, downstream) } :
        MqttPublisher).limitToReapply id = p.limitToReapply id := by
      unfold limitToReapply
      dsimp only
      rw [hidle.charging, hidle.chargePointState]
    obtain ⟨v, hv⟩ : ∃ v : MqttPublisher, v =
        { u with linkState := u.linkState.insert id (upstream, downstream) } := ⟨_, rfl⟩
    rw [← hv] at hqueued hlimit
    have hhandled : p.handleEvent crates now (.stateChange id upstream downstream) =
        if upstream = .connected ∧ downstream = .connected ∧ !p.wasUp id then
          v.maybeReapplyLimit crates now id else v := by
      rw [hv, ← hup, hu]
      rfl
    -- the link states are not what a dispatch looks at
    have hsent (request : CommandRequest) : v.dispatchMessages crates now id request =
        p.dispatchMessages crates now id request := by
      unfold dispatchMessages resultMessages snapshotOf
      rw [hv, hidle.commandRouter, hidle.inboxes, hidle.chargePointState]
    rw [hhandled, eventMessages]
    split
    · have hreapplied := @enqueues_maybeReapplyLimit crates now id v
      simp only [hlimit, hsent] at hreapplied
      exact hqueued.trans hreapplied
    · exact hqueued
  | commandResult id result => exact enqueues_publishCommandResult result p

theorem enqueues_republishSnapshots (crates : Crates) (p : MqttPublisher) :
    Enqueues (p.chargePointState.entries.map fun e => .snapshot crates e.1 e.2) p
      (p.republishSnapshots crates) := by
  unfold Enqueues enqueueAll republishSnapshots
  rw [List.foldl_map]
  rfl

/-! ## The log -/

/-- From `p` to `q` the log takes the messages as entered, and as accepted what the client was
given; nothing is announced. -/
structure Records (messages : List MqttMessage) (p q : MqttPublisher) : Prop where
  entered : (q.trace PublisherEntry.entered?).map Waiting.message =
    (p.trace PublisherEntry.entered?).map Waiting.message ++ messages
  announced : q.trace PublisherEntry.announced? = p.trace PublisherEntry.announced?
  accepted : ∃ given, q.client.requests = p.client.requests ++ given ∧
    (q.trace PublisherEntry.accepted?).map Waiting.message =
      (p.trace PublisherEntry.accepted?).map Waiting.message ++
        given.filterMap ClientRequest.message?

theorem Records.of_same (hlog : q.log = p.log) (hclient : q.client = p.client) :
    Records [] p q where
  entered := by simp [trace, hlog]
  announced := by simp [trace, hlog]
  accepted := ⟨[], by simp [hclient], by simp [trace, hlog]⟩

theorem Records.trans (h : Records messages p q) (h' : Records messages' q r) :
    Records (messages ++ messages') p r where
  entered := by rw [h'.entered, h.entered, List.append_assoc]
  announced := h'.announced.trans h.announced
  accepted := by
    obtain ⟨given, hclient, haccepted⟩ := h.accepted
    obtain ⟨given', hclient', haccepted'⟩ := h'.accepted
    refine ⟨given ++ given', by rw [hclient', hclient, List.append_assoc], ?_⟩
    rw [haccepted', haccepted, List.filterMap_append, List.append_assoc]

theorem records_drainBuffer (p : MqttPublisher) : Records [] p p.drainBuffer := by
  obtain ⟨accepted, -, hclient, hlog, -⟩ := p.drainBuffer_spec
  refine ⟨?_, ?_, _, hclient, ?_⟩
  · simp [trace_append _ hlog, List.filterMap_map, PublisherEntry.entered?, Function.comp_def]
  · simp [trace_append _ hlog, List.filterMap_map, PublisherEntry.announced?, Function.comp_def]
  · simp [trace_append _ hlog, List.filterMap_map, PublisherEntry.accepted?,
      ClientRequest.message?, Function.comp_def]

theorem records_drainIfConnected (p : MqttPublisher) : Records [] p p.drainIfConnected := by
  unfold drainIfConnected
  split
  · exact records_drainBuffer p
  · exact .of_same rfl rfl

theorem records_enqueue (message : MqttMessage) (p : MqttPublisher) :
    Records [message] p (p.enqueue message) := by
  have hbuffered : Records [message] p (p.bufferMessage message) := by
    have hclient : (p.bufferMessage message).client.requests = p.client.requests ++ [] :=
      (List.append_nil _).symm
    obtain ⟨-, ⟨-, hlog⟩ | ⟨front, rest, -, -, -, hlog⟩⟩ := p.bufferMessage_cases message
    · refine ⟨?_, ?_, [], hclient, ?_⟩ <;>
        simp [trace_append _ hlog, PublisherEntry.entered?, PublisherEntry.announced?,
          PublisherEntry.accepted?]
    · refine ⟨?_, ?_, [], hclient, ?_⟩ <;>
        simp [trace_append _ hlog, PublisherEntry.entered?, PublisherEntry.announced?,
          PublisherEntry.accepted?, List.filterMap_cons]
  exact hbuffered.trans (records_drainIfConnected _)

theorem records_enqueueAll (messages : List MqttMessage) (p : MqttPublisher) :
    Records messages p (p.enqueueAll messages) := by
  induction messages generalizing p with
  | nil => exact .of_same rfl rfl
  | cons message messages ih => exact (records_enqueue message p).trans (ih _)

/-- What is about the buffer is in the log of the queue. -/
theorem trace_queue {α : Type} {f : PublisherEntry → Option α}
    (hf : ∀ e : PublisherEntry, e.isHandOver = false → f e = none) (p : MqttPublisher) :
    p.trace f = p.queue.log.filterMap f := by
  unfold trace queue
  rw [List.filterMap_filter]
  refine List.filterMap_congr fun e _ => ?_
  cases he : e.isHandOver with
  | true => rfl
  | false => simp [hf e he]

theorem Enqueues.records (h : Enqueues messages p q) : Records messages p q := by
  have htrace {α : Type} {f : PublisherEntry → Option α}
      (hf : ∀ e : PublisherEntry, e.isHandOver = false → f e = none) :
      q.trace f = (p.enqueueAll messages).trace f := by
    rw [trace_queue hf, trace_queue hf, h]
  have hclient : q.client = (p.enqueueAll messages).client := congrArg MessageQueue.client h
  obtain ⟨hentered, hannounced, haccepted⟩ := records_enqueueAll messages p
  refine ⟨?_, ?_, ?_⟩
  · rw [htrace fun e he => by cases e <;> first | rfl | cases he]
    exact hentered
  · rw [htrace fun e he => by cases e <;> first | rfl | cases he]
    exact hannounced
  · rw [htrace (fun e he => by cases e <;> first | rfl | cases he), hclient]
    exact haccepted

theorem records_flushBuffer (p : MqttPublisher) : Records [] p p.flushBuffer := by
  unfold flushBuffer
  split
  · exact .of_same rfl rfl
  · have hstarted : Records [] p { p with flushInProgress := some 0 } := .of_same rfl rfl
    exact hstarted.trans (records_drainBuffer _)

theorem records_trySubscribe (p : MqttPublisher) : Records [] p p.trySubscribe := by
  unfold trySubscribe
  split
  · exact .of_same rfl rfl
  · split
    · rename_i client hsend
      refine ⟨by simp [trace], rfl, _, ((trySend_eq_some _).mp hsend).2, ?_⟩
      simp [trace, ClientRequest.message?]
    · exact .of_same rfl rfl

/-! ## Steps and runs -/

structure Recorded (crates : Crates) (p : MqttPublisher) (ev : PublisherEvent) (q : MqttPublisher) :
    Prop where
  entered : (q.trace PublisherEntry.entered?).map Waiting.message =
    (p.trace PublisherEntry.entered?).map Waiting.message ++ p.enqueued crates ev
  announced : (q.trace PublisherEntry.announced?).map (fun a => (a.1.message, a.2)) =
    (p.trace PublisherEntry.announced?).map (fun a => (a.1.message, a.2)) ++ p.announcements ev
  accepted : ∃ given, p.polledRequests ev ++ q.client.requests = p.client.requests ++ given ∧
    (q.trace PublisherEntry.accepted?).map Waiting.message =
      (p.trace PublisherEntry.accepted?).map Waiting.message ++
        given.filterMap ClientRequest.message?

/-- A step that is no ConnAck, after its poll. -/
theorem Records.recorded {ev : PublisherEvent} {taken : Nat}
    (h : Records messages (p.afterPoll taken) q) (hmessages : p.enqueued crates ev = messages)
    (hnone : p.announcements ev = [])
    (hpolled : p.polledRequests ev = p.client.requests.take taken) : Recorded crates p ev q where
  entered := by
    rw [hmessages]
    exact h.entered
  announced := by
    rw [hnone, List.append_nil, h.announced]
    rfl
  accepted := by
    obtain ⟨given, hclient, haccepted⟩ := h.accepted
    refine ⟨given, ?_, haccepted⟩
    rw [hpolled, hclient, ← List.append_assoc]
    exact congrArg (· ++ given) (List.take_append_drop taken _)

/-- A step without a poll. -/
theorem Records.recorded_unpolled {ev : PublisherEvent} (h : Records messages p q)
    (hmessages : p.enqueued crates ev = messages) (hnone : p.announcements ev = [])
    (hpolled : p.polledRequests ev = []) : Recorded crates p ev q := by
  have hsame : Records [] (p.afterPoll 0) p := by
    refine ⟨by simp [trace, afterPoll], by simp [trace, afterPoll], [], ?_, ?_⟩
    · simp [afterPoll, AsyncClient.polled]
    · simp [trace, afterPoll]
  exact (hsame.trans h).recorded hmessages hnone (by simp [hpolled])

/-- The announcement goes ahead of what waits, and no message is enqueued. -/
theorem recorded_publishOnline (hstate : p.state = .connected) :
    p.publishOnline.trace PublisherEntry.entered? = p.trace PublisherEntry.entered? ∧
      (p.publishOnline.trace PublisherEntry.announced?).map (fun a => (a.1.message, a.2)) =
        (p.trace PublisherEntry.announced?).map (fun a => (a.1.message, a.2)) ++
          p.lwtChargePointId.toList.map (fun id => (.online id, p.buffer)) ∧
      ∃ given, p.publishOnline.client.requests = p.client.requests ++ given ∧
        (p.publishOnline.trace PublisherEntry.accepted?).map Waiting.message =
          (p.trace PublisherEntry.accepted?).map Waiting.message ++
            given.filterMap ClientRequest.message? := by
  cases hlwt : p.lwtChargePointId with
  | none =>
    have hsame : p.publishOnline = p := by
      unfold publishOnline
      rw [hlwt]
    rw [hsame]
    exact ⟨rfl, by simp, [], by simp, by simp⟩
  | some id =>
    rw [publishOnline_of_lwt hlwt]
    obtain ⟨accepted, -, hclient, hlog, -⟩ := (p.announced id).drainBuffer_spec
    have hlog' : (p.announced id).drainBuffer.log = p.log ++
        (.announced (p.announcementOf id) p.buffer :: accepted.map fun w =>
          .accepted w .connected) := by
      rw [hlog, ← hstate]
      simp [announced, note]
    refine ⟨?_, ?_, _, hclient, ?_⟩
    · simp [trace_append _ hlog', List.filterMap_cons, List.filterMap_map,
        PublisherEntry.entered?, Function.comp_def]
    · simp [trace_append _ hlog', List.filterMap_map, PublisherEntry.announced?, Function.comp_def,
        announcementOf, MqttMessage.online]
    · simp [trace_append _ hlog', List.filterMap_cons, List.filterMap_map,
        PublisherEntry.accepted?, Function.comp_def, ClientRequest.message?]

/-- A ConnAck announces the connection and republishes the snapshots. -/
theorem recorded_onConnack {ev : PublisherEvent} {taken : Nat}
    (hinput : ev.input = .poll taken .connAck) :
    Recorded crates p ev ((p.afterPoll taken).onConnack crates) := by
  obtain ⟨u, hu⟩ : ∃ u, u = (p.afterPoll taken).connected := ⟨_, rfl⟩
  obtain ⟨hentered, hannounced, given, hclient, haccepted⟩ :=
    @recorded_publishOnline u (hu ▸ rfl)
  have hsnapshots : u.publishOnline.flushBuffer.chargePointState = p.chargePointState :=
    ((idle_publishOnline _).trans (idle_flushBuffer _)).chargePointState.trans (hu ▸ rfl)
  have hrest : Records (p.chargePointState.entries.map fun e => .snapshot crates e.1 e.2)
      u.publishOnline ((p.afterPoll taken).onConnack crates) := by
    have hrepublished := (enqueues_republishSnapshots crates u.publishOnline.flushBuffer).records
    have hdue (r : MqttPublisher) :
        Records [] r { r with subscribePending := r.commandRouter.isSome } := .of_same rfl rfl
    have hall := (((records_flushBuffer _).trans hrepublished).trans (hdue _)).trans
      (records_trySubscribe _)
    rw [List.nil_append, List.append_nil, List.append_nil, hsnapshots] at hall
    rw [hu] at hall ⊢
    exact hall
  have hmessages : p.enqueued crates ev =
      p.chargePointState.entries.map fun e => .snapshot crates e.1 e.2 := by
    simp [enqueued, hinput]
  have hnew : p.announcements ev = u.lwtChargePointId.toList.map
      fun id => (.online id, u.buffer) := by
    rw [announcements, hinput, hu]
    rfl
  have hpolled : p.polledRequests ev ++ u.client.requests = p.client.requests := by
    rw [polledRequests, hinput, hu]
    exact List.take_append_drop taken _
  obtain ⟨given', hclient', haccepted'⟩ := hrest.accepted
  refine ⟨?_, ?_, given ++ given', ?_, ?_⟩
  · rw [hrest.entered, hentered, hmessages, hu]
    rfl
  · rw [hrest.announced, hannounced, hnew, hu]
    rfl
  · rw [hclient', hclient, List.append_assoc, ← List.append_assoc, hpolled]
  · rw [haccepted', haccepted, List.filterMap_append, List.append_assoc, hu]
    rfl

theorem records_onPolled {event : Polled} (hevent : event ≠ .connAck) (p : MqttPublisher) :
    Records (match event with
      | .publish topic payload => p.incomingMessages crates now topic payload
      | _ => []) p (p.onPolled crates now event) := by
  cases event with
  | connAck => exact absurd rfl hevent
  | publish topic payload =>
    have hall := (enqueues_handleIncomingPublish topic payload p).records.trans
      (records_drainIfConnected (p.handleIncomingPublish crates now topic payload))
    rw [List.append_nil] at hall
    exact hall
  | other =>
    unfold onPolled
    dsimp only
    split
    · exact (records_trySubscribe p).trans (records_drainBuffer _)
    · exact .of_same rfl rfl
  | error =>
    unfold onPolled onPollError
    dsimp only
    split <;> exact .of_same rfl rfl

theorem recorded_of_step {ev : PublisherEvent} (h : step crates p ev = some q) :
    Recorded crates p ev q := by
  obtain ⟨now, input⟩ := ev
  have hstepped := stepped_of_step h
  cases hstepped with
  | world =>
    exact Records.recorded_unpolled (.of_same rfl rfl) (by simp [enqueued]) rfl rfl
  | enqueue message =>
    exact (records_enqueue message p).recorded_unpolled (by simp [enqueued]) rfl rfl
  | startup =>
    exact Records.recorded_unpolled (.of_same rfl rfl) (by simp [enqueued]) rfl rfl
  | startupTimeout =>
    exact Records.recorded_unpolled (.of_same rfl rfl) (by simp [enqueued]) rfl rfl
  | started taken hstage =>
    have hconnack : Recorded crates p ⟨now, .poll taken .connAck⟩
        ((p.afterPoll taken).onConnack crates) := recorded_onConnack rfl
    exact ⟨hconnack.entered, hconnack.announced, hconnack.accepted⟩
  | waited taken event backoff hstage hevent =>
    have hwaited : Records [] (p.afterPoll (p.takenOff taken event))
        { p.afterPoll (p.takenOff taken event) with backoff } := .of_same rfl rfl
    refine hwaited.recorded ?_ ?_ rfl
    · cases event <;> first | exact absurd rfl hevent | simp [enqueued, hstage]
    · cases event <;> first | exact absurd rfl hevent | rfl
  | polled taken event hstage =>
    by_cases hevent : event = .connAck
    · subst hevent
      exact recorded_onConnack rfl
    · refine (records_onPolled hevent _).recorded ?_ ?_ rfl
      · cases event with
        | connAck => exact absurd rfl hevent
        | publish topic payload =>
          simp only [enqueued, hstage]
          rfl
        | other => simp [enqueued]
        | error => simp [enqueued]
      · cases event <;> first | exact absurd rfl hevent | rfl
  | handled event hstage =>
    exact (enqueues_handleEvent event p).records.recorded_unpolled (by simp [enqueued, hstage]) rfl
      rfl
  | stopped =>
    exact Records.recorded_unpolled (.of_same rfl rfl) (by simp [enqueued]) rfl rfl

/-- In a run the log takes what its steps enqueue and announce, in order, and as accepted what the
event loop took off the channel and what is in it. -/
theorem recorded_of_run {events : List PublisherEvent} (hrun : (step crates).run p events = some q)
    (hlog : p.log = []) (hclient : p.client.requests = []) :
    (q.trace PublisherEntry.entered?).map Waiting.message =
        (step crates).outputs (enqueued crates) p events ∧
      (q.trace PublisherEntry.announced?).map (fun a => (a.1.message, a.2)) =
        (step crates).outputs announcements p events ∧
      (q.trace PublisherEntry.accepted?).map Waiting.message =
        ((step crates).outputs polledRequests p events ++ q.client.requests).filterMap
          ClientRequest.message? := by
  have hentered := (step crates).outputs_eq (enqueued crates)
    (g := fun p => (p.trace PublisherEntry.entered?).map Waiting.message)
    (fun s ev t _ hs => (recorded_of_step hs).entered) hrun ((step crates).meets_true p events)
  have hannounced := (step crates).outputs_eq announcements
    (g := fun p => (p.trace PublisherEntry.announced?).map fun a => (a.1.message, a.2))
    (fun s ev t _ hs => (recorded_of_step hs).announced) hrun ((step crates).meets_true p events)
  have haccepted := (step crates).outputs_invariant (f := polledRequests)
    (T := fun p polled => (p.trace PublisherEntry.accepted?).map Waiting.message =
      (polled ++ p.client.requests).filterMap ClientRequest.message?) (l := [])
    (fun s ev t polled hs hT => by
      obtain ⟨given, hgiven, hmessages⟩ := (recorded_of_step hs).accepted
      rw [hmessages, hT, List.append_assoc, hgiven, ← List.append_assoc, List.filterMap_append,
        List.filterMap_append]
      simp) hrun (by simp [trace, hlog, hclient])
  refine ⟨?_, ?_, haccepted⟩
  · rw [hentered]
    simp [trace, hlog]
  · rw [hannounced]
    simp [trace, hlog]

end

end MqttPublisher

end OcppProxy

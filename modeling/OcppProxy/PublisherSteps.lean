import OcppProxy.Library.Outbox
import OcppProxy.Publisher

/-!
# What the publisher's handlers do

A handler that is not about the broker connection only enqueues messages and changes fields that the
buffer does not depend on (`Work`). `HandOver` says what any handler does to the buffer, as moves of
an outbox.
-/

namespace OcppProxy

open Relation (ReflTransGen)

namespace PublisherEntry

def entered? : PublisherEntry → Option Waiting
  | entered w => some w
  | _ => none

def announced? : PublisherEntry → Option (Waiting × List Waiting)
  | announced w backlog => some (w, backlog)
  | _ => none

def accepted? : PublisherEntry → Option Waiting
  | accepted w _ => some w
  | _ => none

def evicted? : PublisherEntry → Option Waiting
  | evicted w _ => some w
  | _ => none

def dispatched? : PublisherEntry → Option (String × CommandRequest)
  | dispatched id request _ => some (id, request)
  | _ => none

def folded? : PublisherEntry → Option (String × CommandResult)
  | folded id result => some (id, result)
  | _ => none

def isHandOver : PublisherEntry → Bool
  | dispatched .. | folded .. => false
  | _ => true

/-- The client accepts messages while connected, and the buffer gives up its front when it holds
`maxBufferSize` messages or more. -/
def Sound (maxBufferSize : Nat) : PublisherEntry → Prop
  | accepted _ state => state = .connected
  | evicted w buffer => buffer.head? = some w ∧ maxBufferSize ≤ buffer.length
  | _ => True

end PublisherEntry

def Waiting.isEntry (w : Waiting) : Bool := decide (w.origin = .enqueued)

namespace MqttPublisher

def trace {α : Type} (f : PublisherEntry → Option α) (p : MqttPublisher) : List α :=
  p.log.filterMap f

def outbox (p : MqttPublisher) : Outbox Waiting where
  buffer := p.buffer
  accepted := p.trace PublisherEntry.accepted?
  evicted := p.trace PublisherEntry.evicted?
  entered := p.trace PublisherEntry.entered?
  announced := p.trace PublisherEntry.announced?

/-! ## The client and the buffer -/

section
variable (client : AsyncClient) (p : MqttPublisher) (message : MqttMessage)

theorem trySend_eq_some {client' : AsyncClient} {request : ClientRequest} :
    client.trySend request = some client' ↔
      client.requests.length < requestChannelCapacity ∧
        client'.requests = client.requests ++ [request] := by
  rcases client' with ⟨requests, hle⟩
  unfold AsyncClient.trySend
  split
  · simp [*, eq_comm]
  · simp [*]

theorem tryPublish_eq_some {client' : AsyncClient} :
    client.tryPublish message = some client' ↔ hasWildcard message.topic = false ∧
      client.requests.length < requestChannelCapacity ∧
        client'.requests = client.requests ++ [.publish message] := by
  unfold AsyncClient.tryPublish
  split
  · simp [*]
  · simp [*, trySend_eq_some]

theorem tryPublish_eq_none :
    client.tryPublish message = none ↔
      hasWildcard message.topic = true ∨ client.isFull = true := by
  unfold AsyncClient.tryPublish AsyncClient.trySend AsyncClient.isFull
  cases hasWildcard message.topic with
  | true => simp
  | false =>
    simp only [Bool.false_eq_true, if_false, false_or, decide_eq_true_eq]
    split
    · simp; omega
    · simp; omega

/-- A hand-over passes a prefix of the buffer to the channel, in order, and stops at a refusal. -/
theorem handOver_spec (buffer : List Waiting) : ∃ accepted rest,
    (handOver client buffer).1 = accepted ∧ (handOver client buffer).2.1 = rest ∧
      buffer = accepted ++ rest ∧
      (handOver client buffer).2.2.requests =
        client.requests ++ accepted.map (fun w => .publish w.message) ∧
      (∀ w ∈ accepted, hasWildcard w.message.topic = false) ∧
      (rest = [] ∨ (handOver client buffer).2.2.isFull = true ∨
        ∃ w ∈ rest.head?, hasWildcard w.message.topic = true) := by
  induction buffer generalizing client with
  | nil => exact ⟨[], [], rfl, rfl, rfl, by simp [handOver], by simp, .inl rfl⟩
  | cons w buffer ih =>
    cases hsend : client.tryPublish w.message with
    | none =>
      refine ⟨[], w :: buffer, by simp [handOver, hsend], by simp [handOver, hsend], rfl,
        by simp [handOver, hsend], by simp, .inr ?_⟩
      rcases (tryPublish_eq_none _ _).mp hsend with hwild | hfull
      · exact .inr ⟨w, rfl, hwild⟩
      · exact .inl (by simpa [handOver, hsend] using hfull)
    | some client' =>
      obtain ⟨hfree, -, hrequests⟩ := (tryPublish_eq_some _ _).mp hsend
      obtain ⟨accepted, rest, haccepted, hrest, hbuffer, hclient, hclean, hstop⟩ := ih client'
      refine ⟨w :: accepted, rest, by simp [handOver, hsend, haccepted],
        by simp [handOver, hsend, hrest], by simp [hbuffer], ?_, ?_, ?_⟩
      · simp [handOver, hsend, hclient, hrequests]
      · exact List.forall_mem_cons.mpr ⟨hfree, hclean⟩
      · simpa [handOver, hsend] using hstop

/-- What a drain does to the publisher. -/
theorem drainBuffer_spec : ∃ accepted, p.buffer = accepted ++ p.drainBuffer.buffer ∧
    p.drainBuffer.client.requests =
      p.client.requests ++ accepted.map (fun w => .publish w.message) ∧
    p.drainBuffer.log = p.log ++ accepted.map (fun w => .accepted w p.state) ∧
    (∀ w ∈ accepted, hasWildcard w.message.topic = false) ∧
    (p.drainBuffer.buffer = [] ∨ p.drainBuffer.client.isFull = true ∨
      ∃ w ∈ p.drainBuffer.buffer.head?, hasWildcard w.message.topic = true) := by
  obtain ⟨accepted, rest, rfl, rfl, hbuffer, hclient, hclean, hstop⟩ :=
    handOver_spec p.client p.buffer
  exact ⟨_, hbuffer, hclient, rfl, hclean, hstop⟩

end

/-! ## Acts -/

def entryOf (message : MqttMessage) (p : MqttPublisher) : Waiting :=
  { serial := p.nextSerial, origin := .enqueued, message }

def announcementOf (id : String) (p : MqttPublisher) : Waiting :=
  { serial := p.nextSerial, origin := .online
    message := { topic := availabilityTopic id, payload := "online", qos := .atLeastOnce
                 retain := true } }

/-- The announcement is in front, and the client has not been asked. -/
def announced (id : String) (p : MqttPublisher) : MqttPublisher :=
  ({ p with buffer := p.announcementOf id :: p.buffer, nextSerial := p.nextSerial + 1 } :
    MqttPublisher).note [.announced (p.announcementOf id) p.buffer]

/-- One thing the publisher does to its buffer, or beside it. -/
inductive Act : MqttPublisher → MqttPublisher → Prop where
  | buffer (p : MqttPublisher) (message : MqttMessage) : Act p (p.bufferMessage message)
  | drain (p : MqttPublisher) (hstate : p.state = .connected) : Act p p.drainBuffer
  | announce (p : MqttPublisher) (id : String) : Act p (p.announced id)
  /-- Changes that the buffer takes no part in. -/
  | other {p q : MqttPublisher} (hbuffer : q.buffer = p.buffer)
    (hmax : q.maxBufferSize = p.maxBufferSize) (hserial : q.nextSerial = p.nextSerial)
    (hlog : ∃ es, q.log = p.log ++ es ∧ ∀ e ∈ es, e.isHandOver = false) : Act p q

abbrev Acts : MqttPublisher → MqttPublisher → Prop := ReflTransGen Act

/-! ## Hand-over -/

def Numbered (p : MqttPublisher) : Prop := ∀ w ∈ p.outbox.seen, w.serial < p.nextSerial

/-- From `p` to `q` the buffer moves as an outbox, and the log tells how. -/
structure HandOver (p q : MqttPublisher) : Prop where
  maxBufferSize : q.maxBufferSize = p.maxBufferSize
  moves : p.Numbered →
    q.Numbered ∧ ReflTransGen (Outbox.Move Waiting.isEntry) p.outbox q.outbox
  entries : ∃ es, q.log = p.log ++ es ∧ ∀ e ∈ es, e.Sound p.maxBufferSize

section
variable {p q r : MqttPublisher}

theorem HandOver.refl (p : MqttPublisher) : HandOver p p where
  maxBufferSize := rfl
  moves h := ⟨h, .refl⟩
  entries := ⟨[], by simp, by simp⟩

theorem HandOver.trans (h : HandOver p q) (h' : HandOver q r) : HandOver p r where
  maxBufferSize := h'.maxBufferSize.trans h.maxBufferSize
  moves hp := by
    obtain ⟨hq, hmoves⟩ := h.moves hp
    obtain ⟨hr, hmoves'⟩ := h'.moves hq
    exact ⟨hr, hmoves.trans hmoves'⟩
  entries := by
    obtain ⟨es, hlog, hsound⟩ := h.entries
    obtain ⟨es', hlog', hsound'⟩ := h'.entries
    refine ⟨es ++ es', by rw [hlog', hlog, List.append_assoc], fun e he => ?_⟩
    rcases List.mem_append.mp he with he | he
    · exact hsound e he
    · exact h.maxBufferSize ▸ hsound' e he

theorem trace_append {α : Type} (f : PublisherEntry → Option α) {es : List PublisherEntry}
    (h : q.log = p.log ++ es) : q.trace f = p.trace f ++ es.filterMap f := by
  simp only [trace, h, List.filterMap_append]

theorem mem_seen_append {es : List PublisherEntry} (h : q.log = p.log ++ es) (w : Waiting) :
    w ∈ q.outbox.seen ↔ w ∈ p.outbox.seen ∨ w ∈ es.filterMap PublisherEntry.entered? ∨
      w ∈ (es.filterMap PublisherEntry.announced?).map Prod.fst := by
  simp only [Outbox.seen, outbox, trace_append _ h, List.map_append, List.mem_append]
  tauto

/-- Changes that the buffer takes no part in. -/
theorem HandOver.of_other (hbuffer : q.buffer = p.buffer) (hmax : q.maxBufferSize = p.maxBufferSize)
    (hserial : q.nextSerial = p.nextSerial)
    (hlog : ∃ es, q.log = p.log ++ es ∧ ∀ e ∈ es, e.isHandOver = false) : HandOver p q := by
  obtain ⟨es, hlog, hes⟩ := hlog
  have htrace {α : Type} (f : PublisherEntry → Option α)
      (hf : ∀ e : PublisherEntry, e.isHandOver = false → f e = none) : q.trace f = p.trace f := by
    rw [trace_append f hlog, List.filterMap_eq_nil_iff.mpr fun e he => hf e (hes e he),
      List.append_nil]
  have houtbox : q.outbox = p.outbox := by
    unfold outbox
    rw [hbuffer, htrace _ fun e he => ?_, htrace _ fun e he => ?_, htrace _ fun e he => ?_,
      htrace _ fun e he => ?_]
    all_goals cases e <;> first | rfl | cases he
  refine ⟨hmax, fun h => ⟨?_, houtbox ▸ .refl⟩, es, hlog, fun e he => ?_⟩
  · unfold Numbered
    rw [houtbox, hserial]
    exact h
  · have hother := hes e he
    cases e <;> trivial

/-- An outbox accepts what is at its front. -/
theorem moves_accept {α : Type} (isEntry : α → Bool) (o : Outbox α) (xs rest : List α)
    (h : o.buffer = xs ++ rest) : ReflTransGen (Outbox.Move isEntry) o
      { o with buffer := rest, accepted := o.accepted ++ xs } := by
  induction xs generalizing o with
  | nil =>
    obtain rfl : o.buffer = rest := h
    simpa using ReflTransGen.refl
  | cons x xs ih =>
    have hrest := ih { o with buffer := xs ++ rest, accepted := o.accepted ++ [x] } rfl
    simp only [List.append_assoc, List.singleton_append] at hrest
    exact .head (.accept h) hrest

theorem handOver_drainBuffer (p : MqttPublisher) (hstate : p.state = .connected) :
    HandOver p p.drainBuffer := by
  obtain ⟨accepted, hbuffer, -, hlog, -, -⟩ := p.drainBuffer_spec
  have hseen : p.drainBuffer.outbox.seen = p.outbox.seen := by
    simp [Outbox.seen, outbox, trace, hlog, List.filterMap_map, PublisherEntry.entered?,
      PublisherEntry.announced?, Function.comp_def]
  refine ⟨rfl, fun h => ⟨fun w hw => h w (hseen ▸ hw), ?_⟩, _, hlog, ?_⟩
  · have hmoves := moves_accept Waiting.isEntry p.outbox accepted _ hbuffer
    convert hmoves using 1
    simp [outbox, trace, hlog, List.filterMap_map, PublisherEntry.entered?,
      PublisherEntry.announced?, PublisherEntry.accepted?, PublisherEntry.evicted?,
      Function.comp_def]
  · exact List.forall_mem_map.mpr fun _ _ => hstate

/-- The next serial number is new. -/
theorem Numbered.fresh (h : p.Numbered) (origin : Origin) (message : MqttMessage) :
    ({ serial := p.nextSerial, origin, message } : Waiting) ∉ p.outbox.seen :=
  fun hmem => (h _ hmem).ne rfl

/-- An item comes in under the next serial number. -/
theorem Numbered.cons (h : p.Numbered) {w : Waiting} (hw : w.serial = p.nextSerial)
    (hserial : q.nextSerial = p.nextSerial + 1)
    {es : List PublisherEntry} (hlog : q.log = p.log ++ es)
    (hes : ∀ v, v ∈ es.filterMap PublisherEntry.entered? ∨
      v ∈ (es.filterMap PublisherEntry.announced?).map Prod.fst → v = w) : q.Numbered := by
  intro v hv
  rw [hserial]
  rcases (mem_seen_append hlog v).mp hv with hv | hv
  · exact (h v hv).trans (Nat.lt_succ_self _)
  · rw [hes v hv, hw]
    exact Nat.lt_succ_self _

/-- A message joins at the back; a full buffer has given up its front. -/
theorem bufferMessage_cases (message : MqttMessage) (p : MqttPublisher) :
    let w : Waiting := { serial := p.nextSerial, origin := .enqueued, message }
    (p.bufferMessage message).nextSerial = p.nextSerial + 1 ∧
    ((p.bufferMessage message).buffer = p.buffer ++ [w] ∧
        (p.bufferMessage message).log = p.log ++ [.entered w] ∨
      ∃ front rest, p.buffer = front :: rest ∧ p.maxBufferSize ≤ p.buffer.length ∧
        (p.bufferMessage message).buffer = rest ++ [w] ∧
        (p.bufferMessage message).log = p.log ++ [.evicted front p.buffer, .entered w]) := by
  refine ⟨rfl, ?_⟩
  unfold bufferMessage note
  by_cases hfull : p.maxBufferSize ≤ p.buffer.length
  · cases hb : p.buffer with
    | nil => exact .inl (by simp)
    | cons front rest =>
      rw [hb] at hfull
      refine .inr ⟨front, rest, rfl, hfull, ?_⟩
      simp [List.length_cons ▸ hfull]
  · exact .inl (by simp [hfull])

theorem handOver_bufferMessage (message : MqttMessage) (p : MqttPublisher) :
    HandOver p (p.bufferMessage message) := by
  obtain ⟨hserial, hcases⟩ := p.bufferMessage_cases message
  have hmax : (p.bufferMessage message).maxBufferSize = p.maxBufferSize := rfl
  obtain ⟨w, hw⟩ : ∃ w : Waiting, w = { serial := p.nextSerial, origin := .enqueued, message } :=
    ⟨_, rfl⟩
  rw [← hw] at hcases
  have hnew (h : p.Numbered) : w ∉ p.outbox.seen := hw ▸ h.fresh _ _
  have hnumber : w.serial = p.nextSerial := hw ▸ rfl
  have hentry : w.isEntry = true := hw ▸ rfl
  generalize p.bufferMessage message = q at hserial hcases hmax ⊢
  rcases hcases with ⟨hbuffer, hlog⟩ | ⟨front, rest, hfront, hfull, hbuffer, hlog⟩
  · have houtbox : q.outbox = { p.outbox with
        buffer := p.outbox.buffer ++ [w], entered := p.outbox.entered ++ [w] } := by
      simp [outbox, trace, hbuffer, hlog, List.filterMap_append, List.filterMap_cons,
        PublisherEntry.entered?, PublisherEntry.announced?, PublisherEntry.accepted?,
        PublisherEntry.evicted?]
    refine ⟨hmax, fun h => ⟨h.cons hnumber hserial hlog (by simp [PublisherEntry.entered?,
        PublisherEntry.announced?]), ?_⟩, _, hlog, ?_⟩
    · exact houtbox ▸ .single (.enter hentry (hnew h))
    · simp [PublisherEntry.Sound]
  · have houtbox : q.outbox = { p.outbox with
        buffer := rest ++ [w]
        evicted := p.outbox.evicted ++ [front]
        entered := p.outbox.entered ++ [w] } := by
      simp [outbox, trace, hbuffer, hlog, List.filterMap_append, List.filterMap_cons,
        PublisherEntry.entered?, PublisherEntry.announced?, PublisherEntry.accepted?,
        PublisherEntry.evicted?]
    refine ⟨hmax, fun h => ⟨h.cons hnumber hserial hlog (by simp [PublisherEntry.entered?,
        PublisherEntry.announced?]), ?_⟩, _, hlog, ?_⟩
    · have hevict : Outbox.Move Waiting.isEntry p.outbox _ := .evict hfront
      exact houtbox ▸ (ReflTransGen.single hevict).tail (.enter hentry (hnew h))
    · exact List.forall_mem_cons.mpr
        ⟨⟨congrArg List.head? hfront, hfull⟩, by simp [PublisherEntry.Sound]⟩

theorem handOver_announced (id : String) (p : MqttPublisher) : HandOver p (p.announced id) := by
  obtain ⟨w, hw⟩ : ∃ w, w = p.announcementOf id := ⟨_, rfl⟩
  unfold announced
  rw [← hw]
  refine ⟨rfl, fun h => ⟨h.cons (w := w) (hw ▸ rfl) rfl rfl ?_, ?_⟩, _, rfl, ?_⟩
  · simp [PublisherEntry.entered?, PublisherEntry.announced?]
  · convert ReflTransGen.single (@Outbox.Move.announce _ Waiting.isEntry p.outbox w
      (hw ▸ rfl) (hw ▸ h.fresh _ _)) using 1
    simp [outbox, trace, note, PublisherEntry.entered?, PublisherEntry.announced?,
      PublisherEntry.accepted?, PublisherEntry.evicted?, List.filterMap_cons]
  · simp [PublisherEntry.Sound]

theorem Acts.handOver (h : Acts p q) : HandOver p q := by
  induction h with
  | refl => exact .refl p
  | tail _ hact ih =>
    refine ih.trans ?_
    cases hact with
    | buffer message => exact handOver_bufferMessage message _
    | drain hstate => exact handOver_drainBuffer _ hstate
    | announce id => exact handOver_announced id _
    | other hbuffer hmax hserial hlog => exact .of_other hbuffer hmax hserial hlog

/-! ### The acts of the operations -/

theorem acts_of_same (hbuffer : q.buffer = p.buffer) (hmax : q.maxBufferSize = p.maxBufferSize)
    (hserial : q.nextSerial = p.nextSerial) (hlog : q.log = p.log) : Acts p q :=
  .single (.other hbuffer hmax hserial ⟨[], by simp [hlog], by simp⟩)

theorem acts_drainIfConnected (p : MqttPublisher) : Acts p p.drainIfConnected := by
  unfold drainIfConnected
  split
  · exact .single (.drain p ‹_›)
  · exact .refl

theorem acts_enqueue (message : MqttMessage) (p : MqttPublisher) : Acts p (p.enqueue message) :=
  .head (.buffer p message) (acts_drainIfConnected _)

theorem publishOnline_of_lwt {id : String} (h : p.lwtChargePointId = some id) :
    p.publishOnline = (p.announced id).drainBuffer := by
  unfold publishOnline
  split
  · rename_i hnone
    rw [hnone] at h
    cases h
  · rename_i id' hid
    rw [h] at hid
    cases hid
    rfl

theorem acts_publishOnline (hstate : p.state = .connected) : Acts p p.publishOnline := by
  cases hlwt : p.lwtChargePointId with
  | none =>
    have hsame : p.publishOnline = p := by
      unfold publishOnline
      rw [hlwt]
    rw [hsame]
  | some id =>
    rw [publishOnline_of_lwt hlwt]
    exact .head (.announce p id) (.single (.drain _ hstate))

theorem acts_flushBuffer (hstate : p.state = .connected) : Acts p p.flushBuffer := by
  unfold flushBuffer
  split
  · exact .refl
  · have hstarted : Acts p { p with flushInProgress := some 0 } := acts_of_same rfl rfl rfl rfl
    exact hstarted.tail (.drain _ hstate)

theorem acts_trySubscribe (p : MqttPublisher) : Acts p p.trySubscribe := by
  unfold trySubscribe
  split
  · exact .refl
  · split
    · exact acts_of_same rfl rfl rfl rfl
    · exact .refl

end

/-! ## What the hand-over leaves alone -/

/-- The state in which `on_connack` announces the connection. -/
def connected (p : MqttPublisher) : MqttPublisher :=
  { p.setState .connected with backoff := p.backoff.reset }

/-- Nothing but the buffer, the channel and the broker connection changes from `p` to `q`. -/
structure Idle (p q : MqttPublisher) : Prop where
  chargePointState : q.chargePointState = p.chargePointState
  linkState : q.linkState = p.linkState
  charging : q.charging = p.charging
  commandRouter : q.commandRouter = p.commandRouter
  inboxes : q.inboxes = p.inboxes
  log : ∃ es, q.log = p.log ++ es ∧ ∀ e ∈ es, e.isHandOver = true

section
variable {p q r : MqttPublisher}

theorem Idle.of_log {es : List PublisherEntry} (hlog : q.log = p.log ++ es)
    (hes : ∀ e ∈ es, e.isHandOver = true) (hchargePoint : q.chargePointState = p.chargePointState)
    (hlink : q.linkState = p.linkState) (hcharging : q.charging = p.charging)
    (hrouter : q.commandRouter = p.commandRouter) (hinboxes : q.inboxes = p.inboxes) : Idle p q :=
  ⟨hchargePoint, hlink, hcharging, hrouter, hinboxes, es, hlog, hes⟩

theorem Idle.of_same (hlog : q.log = p.log) (hchargePoint : q.chargePointState = p.chargePointState)
    (hlink : q.linkState = p.linkState) (hcharging : q.charging = p.charging)
    (hrouter : q.commandRouter = p.commandRouter) (hinboxes : q.inboxes = p.inboxes) : Idle p q :=
  ⟨hchargePoint, hlink, hcharging, hrouter, hinboxes, [], by simp [hlog], by simp⟩

theorem Idle.refl (p : MqttPublisher) : Idle p p := .of_same rfl rfl rfl rfl rfl rfl

theorem Idle.trans (h : Idle p q) (h' : Idle q r) : Idle p r := by
  obtain ⟨es, hlog, hes⟩ := h.log
  obtain ⟨es', hlog', hes'⟩ := h'.log
  exact .of_log (by rw [hlog', hlog, List.append_assoc])
    (fun e he => (List.mem_append.mp he).elim (hes e) (hes' e))
    (h'.chargePointState.trans h.chargePointState) (h'.linkState.trans h.linkState)
    (h'.charging.trans h.charging) (h'.commandRouter.trans h.commandRouter)
    (h'.inboxes.trans h.inboxes)

/-- What is not about the buffer is logged by others. -/
theorem Idle.trace_eq {α : Type} {f : PublisherEntry → Option α} (h : Idle p q)
    (hf : ∀ e : PublisherEntry, e.isHandOver = true → f e = none) : q.trace f = p.trace f := by
  obtain ⟨es, hlog, hes⟩ := h.log
  rw [trace_append f hlog, List.filterMap_eq_nil_iff.mpr fun e he => hf e (hes e he),
    List.append_nil]

theorem Idle.folded (h : Idle p q) :
    q.trace PublisherEntry.folded? = p.trace PublisherEntry.folded? :=
  h.trace_eq fun e he => by cases e <;> first | rfl | cases he

theorem Idle.dispatched (h : Idle p q) :
    q.trace PublisherEntry.dispatched? = p.trace PublisherEntry.dispatched? :=
  h.trace_eq fun e he => by cases e <;> first | rfl | cases he

theorem idle_drainBuffer (p : MqttPublisher) : Idle p p.drainBuffer := by
  obtain ⟨accepted, -, -, hlog, -, -⟩ := p.drainBuffer_spec
  exact .of_log hlog (List.forall_mem_map.mpr fun _ _ => rfl) rfl rfl rfl rfl rfl

theorem idle_drainIfConnected (p : MqttPublisher) : Idle p p.drainIfConnected := by
  unfold drainIfConnected
  split
  · exact idle_drainBuffer p
  · exact .refl p

theorem idle_enqueue (message : MqttMessage) (p : MqttPublisher) : Idle p (p.enqueue message) := by
  refine Idle.trans ?_ (idle_drainIfConnected _)
  obtain ⟨-, ⟨-, hlog⟩ | ⟨front, rest, -, -, -, hlog⟩⟩ := p.bufferMessage_cases message
  · exact .of_log hlog (by simp [PublisherEntry.isHandOver]) rfl rfl rfl rfl rfl
  · exact .of_log hlog (by simp [PublisherEntry.isHandOver]) rfl rfl rfl rfl rfl

theorem idle_publishOnline (p : MqttPublisher) : Idle p p.publishOnline := by
  unfold publishOnline
  split
  · exact .refl p
  · refine Idle.trans ?_ (idle_drainBuffer _)
    exact .of_log rfl (by simp [PublisherEntry.isHandOver]) rfl rfl rfl rfl rfl

theorem idle_flushBuffer (p : MqttPublisher) : Idle p p.flushBuffer := by
  unfold flushBuffer
  split
  · exact .refl p
  · have hstarted : Idle p { p with flushInProgress := some 0 } := .of_same rfl rfl rfl rfl rfl rfl
    exact hstarted.trans (idle_drainBuffer _)

theorem idle_trySubscribe (p : MqttPublisher) : Idle p p.trySubscribe := by
  unfold trySubscribe
  split
  · exact .refl p
  · split
    · exact .of_same rfl rfl rfl rfl rfl rfl
    · exact .refl p

theorem idle_republishSnapshots (crates : Crates) (p : MqttPublisher) :
    Idle p (p.republishSnapshots crates) := by
  have hfold (es : List (Sigma fun _ : String => ChargePointState)) (p : MqttPublisher) :
      Idle p (es.foldl (fun p e => p.publishChargePointState crates e.1 e.2) p) := by
    induction es generalizing p with
    | nil => exact .refl p
    | cons e es ih => exact (idle_enqueue _ p).trans (ih _)
  exact hfold _ p

theorem idle_onConnack (crates : Crates) (p : MqttPublisher) : Idle p (p.onConnack crates) := by
  have hup : Idle p p.connected := .of_same rfl rfl rfl rfl rfl rfl
  refine ((((hup.trans (idle_publishOnline _)).trans (idle_flushBuffer _)).trans
    (idle_republishSnapshots crates _)).trans ?_).trans (idle_trySubscribe _)
  exact .of_same rfl rfl rfl rfl rfl rfl

end

/-! ## The work of the handlers -/

/-- A class of names that the topics made from its names belong to. -/
structure NameClass (N : String → Prop) : Prop where
  status : ∀ id, N id → N (statusTopic id)
  result : ∀ id, N id → N (commandResultTopic id)
  state : ∀ id, N id → N (chargePointStateTopic id)
  message : ∀ id direction action, N id → N action → N (messageTopic id (directionStr direction) action)
  availability : ∀ id, N id → N (availabilityTopic id)

theorem nameClass_true : NameClass fun _ => True := by constructor <;> intros <;> trivial

inductive Work (crates : Crates) (now : Time) (N : String → Prop) :
    MqttPublisher → MqttPublisher → Prop where
  | enqueue {p : MqttPublisher} (message : MqttMessage) (h : N message.topic) :
    Work crates now N p (p.enqueue message)
  /-- A forwarded message is folded into a snapshot. -/
  | message {p : MqttPublisher} {id : String} (h : N id) (action : String)
    (messageType : OcppMessageType) (raw : String) :
    Work crates now N p { p with
      chargePointState := p.chargePointState.insert id
        ((p.snapshotOf id).apply crates now action messageType raw).2 }
  /-- A command result is folded into a snapshot. -/
  | result {p : MqttPublisher} {id : String} (h : N id) (result : CommandResult) :
    Work crates now N p (({ p with
      chargePointState := p.chargePointState.insert id
        ((p.snapshotOf id).applyCommandResult crates now result).2 } : MqttPublisher).note
          [.folded id result])
  | save {p : MqttPublisher} (snapshotStore : SnapshotStore) :
    Work crates now N p { p with snapshotStore }
  /-- A request goes to the router, which may put it into an inbox. -/
  | dispatch {p : MqttPublisher} (id : String) (request : CommandRequest)
    (outcome : Except DispatchError Unit) (inboxes : Inboxes) :
    Work crates now N p (({ p with inboxes } : MqttPublisher).note
      [.dispatched id request outcome])
  | link {p : MqttPublisher} (id : String) (links : ConnectionState × ConnectionState) :
    Work crates now N p { p with linkState := p.linkState.insert id links }

abbrev Works (crates : Crates) (now : Time) (N : String → Prop) :
    MqttPublisher → MqttPublisher → Prop := ReflTransGen (Work crates now N)

section
variable {N : String → Prop} {p q : MqttPublisher} {crates : Crates} {now : Time}
  {chargePointId : String}

theorem Works.acts (h : Works crates now N p q) : Acts p q := by
  induction h with
  | refl => exact .refl
  | tail _ hwork ih =>
    refine ih.trans ?_
    cases hwork with
    | enqueue message _ => exact acts_enqueue message _
    | message => exact acts_of_same rfl rfl rfl rfl
    | result _ result =>
      exact .single (.other rfl rfl rfl ⟨_, rfl, by simp [PublisherEntry.isHandOver]⟩)
    | save => exact acts_of_same rfl rfl rfl rfl
    | dispatch id request outcome =>
      exact .single (.other rfl rfl rfl ⟨_, rfl, by simp [PublisherEntry.isHandOver]⟩)
    | link => exact acts_of_same rfl rfl rfl rfl

theorem works_publishChargePointState (hN : NameClass N) (h : N chargePointId)
    (snapshot : ChargePointState) :
    Works crates now N p (p.publishChargePointState crates chargePointId snapshot) :=
  .single (.enqueue _ (hN.state _ h))

/-- Whether or not it changed, a snapshot is stored; if it did, the map is saved and the snapshot
published. -/
theorem works_storeSnapshot (hN : NameClass N) (h : N chargePointId)
    {folded : Bool × ChargePointState} (hfold : Work crates now N p { q with
      chargePointState := q.chargePointState.insert chargePointId folded.2 }) :
    Works crates now N p (q.storeSnapshot crates chargePointId folded) := by
  unfold storeSnapshot
  dsimp only
  split
  · exact ((ReflTransGen.single hfold).tail (.save _)).trans (works_publishChargePointState hN h _)
  · exact .single hfold

theorem works_publishCommandResult (hN : NameClass N) (h : N chargePointId)
    (result : CommandResult) :
    Works crates now N p (p.publishCommandResult crates now chargePointId result) :=
  (ReflTransGen.single (.enqueue _ (hN.result _ h))).trans
    (works_storeSnapshot hN h (.result h result))

theorem works_dispatchCommand (hN : NameClass N) (h : N chargePointId) (request : CommandRequest) :
    Works crates now N p (p.dispatchCommand crates now chargePointId request) := by
  unfold dispatchCommand
  split
  · exact works_publishCommandResult hN h _
  · split
    · exact .single (.dispatch chargePointId request _ _)
    · exact (ReflTransGen.single (.dispatch chargePointId request _ p.inboxes)).trans
        (works_publishCommandResult hN h _)

theorem works_maybeReapplyLimit (hN : NameClass N) (h : N chargePointId) :
    Works crates now N p (p.maybeReapplyLimit crates now chargePointId) := by
  unfold maybeReapplyLimit
  split
  · exact .refl
  · exact works_dispatchCommand hN h _

variable (crates now) in
theorem works_handleIncomingPublish (hN : NameClass N) {topic : String} (payload : ByteArray)
    (h : ∀ command ∈ parseCommandTopic topic, N command.1) :
    Works crates now N p (p.handleIncomingPublish crates now topic payload) := by
  unfold handleIncomingPublish
  split
  · exact .refl
  · rename_i id kind htopic
    have hid : N id := h (id, kind) htopic
    split
    · exact works_publishCommandResult hN hid _
    · exact works_dispatchCommand hN hid _

def NamesIn (N : String → Prop) : MqttEvent → Prop
  | .messageForwarded chargePointId _ _ action => N chargePointId ∧ N action
  | .stateChange chargePointId _ _ => N chargePointId
  | .commandResult chargePointId _ => N chargePointId

variable (crates now) in
theorem works_handleEvent (hN : NameClass N) {event : MqttEvent} (h : NamesIn N event) :
    Works crates now N p (p.handleEvent crates now event) := by
  cases event with
  | messageForwarded id frame direction action =>
    exact (ReflTransGen.single (.enqueue _ (hN.message _ _ _ h.1 h.2))).trans
      (works_storeSnapshot hN h.1 (.message h.1 action frame.messageType frame.raw))
  | stateChange id upstream downstream =>
    unfold handleEvent
    dsimp only
    split
    · exact ((ReflTransGen.single (.enqueue _ (hN.status _ h))).tail (.link id _)).trans
        (works_maybeReapplyLimit hN h)
    · exact (ReflTransGen.single (.enqueue _ (hN.status _ h))).tail (.link id _)
  | commandResult id result => exact works_publishCommandResult hN h result

variable (crates now) in
theorem works_publishSnapshots (hN : NameClass N) (es : List (Sigma fun _ : String => ChargePointState))
    (hes : ∀ e ∈ es, N e.1) (p : MqttPublisher) :
    Works crates now N p (es.foldl (fun p e => p.publishChargePointState crates e.1 e.2) p) := by
  induction es generalizing p with
  | nil => exact .refl
  | cons e es ih =>
    obtain ⟨he, hes⟩ := List.forall_mem_cons.mp hes
    exact (works_publishChargePointState hN he e.2).trans (ih hes _)

variable (crates now) in
theorem works_republishSnapshots (hN : NameClass N) (h : ∀ id ∈ p.chargePointState, N id) :
    Works crates now N p (p.republishSnapshots crates) :=
  works_publishSnapshots crates now hN _ (fun e he => h e.1 (List.mem_map_of_mem he)) p

end

/-! ## The steps -/

inductive Stepped (crates : Crates) (now : Time) (p : MqttPublisher) :
    PublisherInput → MqttPublisher → Prop where
  | world (router : CommandRouter) (inboxes : Inboxes) (manager : ConnectionStateManager) :
    Stepped crates now p (.world router inboxes manager) { p with
      commandRouter := p.commandRouter.map fun _ => router
      inboxes
      stateManager := p.stateManager.map fun _ => manager }
  | enqueue (message : MqttMessage) : Stepped crates now p (.enqueue message) (p.enqueue message)
  | startup (hstage : p.stage = .built) :
    Stepped crates now p .startup { p.setState .connecting with stage := .starting }
  | startupTimeout (hstage : p.stage = .starting) :
    Stepped crates now p .startupTimeout { p.setState .reconnecting with stage := .running }
  | started (taken : Nat) (hstage : p.stage = .starting) :
    Stepped crates now p (.poll taken .connAck)
      { (p.afterPoll taken).onConnack crates with stage := .running }
  | waited (taken : Nat) (event : Polled) (backoff : ExponentialBackoff)
    (hstage : p.stage = .starting) (hevent : event ≠ .connAck) :
    Stepped crates now p (.poll taken event)
      { p.afterPoll (p.takenOff taken event) with backoff }
  | polled (taken : Nat) (event : Polled) (hstage : p.stage = .running) :
    Stepped crates now p (.poll taken event)
      ((p.afterPoll (p.takenOff taken event)).onPolled crates now event)
  | handled (event : MqttEvent) (hstage : p.stage = .running) :
    Stepped crates now p (.event (some event)) (p.handleEvent crates now event)
  | stopped (hstage : p.stage = .running) :
    Stepped crates now p (.event none) { p with stage := .stopped }

theorem stepped_of_step {crates : Crates} {p q : MqttPublisher} {ev : PublisherEvent}
    (h : step crates p ev = some q) : Stepped crates ev.now p ev.input q := by
  obtain ⟨now, input⟩ := ev
  unfold step at h
  dsimp only at h ⊢
  split at h <;> cases h
  · exact .world ..
  · exact .enqueue _
  · exact .startup ‹_›
  · exact .startupTimeout ‹_›
  · exact .started _ ‹_›
  · exact .waited _ _ _ ‹_› (by simp)
  · exact .waited _ _ p.backoff ‹_› (by simpa using ‹_›)
  · exact .polled _ _ ‹_›
  · exact .handled _ ‹_›
  · exact .stopped ‹_›

end MqttPublisher

end OcppProxy

import OcppProxy.BufferCapacity

/-!
# The announcement of a connection

Every ConnAck puts "online" in front of the buffer. The request channel of a new connection is
empty, so it goes out at once if it can be published at all. If it cannot it waits in front, where a full
buffer evicts it.
-/

namespace OcppProxy

namespace MqttPublisher

/-- The announcement `w` was accepted before everything in `backlog`, or it waits ahead of it. -/
def OnlineKept (w : Waiting) (backlog : List Waiting) (p : MqttPublisher) : Prop :=
  w ∈ p.trace PublisherEntry.accepted? ∧
      (∀ b ∈ backlog, ¬ [b, w].Sublist (p.trace PublisherEntry.accepted?)) ∨
    w ∈ p.buffer ∧
      ∀ b ∈ backlog, b ∉ p.trace PublisherEntry.accepted? ∧ ¬ [b, w].Sublist p.buffer

/-- The snapshots that follow an announcement leave it its place. -/
def LeavesPlace (p : MqttPublisher) : Prop :=
  p.chargePointState.entries = [] ∨
    p.buffer.length + p.chargePointState.entries.length < p.maxBufferSize

/-- The step does not buffer a message while the buffer is full behind the announcement `w`. -/
def SparesOnline (w : Waiting) (p : MqttPublisher) (ev : PublisherEvent) : Prop :=
  match ev.input with
  | .enqueue _ => p.buffer.head? = some w → p.buffer.length < p.maxBufferSize
  | _ => True

def EnqueuesOrDrains (input : PublisherInput) : Prop :=
  (∃ message, input = .enqueue message) ∨ ∃ taken, input = .poll taken .other

instance (p : MqttPublisher) : Decidable p.LeavesPlace := inferInstanceAs (Decidable (_ ∨ _))

instance (w : Waiting) (p : MqttPublisher) : ∀ ev, Decidable (p.SparesOnline w ev)
  | ⟨_, .enqueue _⟩ => inferInstanceAs (Decidable (_ → _))
  | ⟨_, .startup⟩ | ⟨_, .startupTimeout⟩ | ⟨_, .poll ..⟩ | ⟨_, .event _⟩ | ⟨_, .world ..⟩ =>
    inferInstanceAs (Decidable True)

section
variable {crates : Crates} {now : Time} {p q r : MqttPublisher} {setup : PublisherSetup}
  {w front : Waiting} {rest : List Waiting}

/-! ## Evictions -/

theorem evicted_drainBuffer (p : MqttPublisher) :
    p.drainBuffer.trace PublisherEntry.evicted? = p.trace PublisherEntry.evicted? := by
  obtain ⟨accepted, -, -, hlog, -⟩ := p.drainBuffer_spec
  rw [trace_append _ hlog]
  simp [List.filterMap_map, PublisherEntry.evicted?, Function.comp_def]

theorem evicted_drainIfConnected (p : MqttPublisher) :
    p.drainIfConnected.trace PublisherEntry.evicted? = p.trace PublisherEntry.evicted? := by
  unfold drainIfConnected
  split
  · exact evicted_drainBuffer p
  · rfl

theorem evicted_trySubscribe (p : MqttPublisher) :
    p.trySubscribe.trace PublisherEntry.evicted? = p.trace PublisherEntry.evicted? := by
  unfold trySubscribe
  split
  · rfl
  · split <;> rfl

theorem evicted_flushBuffer (p : MqttPublisher) :
    p.flushBuffer.trace PublisherEntry.evicted? = p.trace PublisherEntry.evicted? := by
  unfold flushBuffer
  split
  · rfl
  · exact evicted_drainBuffer _

/-- An item survives an enqueued message unless it is in front of a full buffer. -/
theorem spared_enqueue_iff (message : MqttMessage) (w : Waiting) (p : MqttPublisher) :
    w ∉ (p.enqueue message).trace PublisherEntry.evicted? ↔
      w ∉ p.trace PublisherEntry.evicted? ∧
        (p.buffer.head? = some w → p.buffer.length < p.maxBufferSize) := by
  unfold enqueue
  rw [evicted_drainIfConnected]
  by_cases hroom : p.buffer.length < p.maxBufferSize
  · rw [trace_append _ (bufferMessage_of_room message hroom).2]
    simp [hroom, PublisherEntry.evicted?]
  · cases hb : p.buffer with
    | nil =>
      have hlog : (p.bufferMessage message).log = p.log ++ [.entered (p.entryOf message)] := by
        simp [bufferMessage, note, hb, entryOf]
      rw [trace_append _ hlog]
      simp [PublisherEntry.evicted?]
    | cons front rest =>
      rw [trace_append _ (bufferMessage_of_full message hb (not_lt.mp hroom)).2]
      have hover : ¬ rest.length + 1 < p.maxBufferSize := by simpa [hb] using hroom
      simp [PublisherEntry.evicted?, hover, eq_comm]

/-- What has happened to an item has happened to it. -/
theorem HandOver.mem_trace {α : Type} (h : HandOver p q) {f : PublisherEntry → Option α} {a : α}
    (ha : a ∈ p.trace f) : a ∈ q.trace f := by
  obtain ⟨es, hlog, -⟩ := h.entries
  rw [trace_append _ hlog]
  exact List.mem_append_left _ ha

/-! ## The snapshots behind it -/

/-- Behind a front that the client refuses, each snapshot takes a place of the buffer. -/
theorem spared_republish_iff (crates : Crates)
    (es : List (Sigma fun _ : String => ChargePointState))
    (hfront : p.buffer = w :: rest) (hrefused : p.client.tryPublish w.message = none) :
    w ∉ (es.foldl (fun p e => p.publishChargePointState crates e.1 e.2) p).trace
        PublisherEntry.evicted? ↔
      w ∉ p.trace PublisherEntry.evicted? ∧
        (es = [] ∨ rest.length + es.length < p.maxBufferSize) := by
  induction es generalizing p rest with
  | nil => simp
  | cons e es ih =>
    obtain ⟨message, hmessage⟩ : ∃ message : MqttMessage,
      p.publishChargePointState crates e.1 e.2 = p.enqueue message := ⟨_, rfl⟩
    have hspared := spared_enqueue_iff message w p
    rw [hfront] at hspared
    simp only [List.head?_cons, forall_const, List.length_cons] at hspared
    rw [List.foldl_cons, hmessage]
    by_cases hroom : rest.length + 1 < p.maxBufferSize
    · have hbuffer : (p.bufferMessage message).buffer = w :: (rest ++ [p.entryOf message]) := by
        rw [(bufferMessage_of_room message (by rw [hfront]; exact hroom)).1, hfront]
        rfl
      have hkept : (p.enqueue message).buffer = w :: (rest ++ [p.entryOf message]) ∧
          (p.enqueue message).client = p.client := by
        unfold enqueue drainIfConnected
        split
        · obtain ⟨hsame, hclient, -⟩ := drainBuffer_of_refused hbuffer hrefused
          exact ⟨hsame.trans hbuffer, hclient⟩
        · exact ⟨hbuffer, rfl⟩
      rw [ih hkept.1 (hkept.2 ▸ hrefused), hspared, (acts_enqueue message p).handOver.maxBufferSize]
      simp only [hroom, and_true, List.length_append, List.length_cons, List.length_nil,
        reduceCtorEq, false_or]
      refine and_congr_right fun _ => ?_
      constructor
      · rintro (rfl | hlength)
        · simpa using hroom
        · omega
      · intro hlength
        exact .inr (by omega)
    · have hevicted : w ∈ (p.enqueue message).trace PublisherEntry.evicted? := by
        by_contra hnot
        exact hroom (hspared.mp hnot).2
      have hworks := works_publishSnapshots crates 0 nameClass_true es (fun _ _ => trivial)
        (p.enqueue message)
      refine iff_of_false (fun hnot => hnot ((Works.acts hworks).handOver.mem_trace hevicted)) ?_
      rintro ⟨-, hempty | hlength⟩
      · cases hempty
      · rw [List.length_cons] at hlength
        omega

theorem hasWildcard_availabilityTopic (id : String) :
    hasWildcard (availabilityTopic id) = hasWildcard id := by
  have hends : hasWildcard "ocpp/" = false ∧ hasWildcard "/availability" = false := by decide
  simp [availabilityTopic, toString, hasWildcard_append, hends]

/-- On a new connection an announcement that can be published is accepted at once. -/
theorem accepted_onConnack {id : String} (hlwt : p.lwtChargePointId = some id)
    (hunused : p.client.requests = []) (hfree : hasWildcard id = false) :
    p.announcementOf id ∈ (p.onConnack crates).trace PublisherEntry.accepted? := by
  obtain ⟨w, hw⟩ : ∃ w, w = p.announcementOf id := ⟨_, rfl⟩
  have htopic : w.message.topic = availabilityTopic id := hw ▸ rfl
  have hfront : (p.connected.announced id).buffer = w :: p.buffer := hw ▸ rfl
  have hclient : (p.connected.announced id).client = p.client := rfl
  have htaken : (p.connected.announced id).client.tryPublish w.message ≠ none := by
    rw [Ne, tryPublish_eq_none, htopic, hasWildcard_availabilityTopic, hclient,
      isFull_of_unused hunused, hfree]
    simp
  obtain ⟨-, others, hlog⟩ := drainBuffer_of_accepted hfront htaken
  have haccepted : w ∈ p.connected.publishOnline.trace PublisherEntry.accepted? := by
    rw [show p.connected.publishOnline = _ from publishOnline_of_lwt hlwt, trace_append _ hlog]
    simp [PublisherEntry.accepted?]
  rw [← hw]
  exact (acts_afterOnline crates p).handOver.mem_trace haccepted

/-- A ConnAck keeps an announcement that it cannot publish if and only if it has a place ahead of
the snapshots. -/
theorem spared_onConnack_iff {id : String} (hlwt : p.lwtChargePointId = some id)
    (hwild : hasWildcard id = true)
    (hfresh : p.announcementOf id ∉ p.trace PublisherEntry.evicted?) :
    p.announcementOf id ∉ (p.onConnack crates).trace PublisherEntry.evicted? ↔ p.LeavesPlace := by
  obtain ⟨w, hw⟩ : ∃ w, w = p.announcementOf id := ⟨_, rfl⟩
  have htopic : w.message.topic = availabilityTopic id := hw ▸ rfl
  have honline : p.connected.publishOnline = (p.connected.announced id).drainBuffer :=
    publishOnline_of_lwt hlwt
  have hfront : (p.connected.announced id).buffer = w :: p.buffer := hw ▸ rfl
  have hrefused (client : AsyncClient) : client.tryPublish w.message = none := by
    rw [tryPublish_eq_none, htopic, hasWildcard_availabilityTopic]
    exact .inl hwild
  rw [← hw] at hfresh ⊢
  obtain ⟨hbuffer, -, -⟩ := drainBuffer_of_refused hfront (hrefused _)
  have hspent : (p.connected.announced id).drainBuffer.Spent := spent_drainBuffer _
  have hflushed : p.connected.publishOnline.flushBuffer.buffer = w :: p.buffer := by
    rw [honline]
    exact hspent.flushBuffer.1.trans (hbuffer.trans hfront)
  have hevicted : p.connected.publishOnline.flushBuffer.trace PublisherEntry.evicted? =
      p.trace PublisherEntry.evicted? := by
    rw [evicted_flushBuffer, honline, evicted_drainBuffer]
    simp [trace, announced, note, connected, setState, PublisherEntry.evicted?]
  have hsnapshots : p.connected.publishOnline.flushBuffer.chargePointState = p.chargePointState :=
    ((idle_publishOnline _).trans (idle_flushBuffer _)).chargePointState
  have hmax : p.connected.publishOnline.flushBuffer.maxBufferSize = p.maxBufferSize := by
    rw [(acts_flushBuffer (publishOnline_fields _).2).handOver.maxBufferSize,
      (acts_publishOnline rfl).handOver.maxBufferSize]
    rfl
  have hrepublished := spared_republish_iff crates p.chargePointState.entries hflushed
    (hrefused _)
  rw [hevicted, hmax] at hrepublished
  have hconnack : (p.onConnack crates).trace PublisherEntry.evicted? =
      (p.chargePointState.entries.foldl (fun p e => p.publishChargePointState crates e.1 e.2)
        p.connected.publishOnline.flushBuffer).trace PublisherEntry.evicted? := by
    rw [← hsnapshots]
    exact evicted_trySubscribe _
  rw [hconnack, hrepublished]
  exact and_iff_right hfresh

/-! ## Runs -/

/-- Among enqueued messages and drains, the announcement survives the steps that spare it. -/
theorem spared_of_step (w : Waiting) {ev : PublisherEvent} (hev : EnqueuesOrDrains ev.input)
    (hs : step crates p ev = some q) :
    w ∉ q.trace PublisherEntry.evicted? ↔
      w ∉ p.trace PublisherEntry.evicted? ∧ p.SparesOnline w ev := by
  have hstepped := stepped_of_step hs
  unfold SparesOnline
  obtain ⟨now, input⟩ := ev
  obtain ⟨message, rfl⟩ | ⟨taken, rfl⟩ := hev
  · cases hstepped with
    | enqueue => exact spared_enqueue_iff message w p
  · have hsame : q.trace PublisherEntry.evicted? = p.trace PublisherEntry.evicted? := by
      cases hstepped with
      | waited => rfl
      | polled =>
        unfold onPolled
        dsimp only
        split
        · rw [evicted_drainBuffer, evicted_trySubscribe]
          rfl
        · rfl
    rw [hsame]
    exact (and_iff_left trivial).symm

/-- What a ConnAck announces. -/
theorem announced_onConnack {id : String} (hlwt : p.lwtChargePointId = some id) :
    (p.announcementOf id, p.buffer) ∈ (p.onConnack crates).trace PublisherEntry.announced? := by
  have hpushed : (p.announcementOf id, p.buffer) ∈
      (p.connected.announced id).trace PublisherEntry.announced? := by
    simp [trace, announced, note, connected, setState, PublisherEntry.announced?, announcementOf]
  have honline : p.connected.publishOnline = (p.connected.announced id).drainBuffer :=
    publishOnline_of_lwt hlwt
  have hdrained : HandOver (p.connected.announced id) p.connected.publishOnline :=
    honline ▸ handOver_drainBuffer _ rfl
  exact (hdrained.trans (acts_afterOnline crates p).handOver).mem_trace hpushed

/-- An announcement that was not evicted has kept its place ahead of its backlog. -/
theorem onlineKept_iff {backlog : List Waiting} (hsound : p.outbox.Sound Waiting.isEntry)
    (hannounced : (w, backlog) ∈ p.trace PublisherEntry.announced?) :
    p.OnlineKept w backlog ↔ w ∉ p.trace PublisherEntry.evicted? := by
  have hplace := hsound.spared_iff (Outbox.mem_seen_of_announced hannounced)
  have hfirst (b : Waiting) (hb : b ∈ backlog) :
      ¬ [b, w].Sublist (p.trace PublisherEntry.accepted? ++ p.buffer) :=
    hsound.first (w, backlog) hannounced b hb
  rw [show w ∉ p.trace PublisherEntry.evicted? ↔ _ from hplace]
  constructor
  · rintro (⟨haccepted, -⟩ | ⟨hwaits, -⟩)
    · exact .inl haccepted
    · exact .inr hwaits
  · rintro (haccepted | hwaits)
    · refine .inl ⟨haccepted, fun b hb hsub => ?_⟩
      exact hfirst b hb (hsub.trans (List.sublist_append_left _ _))
    · refine .inr ⟨hwaits, fun b hb => ⟨fun haccepted => ?_, fun hsub => ?_⟩⟩
      · have hpair : [b, w].Sublist (p.trace PublisherEntry.accepted? ++ p.buffer) :=
          (List.singleton_sublist.mpr haccepted).append (List.singleton_sublist.mpr hwaits)
        exact hfirst b hb hpair
      · exact hfirst b hb (hsub.trans (List.sublist_append_right _ _))

/-- A ConnAck of a new connection announces it. While messages are enqueued and drained on it, the
announcement keeps its place ahead of the backlog if and only if it can be published, or the
snapshots leave it its place and no message comes in while the buffer is full behind it. -/
theorem online_kept_iff {events further : List PublisherEvent} {id : String} {taken : Nat}
    (hrun : (step crates).run (build setup) events = some p)
    (hlwt : p.lwtChargePointId = some id) (hanew : p.ConnectsAnew ⟨now, .poll taken .connAck⟩)
    (hconnack : step crates p ⟨now, .poll taken .connAck⟩ = some q)
    (hfurther : ∀ ev ∈ further, EnqueuesOrDrains ev.input)
    (hrun' : (step crates).run q further = some r) :
    (p.announcementOf id, p.buffer) ∈ q.trace PublisherEntry.announced? ∧
      (r.OnlineKept (p.announcementOf id) p.buffer ↔
        hasWildcard id = false ∨ p.LeavesPlace ∧
          (step crates).Meets (SparesOnline (p.announcementOf id)) q further) := by
  obtain ⟨hnumbered, hsound⟩ := sound_of_run hrun
  have hrunq : (step crates).run (build setup) (events ++ [⟨now, .poll taken .connAck⟩]) = some q :=
    ((step crates).run_append _ _ _ _).mpr ⟨p, hrun, by simpa [Machine.run] using hconnack⟩
  have hrunr := ((step crates).run_append _ _ _ _).mpr ⟨q, hrunq, hrun'⟩
  have hsoundr := (sound_of_run hrunr).2
  have hq := step_connAck hconnack
  have hannounced : (p.announcementOf id, p.buffer) ∈ q.trace PublisherEntry.announced? := by
    rw [hq]
    exact announced_onConnack (p := p.afterPoll taken) hlwt
  refine ⟨hannounced, ?_⟩
  rw [onlineKept_iff hsoundr ((acts_of_run hrun').handOver.mem_trace hannounced)]
  by_cases hfree : hasWildcard id = false
  · -- it goes out at once, and what is accepted is never evicted
    have haccepted : p.announcementOf id ∈ q.trace PublisherEntry.accepted? := by
      rw [hq]
      exact accepted_onConnack (p := p.afterPoll taken) hlwt
        (requests_afterPoll taken ((unused_of_run hrun).requests hanew)) hfree
    have hseen : p.announcementOf id ∈ r.outbox.accepted :=
      (acts_of_run hrun').handOver.mem_trace haccepted
    exact iff_of_true ((hsoundr.spared_iff (hsoundr.mem_seen.mpr (.inl hseen))).mpr (.inl hseen))
      (.inl hfree)
  · -- it waits in front until it is evicted: first the snapshots, then each message enqueued
    have hfresh : p.announcementOf id ∉ p.trace PublisherEntry.evicted? := fun hevicted =>
      hnumbered.fresh .online _ (hsound.mem_seen.mpr (.inr (.inl hevicted)))
    have hspared : p.announcementOf id ∉ q.trace PublisherEntry.evicted? ↔ p.LeavesPlace := by
      rw [hq]
      exact spared_onConnack_iff (p := p.afterPoll taken) hlwt (Bool.eq_true_of_not_eq_false hfree)
        hfresh
    rw [(step crates).kept_iff (fun s ev t hev hs => spared_of_step (p.announcementOf id) hev hs)
      hrun' ((step crates).meets_of_forall _ hfurther), hspared, or_iff_right hfree]

/-- An outage, and messages on the connection that ends it. -/
theorem online_kept_iff_outage :
    ∃ p q r, (step (.ofTable [])).run
        (build { lwtChargePointId := some "CP01", maxBufferSize := 1 }) outage.dropLast = some p ∧
      step (.ofTable []) p ⟨6, .poll 0 .connAck⟩ = some q ∧
      (step (.ofTable [])).run q [⟨7, .enqueue ⟨"test/topic", "d", .atLeastOnce, false⟩⟩,
        ⟨8, .poll 1 .other⟩] = some r ∧
      r.OnlineKept (p.announcementOf "CP01") p.buffer := by
  have hseen : (((step (.ofTable [])).run
      (build { lwtChargePointId := some "CP01", maxBufferSize := 1 }) outage.dropLast).bind fun p =>
        (step (.ofTable []) p ⟨6, .poll 0 .connAck⟩).bind fun q =>
          ((step (.ofTable [])).run q [⟨7, .enqueue ⟨"test/topic", "d", .atLeastOnce, false⟩⟩,
            ⟨8, .poll 1 .other⟩]).map fun _ =>
              (p.lwtChargePointId, decide (p.ConnectsAnew ⟨6, .poll 0 .connAck⟩))) =
      some (some "CP01", true) := by decide +kernel
  obtain ⟨p, hrun, hp⟩ := Option.bind_eq_some_iff.mp hseen
  obtain ⟨q, hconnack, hq⟩ := Option.bind_eq_some_iff.mp hp
  obtain ⟨r, hrun', hr⟩ := Option.map_eq_some_iff.mp hq
  simp only [Prod.mk.injEq, decide_eq_true_eq] at hr
  have hall := online_kept_iff hrun hr.1 hr.2 hconnack (by simp [EnqueuesOrDrains]) hrun'
  exact ⟨p, q, r, hrun, hconnack, hrun', hall.2.mpr (.inl (by decide))⟩

/-- A snapshot from the file takes the place of an announcement that cannot be published. -/
theorem not_online_kept :
    ∃ p q, (step (.ofTable [])).run (build
        { lwtChargePointId := some "CP#1", maxBufferSize := 1
          snapshotStore := { enabled := true, file := AList.singleton "CP#1" {} } })
        [⟨0, .startup⟩] = some p ∧
      p.lwtChargePointId = some "CP#1" ∧ p.ConnectsAnew ⟨1, .poll 0 .connAck⟩ ∧
      step (.ofTable []) p ⟨1, .poll 0 .connAck⟩ = some q ∧
      ¬ q.OnlineKept (p.announcementOf "CP#1") p.buffer := by
  have hseen : (((step (.ofTable [])).run (build
      { lwtChargePointId := some "CP#1", maxBufferSize := 1
        snapshotStore := { enabled := true, file := AList.singleton "CP#1" {} } })
      [⟨0, .startup⟩]).bind fun p =>
        (step (.ofTable []) p ⟨1, .poll 0 .connAck⟩).map fun q =>
          (p.lwtChargePointId, decide (p.ConnectsAnew ⟨1, .poll 0 .connAck⟩),
            decide (p.announcementOf "CP#1" ∈ q.trace PublisherEntry.accepted?),
              decide (p.announcementOf "CP#1" ∈ q.buffer))) =
      some (some "CP#1", true, false, false) := by decide +kernel
  obtain ⟨p, hrun, hp⟩ := Option.bind_eq_some_iff.mp hseen
  obtain ⟨q, hconnack, hq⟩ := Option.map_eq_some_iff.mp hp
  simp only [Prod.mk.injEq, decide_eq_true_eq, decide_eq_false_iff_not] at hq
  obtain ⟨hlwt, hanew, hnotAccepted, hnotWaiting⟩ := hq
  refine ⟨p, q, hrun, hlwt, hanew, hconnack, ?_⟩
  rintro (⟨haccepted, -⟩ | ⟨hwaits, -⟩)
  · exact hnotAccepted haccepted
  · exact hnotWaiting hwaits

end

end MqttPublisher

end OcppProxy

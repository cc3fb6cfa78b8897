import OcppProxy.HandOver
import Mathlib.Data.List.Infix

/-!
# Retained topics

The status and the snapshot of a charge point are retained: what the broker keeps is the last
message that it was given on their topics. They share the buffer with everything else.
-/

namespace OcppProxy

open Relation (ReflTransGen)

/-! ## Topics are told apart -/

def slashes (name : String) : Nat := name.toList.count '/'

def lastChar (name : String) : Option Char := name.toList.getLast?

section
variable (a b id id' direction action : String)

theorem slashes_append : slashes (a ++ b) = slashes a + slashes b := by
  simp [slashes]

theorem lastChar_append : lastChar (a ++ b) = (lastChar b).or (lastChar a) := by
  simp [lastChar, String.toList_append, List.getLast?_append]

theorem statusTopic_eq : statusTopic id = "ocpp/" ++ id ++ "/status" := by
  simp only [statusTopic, toString]

theorem chargePointStateTopic_eq : chargePointStateTopic id = "ocpp/" ++ id ++ "/state" := by
  simp only [chargePointStateTopic, toString]

theorem slashes_statusTopic : slashes (statusTopic id) = slashes id + 2 := by
  rw [statusTopic_eq, slashes_append, slashes_append, show slashes "ocpp/" = 1 by decide,
    show slashes "/status" = 1 by decide]
  omega

theorem slashes_chargePointStateTopic : slashes (chargePointStateTopic id) = slashes id + 2 := by
  rw [chargePointStateTopic_eq, slashes_append, slashes_append, show slashes "ocpp/" = 1 by decide,
    show slashes "/state" = 1 by decide]
  omega

theorem slashes_commandResultTopic : slashes (commandResultTopic id) = slashes id + 3 := by
  simp only [commandResultTopic, toString, slashes_append, show slashes "ocpp/" = 1 by decide,
    show slashes "/command/result" = 2 by decide]
  omega

theorem slashes_messageTopic : 3 ≤ slashes (messageTopic id direction action) := by
  simp only [messageTopic, toString, slashes_append, show slashes "ocpp/" = 1 by decide,
    show slashes "/" = 1 by decide]
  omega

theorem lastChar_statusTopic : lastChar (statusTopic id) = some 's' := by
  rw [statusTopic_eq, lastChar_append, show lastChar "/status" = some 's' by decide]
  rfl

theorem lastChar_chargePointStateTopic : lastChar (chargePointStateTopic id) = some 'e' := by
  rw [chargePointStateTopic_eq, lastChar_append, show lastChar "/state" = some 'e' by decide]
  rfl

theorem lastChar_availabilityTopic : lastChar (availabilityTopic id) = some 'y' := by
  simp only [availabilityTopic, toString, lastChar_append,
    show lastChar "/availability" = some 'y' by decide]
  rfl

end

theorem append_cancel {a b id id' : String} (h : a ++ id ++ b = a ++ id' ++ b) : id = id' := by
  have hlist := congrArg String.toList h
  simp only [String.toList_append] at hlist
  exact String.toList_inj.mp (List.append_cancel_left (List.append_cancel_right hlist))

theorem statusTopic_inj {id id' : String} : statusTopic id = statusTopic id' ↔ id = id' := by
  refine ⟨fun h => ?_, congrArg statusTopic⟩
  rw [statusTopic_eq, statusTopic_eq] at h
  exact append_cancel h

theorem chargePointStateTopic_inj {id id' : String} :
    chargePointStateTopic id = chargePointStateTopic id' ↔ id = id' := by
  refine ⟨fun h => ?_, congrArg chargePointStateTopic⟩
  rw [chargePointStateTopic_eq, chargePointStateTopic_eq] at h
  exact append_cancel h

theorem statusTopic_ne_chargePointStateTopic (id id' : String) :
    statusTopic id ≠ chargePointStateTopic id' := by
  intro h
  have hlast := congrArg lastChar h
  rw [lastChar_statusTopic, lastChar_chargePointStateTopic] at hlast
  exact absurd hlast (by decide)

def IsRetained (id topic : String) : Prop :=
  topic = statusTopic id ∨ topic = chargePointStateTopic id

section
variable {id topic : String}

theorem IsRetained.ne_availabilityTopic (h : IsRetained id topic) (id' : String) :
    availabilityTopic id' ≠ topic := by
  intro heq
  have hlast := congrArg lastChar heq
  rw [lastChar_availabilityTopic] at hlast
  rcases h with rfl | rfl
  · rw [lastChar_statusTopic] at hlast
    exact absurd hlast (by decide)
  · rw [lastChar_chargePointStateTopic] at hlast
    exact absurd hlast (by decide)

theorem IsRetained.slashes_eq (h : IsRetained id topic) (hid : slashes id = 0) :
    slashes topic = 2 := by
  rcases h with rfl | rfl
  · rw [slashes_statusTopic, hid]
  · rw [slashes_chargePointStateTopic, hid]

/-- Of an id without a slash, no message and no command result is published on a retained topic. -/
theorem IsRetained.ne_messageTopic (h : IsRetained id topic) (hid : slashes id = 0)
    (id' direction action : String) : messageTopic id' direction action ≠ topic := by
  rintro rfl
  have hslashes := slashes_messageTopic id' direction action
  rw [h.slashes_eq hid] at hslashes
  omega

theorem IsRetained.ne_commandResultTopic (h : IsRetained id topic) (hid : slashes id = 0)
    (id' : String) : commandResultTopic id' ≠ topic := by
  rintro rfl
  have hslashes := slashes_commandResultTopic id'
  rw [h.slashes_eq hid] at hslashes
  omega

end

namespace MqttPublisher

/-! ## The newest message of a topic -/

def lastOn (topic : String) (es : List PublisherEntry) : Option Waiting :=
  ((es.filterMap PublisherEntry.entered?).filter fun w => w.message.topic = topic).getLast?

def lastAccepted (topic : String) (p : MqttPublisher) : Option Waiting :=
  ((p.trace PublisherEntry.accepted?).filter fun w => w.message.topic = topic).getLast?

/-- Where the first entries are a call of `buffer_message` that evicts a message of the topic, a
newer one of the topic waits behind it, or comes in. -/
def SparesFirst (topic : String) : List PublisherEntry → Prop
  | .evicted w buffer :: .entered v :: _ => w.message.topic = topic →
    v.message.topic = topic ∨ ∃ u ∈ buffer.tail, u.message.topic = topic
  | _ => True

/-- No call of `buffer_message` takes the newest message of the topic off a full buffer. -/
def Spares (topic : String) (es : List PublisherEntry) : Prop :=
  ∀ rest ∈ es.tails, SparesFirst topic rest

instance (topic : String) : DecidablePred (SparesFirst topic) := fun es => by
  unfold SparesFirst
  split <;> infer_instance

instance (topic : String) : DecidablePred (Spares topic) := fun es =>
  inferInstanceAs (Decidable (∀ rest ∈ es.tails, SparesFirst topic rest))

structure Orderly (p : MqttPublisher) : Prop where
  numbered : p.Numbered
  sound : p.outbox.Sound Waiting.isEntry
  announced : ∀ a ∈ p.trace PublisherEntry.announced?,
    ∃ id, a.1.message.topic = availabilityTopic id

section
variable {p q : MqttPublisher} {topic : String} {es es' : List PublisherEntry}

theorem lastOn_append (topic : String) (es es' : List PublisherEntry) :
    lastOn topic (es ++ es') = (lastOn topic es').or (lastOn topic es) := by
  simp [lastOn, List.filterMap_append, List.filter_append, List.getLast?_append]

theorem lastOn_eq_none (h : ∀ e ∈ es, ∀ w ∈ e.entered?, w.message.topic ≠ topic) :
    lastOn topic es = none := by
  unfold lastOn
  rw [List.getLast?_eq_none_iff, List.filter_eq_nil_iff]
  intro w hw
  obtain ⟨e, he, hentered⟩ := List.mem_filterMap.mp hw
  simpa using h e he w hentered

theorem lastOn_entered (w : Waiting) :
    lastOn topic [.entered w] = if w.message.topic = topic then some w else none := by
  by_cases h : w.message.topic = topic <;> simp [lastOn, PublisherEntry.entered?, h]

theorem Spares.of_append (h : Spares topic (es ++ es')) : Spares topic es := by
  intro rest hrest
  have hlonger := h (rest ++ es') ((List.mem_tails _ _).mpr ?_)
  · unfold SparesFirst at hlonger ⊢
    split
    · exact hlonger
    · trivial
  · obtain ⟨before, rfl⟩ := (List.mem_tails _ _).mp hrest
    exact ⟨before, by rw [List.append_assoc]⟩

theorem Orderly.isEntry (h : p.Orderly) (htopic : ∀ id, availabilityTopic id ≠ topic) {w : Waiting}
    (hw : w ∈ p.outbox.seen) (hon : w.message.topic = topic) : w.isEntry = true := by
  rcases List.mem_append.mp hw with hentered | hannounced
  · exact h.sound.entries w hentered
  · obtain ⟨a, ha, rfl⟩ := List.mem_map.mp hannounced
    obtain ⟨id, hid⟩ := h.announced a ha
    exact absurd (hid.symm.trans hon) (htopic id)

theorem Act.orderly (h : Act p q) (hp : p.Orderly) : q.Orderly := by
  have hover : HandOver p q := Acts.handOver (.single h)
  obtain ⟨hnumbered, hmoves⟩ := hover.moves hp.numbered
  refine ⟨hnumbered, hp.sound.moves hmoves, ?_⟩
  have hsame (es : List PublisherEntry) (hlog : q.log = p.log ++ es)
      (hes : es.filterMap PublisherEntry.announced? = []) :
      q.trace PublisherEntry.announced? = p.trace PublisherEntry.announced? := by
    rw [trace_append _ hlog, hes, List.append_nil]
  cases h with
  | buffer message =>
    obtain ⟨-, ⟨-, hlog⟩ | ⟨front, rest, -, -, -, hlog⟩⟩ := p.bufferMessage_cases message
    · exact hsame _ hlog (by simp [PublisherEntry.announced?]) ▸ hp.announced
    · exact hsame _ hlog (by simp [PublisherEntry.announced?]) ▸ hp.announced
  | drain hstate =>
    obtain ⟨accepted, -, -, hlog, -⟩ := p.drainBuffer_spec
    exact hsame _ hlog (by simp [List.filterMap_map, PublisherEntry.announced?,
      Function.comp_def]) ▸ hp.announced
  | announce id =>
    intro a ha
    rw [trace_append (p := p) PublisherEntry.announced? rfl] at ha
    rcases List.mem_append.mp ha with ha | ha
    · exact hp.announced a ha
    · obtain rfl : a = (p.announcementOf id, p.buffer) := by
        simpa [PublisherEntry.announced?] using ha
      exact ⟨id, rfl⟩
  | other _ _ _ hlog =>
    obtain ⟨es, hlog, hes⟩ := hlog
    refine hsame _ hlog (List.filterMap_eq_nil_iff.mpr fun e he => ?_) ▸ hp.announced
    have hother := hes e he
    cases e <;> first | rfl | cases hother

/-! ## Evictions -/

theorem lastOn_mem {w : Waiting} (h : lastOn topic es = some w) :
    w ∈ es.filterMap PublisherEntry.entered? ∧ w.message.topic = topic := by
  obtain ⟨hmem, hon⟩ := List.mem_filter.mp (List.mem_of_getLast? h)
  exact ⟨hmem, by simpa using hon⟩

/-- What an act adds to the log where it buffers no message. -/
theorem Act.quiet_or_buffer (h : Act p q) : (∃ message, q = p.bufferMessage message) ∨
    ∃ es, q.log = p.log ++ es ∧ ∀ e ∈ es, e.entered? = none ∧ e.evicted? = none := by
  cases h with
  | buffer message => exact .inl ⟨message, rfl⟩
  | drain hstate =>
    obtain ⟨accepted, -, -, hlog, -⟩ := p.drainBuffer_spec
    exact .inr ⟨_, hlog, List.forall_mem_map.mpr fun _ _ => ⟨rfl, rfl⟩⟩
  | announce id => exact .inr ⟨_, rfl, by simp [PublisherEntry.entered?, PublisherEntry.evicted?]⟩
  | other _ _ _ hlog =>
    obtain ⟨es, hlog, hes⟩ := hlog
    refine .inr ⟨es, hlog, fun e he => ?_⟩
    have hother := hes e he
    cases e <;> first | exact ⟨rfl, rfl⟩ | cases hother

theorem trace_eq_of_none {α : Type} {f : PublisherEntry → Option α} (hlog : q.log = p.log ++ es)
    (hes : ∀ e ∈ es, f e = none) : q.trace f = p.trace f := by
  rw [trace_append _ hlog, List.filterMap_eq_nil_iff.mpr hes, List.append_nil]

theorem Acts.orderly (h : Acts p q) (hp : p.Orderly) : q.Orderly := by
  induction h with
  | refl => exact hp
  | tail _ hact ih => exact hact.orderly ih

/-- The newest message of a topic is not evicted as long as evictions spare the topic. -/
theorem newest_kept (htopic : ∀ id, availabilityTopic id ≠ topic) (h : Acts p q) (hp : p.Orderly) :
    ∃ es, q.log = p.log ++ es ∧ (Spares topic es → ∀ w, lastOn topic es = some w →
      w ∉ q.trace PublisherEntry.evicted?) := by
  induction h with
  | refl => exact ⟨[], by simp, by simp [lastOn]⟩
  | @tail u v hacts hact ih =>
    obtain ⟨es, hlog, hkept⟩ := ih
    have hu : u.Orderly := Acts.orderly hacts hp
    rcases hact.quiet_or_buffer with ⟨message, rfl⟩ | ⟨es', hlog', hquiet⟩
    · obtain ⟨e, he⟩ : ∃ e, e = u.entryOf message := ⟨_, rfl⟩
      have hfresh : e ∉ u.outbox.seen := he ▸ hu.numbered.fresh _ _
      have hnotEvicted : e ∉ u.trace PublisherEntry.evicted? := fun hevicted =>
        hfresh (hu.sound.mem_seen.mpr (.inr (.inl hevicted)))
      obtain ⟨-, ⟨-, hlog'⟩ | ⟨front, rest, hfront, -, -, hlog'⟩⟩ := u.bufferMessage_cases message
      · have hevicted : (u.bufferMessage message).trace PublisherEntry.evicted? =
            u.trace PublisherEntry.evicted? := trace_eq_of_none hlog' (by
          simp [PublisherEntry.evicted?])
        rw [hevicted]
        refine ⟨es ++ [.entered e], by rw [hlog', hlog, List.append_assoc, he]; rfl, ?_⟩
        intro hspares w hlast
        rw [lastOn_append, lastOn_entered] at hlast
        split at hlast
        · obtain rfl : e = w := by simpa using hlast
          exact hnotEvicted
        · exact hkept hspares.of_append w hlast
      · refine ⟨es ++ [.evicted front u.buffer, .entered e],
          by rw [hlog', hlog, List.append_assoc, he]; rfl, ?_⟩
        intro hspares w hlast
        have hevicted : (u.bufferMessage message).trace PublisherEntry.evicted? =
            u.trace PublisherEntry.evicted? ++ [front] := by
          rw [trace_append _ hlog']
          simp [PublisherEntry.evicted?]
        have hwaits (x : Waiting) (hx : x ∈ u.buffer) : x ∈ u.outbox.seen :=
          hu.sound.mem_seen.mpr (.inr (.inr hx))
        rw [hevicted, List.mem_append, List.mem_singleton, not_or]
        have hsplit : lastOn topic [.evicted front u.buffer, .entered e] =
            if e.message.topic = topic then some e else none := lastOn_entered e
        rw [lastOn_append, hsplit] at hlast
        split at hlast
        · obtain rfl : e = w := by simpa using hlast
          exact ⟨hnotEvicted, fun heq => hfresh (hwaits _ (by rw [hfront, heq]; simp))⟩
        · rename_i hoff
          replace hlast : lastOn topic es = some w := hlast
          refine ⟨hkept hspares.of_append w hlast, ?_⟩
          rintro rfl
          -- a newer one of the topic waits behind the evicted message
          have hon := (lastOn_mem hlast).2
          have hspared := hspares [.evicted w u.buffer, .entered e]
            ((List.mem_tails _ _).mpr (List.suffix_append _ _)) hon
          obtain ⟨x, hx, hxon⟩ := hspared.resolve_left hoff
          rw [hfront, List.tail_cons] at hx
          refine hu.sound.not_latest (P := fun w => w.message.topic = topic)
            (fun y hy => hu.isEntry htopic hy) hfront hx hon hxon ?_
          have hwhole : lastOn topic u.log = some w := by
            rw [hlog, lastOn_append, hlast]
            rfl
          exact hwhole
    · refine ⟨es ++ es', by rw [hlog', hlog, List.append_assoc], fun hspares w hlast => ?_⟩
      rw [trace_eq_of_none hlog' fun e he => (hquiet e he).2]
      have hnone : lastOn topic es' = none := lastOn_eq_none fun e he w hw => by
        rw [(hquiet e he).1] at hw
        cases hw
      rw [lastOn_append, hnone] at hlast
      exact hkept hspares.of_append w hlast

end

/-! ## What the handlers publish -/

def stateChange? (id : String) : PublisherInput → Option (ConnectionState × ConnectionState)
  | .event (some (.stateChange id' upstream downstream)) =>
    if id' = id then some (upstream, downstream) else none
  | _ => none

def stateChanges (id : String) (events : List PublisherEvent) :
    List (ConnectionState × ConnectionState) :=
  events.filterMap fun ev => stateChange? id ev.input

section
variable (crates : Crates) (id : String)

/-- After the first `n` entries of the log, the snapshot was published as it is. -/
def StatePublished (n : Nat) (p : MqttPublisher) : Prop :=
  ∀ snapshot, p.chargePointState.lookup id = some snapshot → snapshot ≠ {} →
    (lastOn (chargePointStateTopic id) (p.log.drop n)).map (fun w => w.message.payload) =
      some (crates.toText snapshot.toJson)

/-- From `p` to `q` the last of `links` is buffered for publication as the status of the charge
point, and changes of its snapshot are. -/
structure Told (links : Option (ConnectionState × ConnectionState)) (p q : MqttPublisher) :
    Prop where
  status : ∃ es, q.log = p.log ++ es ∧
    (lastOn (statusTopic id) es).map (fun w => w.message.payload) =
      links.map fun l => crates.toText (statusPayload l.1 l.2)
  state : ∀ n ≤ p.log.length, p.StatePublished crates id n → q.StatePublished crates id n

end

section
variable {crates : Crates} {now : Time} {id id' : String} {p q r : MqttPublisher}
  {links links' : Option (ConnectionState × ConnectionState)} {es : List PublisherEntry}

theorem Told.trans (h : Told crates id links p q) (h' : Told crates id links' q r) :
    Told crates id (links'.or links) p r := by
  obtain ⟨es, hlog, hes⟩ := h.status
  obtain ⟨es', hlog', hes'⟩ := h'.status
  refine ⟨⟨es ++ es', by rw [hlog', hlog, List.append_assoc], ?_⟩, fun n hn hp => ?_⟩
  · rw [lastOn_append, Option.map_or, hes, hes', Option.map_or]
  · refine h'.state n (hn.trans ?_) (h.state n hn hp)
    rw [hlog, List.length_append]
    omega

theorem Told.quiet_trans (h : Told crates id none p q) (h' : Told crates id links q r) :
    Told crates id links p r := by
  have hboth := h.trans h'
  rwa [Option.or_none] at hboth

theorem Told.trans_quiet (h : Told crates id links p q) (h' : Told crates id none q r) :
    Told crates id links p r := by
  have hboth := h.trans h'
  rwa [Option.none_or] at hboth

/-- Nothing is buffered on the retained topics of the charge point, and its snapshot is the same. -/
theorem told_of_quiet (hlog : q.log = p.log ++ es)
    (hes : ∀ topic, IsRetained id topic → lastOn topic es = none)
    (hstate : q.chargePointState.lookup id = p.chargePointState.lookup id) :
    Told crates id none p q := by
  refine ⟨⟨es, hlog, by rw [hes _ (.inl rfl)]; rfl⟩, fun n hn hp snapshot hlookup hchanged => ?_⟩
  rw [hlog, List.drop_append_of_le_length hn, lastOn_append, hes _ (.inr rfl), Option.none_or]
  exact hp snapshot (hstate ▸ hlookup) hchanged

theorem told_of_same (hlog : q.log = p.log) (hstate : q.chargePointState = p.chargePointState) :
    Told crates id none p q :=
  have hnothing : q.log = p.log ++ [] := by rw [hlog, List.append_nil]
  told_of_quiet hnothing (fun _ _ => rfl) (by rw [hstate])

/-- What an enqueued message adds to the log. -/
theorem enqueue_entries (message : MqttMessage) (p : MqttPublisher) :
    ∃ es, (p.enqueue message).log = p.log ++ es ∧ ∀ topic, lastOn topic es =
      if message.topic = topic then some (p.entryOf message) else none := by
  have hdrained (u : MqttPublisher) : ∃ es, u.drainIfConnected.log = u.log ++ es ∧
      ∀ topic, lastOn topic es = none := by
    unfold drainIfConnected
    split
    · obtain ⟨accepted, -, -, hlog, -⟩ := u.drainBuffer_spec
      exact ⟨_, hlog, fun topic => by simp [lastOn, List.filterMap_map, PublisherEntry.entered?,
        Function.comp_def]⟩
    · exact ⟨[], by simp, fun topic => rfl⟩
  obtain ⟨es', hlog', hes'⟩ := hdrained (p.bufferMessage message)
  obtain ⟨-, ⟨-, hlog⟩ | ⟨front, rest, -, -, -, hlog⟩⟩ := p.bufferMessage_cases message
  · refine ⟨_, hlog'.trans (by rw [hlog, List.append_assoc]), fun topic => ?_⟩
    rw [lastOn_append, hes', Option.none_or]
    exact lastOn_entered _
  · refine ⟨_, hlog'.trans (by rw [hlog, List.append_assoc]), fun topic => ?_⟩
    rw [lastOn_append, hes', Option.none_or]
    exact lastOn_entered _

theorem told_enqueue {message : MqttMessage} (h : ¬ IsRetained id message.topic)
    (p : MqttPublisher) : Told crates id none p (p.enqueue message) := by
  obtain ⟨es, hlog, hes⟩ := enqueue_entries message p
  refine told_of_quiet hlog (fun topic htopic => ?_) (by rw [(idle_enqueue message p).chargePointState])
  rw [hes, if_neg]
  exact fun heq => h (heq ▸ htopic)

theorem told_drainBuffer (p : MqttPublisher) : Told crates id none p p.drainBuffer := by
  obtain ⟨accepted, -, -, hlog, -⟩ := p.drainBuffer_spec
  refine told_of_quiet hlog (fun topic _ => ?_) rfl
  simp [lastOn, List.filterMap_map, PublisherEntry.entered?, Function.comp_def]

theorem told_drainIfConnected (p : MqttPublisher) : Told crates id none p p.drainIfConnected := by
  unfold drainIfConnected
  split
  · exact told_drainBuffer p
  · exact told_of_same rfl rfl

theorem told_publishOnline (p : MqttPublisher) : Told crates id none p p.publishOnline := by
  cases hlwt : p.lwtChargePointId with
  | none =>
    have hsame : p.publishOnline = p := by
      unfold publishOnline
      rw [hlwt]
    rw [hsame]
    exact told_of_same rfl rfl
  | some lwt =>
    rw [publishOnline_of_lwt hlwt]
    have hannounced : Told crates id none p (p.announced lwt) :=
      told_of_quiet rfl (fun _ _ => rfl) rfl
    exact hannounced.quiet_trans (told_drainBuffer _)

theorem told_flushBuffer (p : MqttPublisher) : Told crates id none p p.flushBuffer := by
  unfold flushBuffer
  split
  · exact told_of_same rfl rfl
  · have hstarted : Told crates id none p { p with flushInProgress := some 0 } :=
      told_of_same rfl rfl
    exact hstarted.quiet_trans (told_drainBuffer _)

theorem told_trySubscribe (p : MqttPublisher) : Told crates id none p p.trySubscribe := by
  unfold trySubscribe
  split
  · exact told_of_same rfl rfl
  · split <;> exact told_of_same rfl rfl

/-- A status that is enqueued is the status of its charge point. -/
theorem told_status (upstream downstream : ConnectionState) (p : MqttPublisher) :
    Told crates id (some (upstream, downstream)) p (p.enqueue
      { topic := statusTopic id, payload := crates.toText (statusPayload upstream downstream)
        qos := .atLeastOnce, retain := true }) := by
  obtain ⟨message, hmessage⟩ : ∃ message : MqttMessage, message =
      { topic := statusTopic id, payload := crates.toText (statusPayload upstream downstream)
        qos := .atLeastOnce, retain := true } := ⟨_, rfl⟩
  rw [← hmessage]
  obtain ⟨es, hlog, hes⟩ := enqueue_entries message p
  refine ⟨⟨es, hlog, ?_⟩, fun n hn hp snapshot hlookup hchanged => ?_⟩
  · rw [hes, hmessage]
    simp [entryOf]
  · have hother : message.topic ≠ chargePointStateTopic id :=
      hmessage ▸ statusTopic_ne_chargePointStateTopic id id
    rw [hlog, List.drop_append_of_le_length hn, lastOn_append, hes, if_neg hother, Option.none_or]
    rw [(idle_enqueue message p).chargePointState] at hlookup
    exact hp snapshot hlookup hchanged

/-- What publishing a snapshot adds to the log. -/
theorem publishChargePointState_entries (snapshot : ChargePointState) (p : MqttPublisher) :
    ∃ es, (p.publishChargePointState crates id' snapshot).log = p.log ++ es ∧
      lastOn (statusTopic id) es = none ∧
      (lastOn (chargePointStateTopic id) es).map (fun w => w.message.payload) =
        if id' = id then some (crates.toText snapshot.toJson) else none := by
  obtain ⟨message, hmessage⟩ : ∃ message : MqttMessage, message =
      { topic := chargePointStateTopic id', payload := crates.toText snapshot.toJson
        qos := .atLeastOnce, retain := true } := ⟨_, rfl⟩
  have hpublish : p.publishChargePointState crates id' snapshot = p.enqueue message := hmessage ▸ rfl
  obtain ⟨es, hlog, hes⟩ := enqueue_entries message p
  refine ⟨es, hpublish ▸ hlog, ?_, ?_⟩
  · rw [hes, if_neg]
    exact hmessage ▸ (statusTopic_ne_chargePointStateTopic id id').symm
  · rw [hes]
    by_cases hid : id' = id
    · simp [hmessage, hid, entryOf]
    · have hother : message.topic ≠ chargePointStateTopic id := by
        rw [hmessage]
        exact fun heq => hid (chargePointStateTopic_inj.mp heq)
      rw [if_neg hother, if_neg hid]
      rfl

/-- A snapshot that has changed is published. -/
theorem told_storeSnapshot {folded : Bool × ChargePointState} (p : MqttPublisher)
    (hsame : folded.1 = false → folded.2 = p.snapshotOf id') :
    Told crates id none p (p.storeSnapshot crates id' folded) := by
  obtain ⟨changed, snapshot⟩ := folded
  unfold storeSnapshot
  dsimp only at hsame ⊢
  cases changed with
  | false =>
    refine ⟨⟨[], by simp, rfl⟩, fun n hn hp snapshot' hlookup hchanged => ?_⟩
    have hnew : snapshot = p.snapshotOf id' := hsame rfl
    simp only [Bool.false_eq_true, if_false] at hlookup ⊢
    by_cases hid : id' = id
    · subst hid
      rw [AList.lookup_insert, Option.some.injEq] at hlookup
      cases hold : p.chargePointState.lookup id' with
      | none =>
        have hempty : p.snapshotOf id' = {} := by simp [snapshotOf, hold]
        exact absurd (hlookup.symm.trans (hnew.trans hempty)) hchanged
      | some old =>
        have hkept : p.snapshotOf id' = old := by simp [snapshotOf, hold]
        exact hp snapshot' (by rw [hold, ← hkept, ← hnew, hlookup]) hchanged
    · rw [AList.lookup_insert_ne (Ne.symm hid)] at hlookup
      exact hp snapshot' hlookup hchanged
  | true =>
    simp only [if_true]
    obtain ⟨u, hu⟩ : ∃ u : MqttPublisher, u = { p with
        chargePointState := p.chargePointState.insert id' snapshot
        snapshotStore := p.snapshotStore.save (p.chargePointState.insert id' snapshot) } := ⟨_, rfl⟩
    rw [← hu]
    obtain ⟨es, hlog, hstatus, hstate⟩ :=
      @publishChargePointState_entries crates id id' snapshot u
    have hulog : u.log = p.log := hu ▸ rfl
    have hlookups : (u.publishChargePointState crates id' snapshot).chargePointState =
        p.chargePointState.insert id' snapshot :=
      (idle_enqueue _ u).chargePointState.trans (hu ▸ rfl)
    rw [hulog] at hlog
    refine ⟨⟨es, hlog, by rw [hstatus]; rfl⟩, fun n hn hp snapshot' hlookup hchanged => ?_⟩
    rw [hlookups] at hlookup
    rw [hlog, List.drop_append_of_le_length hn, lastOn_append, Option.map_or, hstate]
    by_cases hid : id' = id
    · subst hid
      rw [AList.lookup_insert, Option.some.injEq] at hlookup
      simp [hlookup]
    · rw [AList.lookup_insert_ne (Ne.symm hid)] at hlookup
      rw [if_neg hid, Option.none_or]
      exact hp snapshot' hlookup hchanged

/-! ### Of an id without a slash -/

theorem told_publishCommandResult (hid : slashes id = 0) (result : CommandResult)
    (p : MqttPublisher) :
    Told crates id none p (p.publishCommandResult crates now id' result) := by
  have htopic : ¬ IsRetained id (commandResultTopic id') :=
    fun h => h.ne_commandResultTopic hid id' rfl
  have hresult : Told crates id none p (p.enqueue
      { topic := commandResultTopic id', payload := crates.toText result.toJson
        qos := .atLeastOnce, retain := false }) := told_enqueue htopic p
  refine hresult.quiet_trans ?_
  have hnoted (u : MqttPublisher) : Told crates id none u (u.note [.folded id' result]) :=
    told_of_quiet rfl (fun _ _ => rfl) rfl
  refine (hnoted _).quiet_trans (told_storeSnapshot _ ?_)
  exact fun h => ChargePointState.applyCommandResult_unchanged _ _ _ h

theorem told_dispatchCommand (hid : slashes id = 0) (request : CommandRequest) (p : MqttPublisher) :
    Told crates id none p (p.dispatchCommand crates now id' request) := by
  unfold dispatchCommand
  split
  · exact told_publishCommandResult hid _ p
  · split
    · exact told_of_quiet rfl (fun _ _ => rfl) rfl
    · rename_i e _
      have hnoted : Told crates id none p (p.note [.dispatched id' request (.error e)]) :=
        told_of_quiet rfl (fun _ _ => rfl) rfl
      exact hnoted.quiet_trans (told_publishCommandResult hid _ _)

theorem told_maybeReapplyLimit (hid : slashes id = 0) (p : MqttPublisher) :
    Told crates id none p (p.maybeReapplyLimit crates now id') := by
  unfold maybeReapplyLimit
  split
  · exact told_of_same rfl rfl
  · exact told_dispatchCommand hid _ p

theorem told_handleIncomingPublish (hid : slashes id = 0) (topic : String) (payload : ByteArray)
    (p : MqttPublisher) :
    Told crates id none p (p.handleIncomingPublish crates now topic payload) := by
  unfold handleIncomingPublish
  split
  · exact told_of_same rfl rfl
  · split
    · exact told_publishCommandResult hid _ p
    · exact told_dispatchCommand hid _ p

theorem told_handleEvent (hid : slashes id = 0) (event : MqttEvent) (p : MqttPublisher) :
    Told crates id (stateChange? id (.event (some event))) p (p.handleEvent crates now event) := by
  cases event with
  | messageForwarded id' frame direction action =>
    have htopic : ¬ IsRetained id (messageTopic id' (directionStr direction) action) :=
      fun h => h.ne_messageTopic hid _ _ _ rfl
    have hmessage : Told crates id none p (p.enqueue
        { topic := messageTopic id' (directionStr direction) action
          payload := crates.toText (messagePayload crates frame), qos := .atLeastOnce
          retain := false }) := told_enqueue htopic p
    refine hmessage.quiet_trans ?_
    exact told_storeSnapshot _ fun h => ChargePointState.apply_unchanged _ _ _ h
  | stateChange id' upstream downstream =>
    have hstatus : Told crates id (stateChange? id (.event (some
        (.stateChange id' upstream downstream)))) p (p.enqueue
          { topic := statusTopic id', payload := crates.toText (statusPayload upstream downstream)
            qos := .atLeastOnce, retain := true }) := by
      by_cases heq : id' = id
      · subst heq
        simpa [stateChange?] using told_status upstream downstream p
      · rw [show stateChange? id (.event (some (.stateChange id' upstream downstream))) = none
          from if_neg heq]
        refine told_enqueue ?_ p
        rintro (hsame | hsame)
        · exact heq (statusTopic_inj.mp hsame)
        · exact statusTopic_ne_chargePointStateTopic _ _ hsame
    have hlinked (u : MqttPublisher) : Told crates id none u
        { u with linkState := u.linkState.insert id' (upstream, downstream) } :=
      told_of_same rfl rfl
    unfold handleEvent
    dsimp only
    split
    · exact hstatus.trans_quiet ((hlinked _).quiet_trans (told_maybeReapplyLimit hid _))
    · exact hstatus.trans_quiet (hlinked _)
  | commandResult id' result => exact told_publishCommandResult hid result p

/-! ### A ConnAck -/

/-- What publishing a list of snapshots adds to the log. -/
theorem publishSnapshots_entries (es : List (Sigma fun _ : String => ChargePointState))
    (p : MqttPublisher) :
    ∃ es', (es.foldl (fun p e => p.publishChargePointState crates e.1 e.2) p).log = p.log ++ es' ∧
      lastOn (statusTopic id) es' = none ∧
      (lastOn (chargePointStateTopic id) es').map (fun w => w.message.payload) =
        ((es.filter fun e => e.1 = id).getLast?).map fun e => crates.toText e.2.toJson := by
  induction es generalizing p with
  | nil => exact ⟨[], by simp, rfl, rfl⟩
  | cons e es ih =>
    obtain ⟨first, hlog, hstatus, hstate⟩ :=
      @publishChargePointState_entries crates id e.1 e.2 p
    obtain ⟨others, hlog', hstatus', hstate'⟩ := ih (p.publishChargePointState crates e.1 e.2)
    refine ⟨first ++ others, by rw [List.foldl_cons, hlog', hlog, List.append_assoc], ?_, ?_⟩
    · rw [lastOn_append, hstatus, hstatus', Option.none_or]
    · rw [lastOn_append, Option.map_or, hstate, hstate']
      by_cases hid : e.1 = id
      · rw [List.filter_cons_of_pos (by simpa using hid), List.getLast?_cons]
        cases (es.filter fun e => e.1 = id).getLast? <;> simp [hid]
      · rw [List.filter_cons_of_neg (by simpa using hid), if_neg hid, Option.or_none]

/-- The snapshots republished are those the publisher holds. -/
theorem republished_entry {snapshot : ChargePointState}
    (h : p.chargePointState.lookup id = some snapshot) :
    (p.chargePointState.entries.filter fun e => e.1 = id).getLast? = some ⟨id, snapshot⟩ := by
  have hmem : (⟨id, snapshot⟩ : Sigma fun _ : String => ChargePointState) ∈
      p.chargePointState.entries := AList.mem_lookup_iff.mp h
  cases hlast : (p.chargePointState.entries.filter fun e => e.1 = id).getLast? with
  | none =>
    rw [List.getLast?_eq_none_iff, List.filter_eq_nil_iff] at hlast
    simpa using hlast _ hmem
  | some e =>
    obtain ⟨he, hid⟩ := List.mem_filter.mp (List.mem_of_getLast? hlast)
    obtain ⟨id', snapshot'⟩ := e
    obtain rfl : id' = id := by simpa using hid
    have hlookup : p.chargePointState.lookup id' = some snapshot' := AList.mem_lookup_iff.mpr he
    rw [h, Option.some.injEq] at hlookup
    rw [hlookup]

/-- Republishing leaves what was published, and publishes what was not. -/
theorem republishSnapshots_published (crates : Crates) (id : String) (p : MqttPublisher) :
    Told crates id none p (p.republishSnapshots crates) ∧
      ∀ n ≤ p.log.length, (p.republishSnapshots crates).StatePublished crates id n := by
  obtain ⟨es, hlog, hstatus, hstate⟩ :=
    @publishSnapshots_entries crates id p.chargePointState.entries p
  have hsame := (idle_republishSnapshots crates p).chargePointState
  have hpublished (n : Nat) (hn : n ≤ p.log.length) :
      (p.republishSnapshots crates).StatePublished crates id n := by
    intro snapshot hlookup _
    rw [hsame] at hlookup
    rw [republished_entry hlookup] at hstate
    unfold republishSnapshots
    rw [hlog, List.drop_append_of_le_length hn, lastOn_append, Option.map_or, hstate]
    rfl
  exact ⟨⟨⟨es, hlog, by rw [hstatus]; rfl⟩, fun n hn _ => hpublished n hn⟩, hpublished⟩

theorem onConnack_published (crates : Crates) (id : String) (p : MqttPublisher) :
    Told crates id none p (p.onConnack crates) ∧
      ∀ n ≤ p.log.length, (p.onConnack crates).StatePublished crates id n := by
  have hup : Told crates id none p p.connected := told_of_same rfl rfl
  have hflushed : Told crates id none p p.connected.publishOnline.flushBuffer :=
    (hup.quiet_trans (told_publishOnline _)).quiet_trans (told_flushBuffer _)
  obtain ⟨hrepublished, hpublished⟩ :=
    republishSnapshots_published crates id p.connected.publishOnline.flushBuffer
  have hrest (u : MqttPublisher) (pending : Bool) : Told crates id none u
      ({ u with subscribePending := pending } : MqttPublisher).trySubscribe := by
    have hpending : Told crates id none u { u with subscribePending := pending } :=
      told_of_same rfl rfl
    exact hpending.quiet_trans (told_trySubscribe _)
  refine ⟨(hflushed.quiet_trans hrepublished).quiet_trans (hrest _ _), fun n hn => ?_⟩
  obtain ⟨es, hlog, -⟩ := hflushed.status
  obtain ⟨es', hlog', -⟩ := hrepublished.status
  have hflushedLength : n ≤ p.connected.publishOnline.flushBuffer.log.length := by
    rw [hlog, List.length_append]
    omega
  have hlength : n ≤
      (p.connected.publishOnline.flushBuffer.republishSnapshots crates).log.length := by
    rw [hlog', List.length_append]
    omega
  exact (hrest _ _).state n hlength (hpublished n hflushedLength)

/-! ## Runs -/

/-- No caller outside the module publishes on the retained topics of the charge point. -/
def LeavesRetained (id : String) : PublisherInput → Prop
  | .enqueue message => ¬ IsRetained id message.topic
  | _ => True

theorem told_onPolled (hid : slashes id = 0) (event : Polled) (p : MqttPublisher) :
    Told crates id none p (p.onPolled crates now event) := by
  cases event with
  | connAck => exact (onConnack_published crates id p).1
  | publish topic payload =>
    exact (told_handleIncomingPublish hid topic payload p).quiet_trans (told_drainIfConnected _)
  | other =>
    unfold onPolled
    dsimp only
    split
    · exact (told_trySubscribe p).quiet_trans (told_drainBuffer _)
    · exact told_of_same rfl rfl
  | error =>
    unfold onPolled onPollError
    dsimp only
    split <;> exact told_of_same rfl rfl

theorem told_of_stepped {input : PublisherInput} (hid : slashes id = 0)
    (hinput : LeavesRetained id input) (h : Stepped crates now p input q) :
    Told crates id (stateChange? id input) p q := by
  have hpolled (taken : Nat) : Told crates id none p (p.afterPoll taken) := told_of_same rfl rfl
  cases h with
  | world => exact told_of_same rfl rfl
  | enqueue message => exact told_enqueue hinput p
  | startup => exact told_of_same rfl rfl
  | startupTimeout => exact told_of_same rfl rfl
  | started taken =>
    have hrunning (u : MqttPublisher) : Told crates id none u { u with stage := .running } :=
      told_of_same rfl rfl
    exact ((hpolled taken).quiet_trans (onConnack_published crates id _).1).quiet_trans
      (hrunning _)
  | waited => exact told_of_same rfl rfl
  | polled taken event => exact (hpolled _).quiet_trans (told_onPolled hid event _)
  | handled event => exact told_handleEvent hid event p
  | stopped => exact told_of_same rfl rfl

/-- A run buffers the last state change it handles as the status of the charge point. -/
theorem told_of_run {events : List PublisherEvent} (hid : slashes id = 0)
    (hevents : ∀ ev ∈ events, LeavesRetained id ev.input)
    (hrun : (step crates).run p events = some q) :
    Told crates id (stateChanges id events).getLast? p q := by
  induction events generalizing p with
  | nil =>
    obtain rfl : p = q := by simpa using hrun
    exact told_of_same rfl rfl
  | cons ev events ih =>
    obtain ⟨hev, hevents⟩ := List.forall_mem_cons.mp hevents
    obtain ⟨u, hu, hrest⟩ := ((step crates).run_cons p q ev events).mp hrun
    have hboth := (told_of_stepped hid hev (stepped_of_step hu)).trans (ih hevents hrest)
    have hlast : (stateChanges id (ev :: events)).getLast? =
        (stateChanges id events).getLast?.or (stateChange? id ev.input) := by
      unfold stateChanges
      cases hchange : stateChange? id ev.input with
      | none => simp only [List.filterMap_cons, hchange, Option.or_none]
      | some links =>
        simp only [List.filterMap_cons, hchange, List.getLast?_cons]
        cases (events.filterMap fun ev => stateChange? id ev.input).getLast? <;> rfl
    exact hlast ▸ hboth

theorem orderly_of_run {events : List PublisherEvent} {setup : PublisherSetup}
    (hrun : (step crates).run (build setup) events = some p) : p.Orderly := by
  obtain ⟨-, hlog, -⟩ := build_fields setup
  have hstart : (build setup).Orderly := by
    obtain ⟨hnumbered, hsound⟩ := @sound_of_run crates (build setup) setup [] rfl
    exact ⟨hnumbered, hsound, by simp [trace, hlog]⟩
  exact (acts_of_run hrun).orderly hstart

/-- Once nothing waits, the last message buffered on a retained topic since `p` is the last one the
client has accepted on it, unless the newest message of the topic was evicted since. -/
theorem lastAccepted_of_spares {topic : String} {w : Waiting} (hretained : IsRetained id topic)
    (h : Acts p q) (hp : p.Orderly) (hempty : q.buffer = [])
    (hspares : Spares topic (q.log.drop p.log.length))
    (hlast : lastOn topic (q.log.drop p.log.length) = some w) :
    q.lastAccepted topic = some w := by
  have htopic := hretained.ne_availabilityTopic
  have hq : q.Orderly := h.orderly hp
  obtain ⟨es, hlog, hkept⟩ := newest_kept htopic h hp
  have hsince : q.log.drop p.log.length = es := by rw [hlog, List.drop_left]
  rw [hsince] at hspares hlast
  have hwhole : lastOn topic q.log = some w := by
    rw [hlog, lastOn_append, hlast]
    rfl
  refine hq.sound.latest_accepted (P := fun w : Waiting => w.message.topic = topic) ?_ hempty ?_
    (hkept hspares w hlast)
  · exact fun x hx => hq.isEntry htopic hx
  · exact hwhole

/-- Where no eviction has taken the newest message off a retained topic, that topic is up to date
whenever nothing waits: the status with the last state change handled, the snapshot with the one in
memory, of which only those count that were buffered since the last ConnAck. -/
theorem retained_converges {events events' : List PublisherEvent} {setup : PublisherSetup}
    {taken : Nat} (hid : slashes id = 0)
    (hrun : (step crates).run (build setup) events = some p)
    (hconnack : step crates p ⟨now, .poll taken .connAck⟩ = some q)
    (hrun' : (step crates).run q events' = some r)
    (hevents : ∀ ev ∈ events ++ events', LeavesRetained id ev.input)
    (hempty : r.buffer = []) :
    (Spares (statusTopic id) r.log → ∀ upstream downstream,
      (stateChanges id (events ++ events')).getLast? = some (upstream, downstream) →
        (r.lastAccepted (statusTopic id)).map (fun w => w.message.payload) =
          some (crates.toText (statusPayload upstream downstream))) ∧
      (Spares (chargePointStateTopic id) (r.log.drop p.log.length) → ∀ snapshot,
        r.chargePointState.lookup id = some snapshot → snapshot ≠ {} →
          (r.lastAccepted (chargePointStateTopic id)).map (fun w => w.message.payload) =
            some (crates.toText snapshot.toJson)) := by
  obtain ⟨-, hlog, -⟩ := build_fields setup
  obtain ⟨hbefore, hafter⟩ := List.forall_mem_append.mp hevents
  have hacts : Acts p r :=
    (acts_of_stepped (stepped_of_step hconnack)).trans (acts_of_run hrun')
  have hp : p.Orderly := orderly_of_run hrun
  have hlater : Told crates id (stateChanges id events').getLast? q r :=
    told_of_run hid hafter hrun'
  have hsame : Told crates id none p q :=
    @told_of_stepped crates now id p q (.poll taken .connAck) hid trivial
      (stepped_of_step hconnack)
  have hn : p.log.length ≤ q.log.length := by
    obtain ⟨es, hes, -⟩ := hsame.status
    rw [hes, List.length_append]
    omega
  constructor
  · intro hspares upstream downstream hlinks
    have hlast : (stateChanges id (events ++ events')).getLast? =
        (stateChanges id events').getLast?.or (stateChanges id events).getLast? := by
      simp [stateChanges, List.getLast?_append]
    have htold := ((told_of_run hid hbefore hrun).trans_quiet hsame).trans hlater
    rw [← hlast, hlinks] at htold
    obtain ⟨es, hes, hpayload⟩ := htold.status
    have hes' : es = r.log.drop (build setup).log.length := by rw [hes, List.drop_left]
    obtain ⟨w, hw, hwpayload⟩ := Option.map_eq_some_iff.mp hpayload
    have hstart : (build setup).Orderly := @orderly_of_run crates (build setup) [] setup rfl
    -- the newest message was not evicted and nothing waits, so the client has it
    have haccepted := lastAccepted_of_spares (.inl rfl) ((acts_of_run hrun).trans hacts) hstart
      hempty (by simpa [hlog] using hspares) (hes' ▸ hw)
    rw [haccepted, Option.map_some, hwpayload]
  · intro hspares snapshot hlookup hchanged
    -- the ConnAck republishes every snapshot, whatever the log had before
    have hpublished : q.StatePublished crates id p.log.length := by
      rw [step_connAck hconnack]
      exact (onConnack_published crates id (p.afterPoll taken)).2 _ le_rfl
    have hstate := hlater.state _ hn hpublished snapshot hlookup hchanged
    obtain ⟨w, hw, hwpayload⟩ := Option.map_eq_some_iff.mp hstate
    rw [lastAccepted_of_spares (.inr rfl) hacts hp hempty hspares hw, Option.map_some, hwpayload]

/-- A charger comes up, the broker connection fails, and the Central System goes away. -/
def downDuringOutage : List PublisherEvent :=
  [⟨0, .startup⟩, ⟨1, .poll 0 .connAck⟩,
    ⟨2, .event (some (.stateChange "CP01" .connected .connected))⟩, ⟨3, .poll 1 .error⟩,
    ⟨4, .event (some (.stateChange "CP01" .disconnected .connected))⟩]

theorem retained_converges_downDuringOutage :
    ∃ p q, (step (.ofTable [])).run (build {}) downDuringOutage = some p ∧
      step (.ofTable []) p ⟨5, .poll 0 .connAck⟩ = some q ∧
      (q.lastAccepted (statusTopic "CP01")).map (fun w => w.message.payload) =
        some ((Crates.ofTable []).toText (statusPayload .disconnected .connected)) := by
  have hseen : (((step (.ofTable [])).run (build {}) downDuringOutage).bind fun p =>
      (step (.ofTable []) p ⟨5, .poll 0 .connAck⟩).map fun q =>
        (q.buffer.isEmpty, decide (Spares (statusTopic "CP01") q.log))) = some (true, true) := by
    decide +kernel
  obtain ⟨p, hrun, hp⟩ := Option.bind_eq_some_iff.mp hseen
  obtain ⟨q, hconnack, hq⟩ := Option.map_eq_some_iff.mp hp
  simp only [Prod.mk.injEq, decide_eq_true_eq, List.isEmpty_iff] at hq
  have hslashes : slashes "CP01" = 0 := by decide
  have hstays : (step (.ofTable [])).run q [] = some q := rfl
  have hall := retained_converges hslashes hrun hconnack hstays
    (by simp [downDuringOutage, LeavesRetained]) hq.1
  exact ⟨p, q, hrun, hconnack, hall.1 hq.2 .disconnected .connected (by decide)⟩

/-- Another charger's status in a buffer of one, and the first one's is not published after the
reconnect. -/
theorem not_retained_converges_evicted :
    ∃ p q, (step (.ofTable [])).run (build { maxBufferSize := 1 }) (downDuringOutage ++
        [⟨4, .event (some (.stateChange "CP02" .connected .connected))⟩]) = some p ∧
      step (.ofTable []) p ⟨5, .poll 0 .connAck⟩ = some q ∧
      q.state = .connected ∧ q.buffer = [] ∧
      (stateChanges "CP01" downDuringOutage).getLast? = some (.disconnected, .connected) ∧
      (q.lastAccepted (statusTopic "CP01")).map (fun w => w.message.payload) =
        some ((Crates.ofTable []).toText (statusPayload .connected .connected)) ∧
      (Crates.ofTable []).toText (statusPayload .connected .connected) ≠
        (Crates.ofTable []).toText (statusPayload .disconnected .connected) := by
  have hseen : (((step (.ofTable [])).run (build { maxBufferSize := 1 }) (downDuringOutage ++
      [⟨4, .event (some (.stateChange "CP02" .connected .connected))⟩])).bind fun p =>
        (step (.ofTable []) p ⟨5, .poll 0 .connAck⟩).map fun q =>
          (q.state, q.buffer.isEmpty, (q.lastAccepted (statusTopic "CP01")).map
            fun w => w.message.payload)) =
      some (.connected, true,
        some ((Crates.ofTable []).toText (statusPayload .connected .connected))) := by
    decide +kernel
  obtain ⟨p, hrun, hp⟩ := Option.bind_eq_some_iff.mp hseen
  obtain ⟨q, hconnack, hq⟩ := Option.map_eq_some_iff.mp hp
  simp only [Prod.mk.injEq, List.isEmpty_iff] at hq
  exact ⟨p, q, hrun, hconnack, hq.1, hq.2.1, by decide, hq.2.2, by decide⟩

end

end MqttPublisher

end OcppProxy

import OcppProxy.Session

/-!
# Reading a session's log

`trace p` is the part of the log that `p` selects. The lemmas say what each helper of the session
adds to the log and which fields it leaves alone, so that later proofs do not unfold it.
-/

namespace OcppProxy

namespace Entry

def isLocal : Entry → Bool
  | call .. | received .. | displaced .. | refused .. | settled .. => true
  | _ => false

def isFrame : Entry → Bool
  | readCharger _ | readCentral _ | toCentral _ | toCharger _ | consumed _ | evicted _ => true
  | _ => false

def local? (e : Entry) : Option Entry := if e.isLocal then some e else none

def readCharger? : Entry → Option String
  | readCharger text => some text
  | _ => none

def toCentral? : Entry → Option String
  | toCentral text => some text
  | _ => none

def toCharger? : Entry → Option String
  | toCharger text => some text
  | _ => none

def consumed? : Entry → Option String
  | consumed text => some text
  | _ => none

def call? : Entry → Option PreparedCall
  | call _ prepared => some prepared
  | _ => none

def evicted? : Entry → Option String
  | evicted frame => some frame.raw
  | _ => none

end Entry

/-- An entry of a log with more appended was there before, or is one of those. -/
theorem split_append {α : Type} {l new before after : List α} {e : α}
    (h : l ++ new = before ++ e :: after) :
    (∃ after', l = before ++ e :: after') ∨
      ∃ before', before = l ++ before' ∧ new = before' ++ e :: after := by
  rcases List.append_eq_append_iff.mp h with ⟨before', hbefore, hnew⟩ | ⟨rest, hl, hrest⟩
  · exact .inr ⟨before', hbefore, hnew⟩
  · cases rest with
    | nil => exact .inr ⟨[], by simpa using hl.symm, by simpa using hrest.symm⟩
    | cons e' rest =>
      obtain ⟨rfl, -⟩ := List.cons.inj hrest
      exact .inl ⟨rest, hl⟩

namespace Session

variable {α : Type}

def trace (p : Entry → Option α) (s : Session) : List α := s.log.filterMap fun e => p e.2

section
variable (s : Session) (cx : SessionContext) (now : Time) (p : Entry → Option α)

@[simp] theorem note_log (e : Entry) : (s.note now e).log = s.log ++ [(now, e)] := rfl
@[simp] theorem note_phase (e : Entry) : (s.note now e).phase = s.phase := rfl
@[simp] theorem note_forwarder (e : Entry) : (s.note now e).forwarder = s.forwarder := rfl
@[simp] theorem note_localCalls (e : Entry) : (s.note now e).localCalls = s.localCalls := rfl

@[simp] theorem noteAll_log (es : List Entry) :
    (s.noteAll now es).log = s.log ++ es.map fun e => (now, e) := rfl
@[simp] theorem noteAll_phase (es : List Entry) : (s.noteAll now es).phase = s.phase := rfl
@[simp] theorem noteAll_forwarder (es : List Entry) :
    (s.noteAll now es).forwarder = s.forwarder := rfl
@[simp] theorem noteAll_localCalls (es : List Entry) :
    (s.noteAll now es).localCalls = s.localCalls := rfl

theorem trace_append {s t : Session} {added : List (Time × Entry)} (h : t.log = s.log ++ added) :
    t.trace p = s.trace p ++ added.filterMap fun e => p e.2 := by
  simp only [trace, h, List.filterMap_append]

/-- A trace depends on the log only. -/
theorem trace_congr {s t : Session} (h : t.log = s.log) : t.trace p = s.trace p := by
  simp only [trace, h]

@[simp] theorem trace_note (e : Entry) :
    (s.note now e).trace p = s.trace p ++ (p e).toList := by
  rw [trace_append p (note_log s now e)]
  cases h : p e <;> simp [h]

@[simp] theorem trace_noteAll (es : List Entry) :
    (s.noteAll now es).trace p = s.trace p ++ es.filterMap p := by
  rw [trace_append p (noteAll_log s now es), List.filterMap_map]
  rfl

theorem noteAll_nil : s.noteAll now [] = s := by simp [noteAll]

theorem foldl_note {β : Type} (f : β → Entry) (l : List β) :
    l.foldl (fun s b => s.note now (f b)) s = s.noteAll now (l.map f) := by
  induction l generalizing s with
  | nil => exact (noteAll_nil s now).symm
  | cons b l ih =>
    rw [List.foldl_cons, ih]
    simp [note, noteAll, Function.comp_def]

theorem setUpstreamState_eq (newState : ConnectionState) :
    ∃ manager, ∃ events : List MqttEvent, s.setUpstreamState cx now newState =
      ({ s with manager } : Session).noteAll now (events.map .event) := by
  unfold setUpstreamState
  split
  · exact ⟨s.manager, [], rfl.trans (noteAll_nil s now).symm⟩
  · exact ⟨_, [_], rfl⟩

theorem trace_setUpstreamState (newState : ConnectionState) (hp : ∀ e, p (.event e) = none) :
    (s.setUpstreamState cx now newState).trace p = s.trace p := by
  obtain ⟨manager, events, h⟩ := s.setUpstreamState_eq cx now newState
  rw [h, trace_noteAll,
    List.filterMap_eq_nil_iff.mpr (List.forall_mem_map.mpr fun e _ => hp e), List.append_nil]
  rfl

theorem setUpstreamState_phase (newState : ConnectionState) :
    (s.setUpstreamState cx now newState).phase = s.phase := by
  obtain ⟨manager, events, h⟩ := s.setUpstreamState_eq cx now newState
  rw [h, noteAll_phase]

end

/-! ## Local calls -/

section
variable (s : Session) (cx : SessionContext) (now : Time)

theorem foldl_refuse (requests : List CommandRequest) (status : CommandStatus) (detail : String) :
    requests.foldl (fun s request => s.refuse cx now request status detail) s =
      s.noteAll now (requests.map fun request =>
        .refused request (.forRequest cx.crates now request status (some detail))) :=
  foldl_note s now _ requests

theorem foldl_noteDisplaced (newer : CommandRequest) (requests : List CommandRequest) :
    requests.foldl (noteDisplaced cx now newer) s =
      s.noteAll now (requests.map fun request => .displaced newer request
        (.forRequest cx.crates now request (displacedStatus request).1
          (some (displacedStatus request).2))) :=
  foldl_note s now _ requests

/-- What `commandArm` logs of a request it queues. -/
def receiptEntries (request : CommandRequest) : List Entry :=
  .received request :: (s.localCalls.push request).1.map fun r => .displaced request r
    (.forRequest cx.crates now r (displacedStatus r).1 (some (displacedStatus r).2))

theorem commandArm_some (env : Env) (request : CommandRequest) :
    s.commandArm cx env (some request) =
      (({ s with localCalls := (s.localCalls.push request).2 } : Session).noteAll env.now
        (s.receiptEntries cx env.now request)).sendThen cx env := by
  unfold commandArm
  simp only [foldl_noteDisplaced, receiptEntries]
  congr 1
  simp [note, noteAll]

def expiryEntries : List Entry :=
  let timeoutS := cx.config.charging.commandTimeoutSeconds
  let (expired, inFlight, _) := s.localCalls.expire now
  (expired.map fun request => .refused request (.forRequest cx.crates now request .timeout
    (some (s!"not sent within {timeoutS} s (the charger was busy answering the " ++
      "Central System, or the line was down)")))) ++
  inFlight.toList.map fun f => .settled f (.forInFlight cx.crates now f .timeout none
    (some s!"no answer from the charger within {timeoutS} s"))

theorem commandTickArm_eq (env : Env) : s.commandTickArm cx env =
    (({ s with localCalls := (s.localCalls.expire env.now).2.2 } : Session).noteAll env.now
      (s.expiryEntries cx env.now)).sendThen cx env := by
  unfold commandTickArm
  simp only [foldl_refuse, expiryEntries]
  cases (s.localCalls.expire env.now).2.1 with
  | none => rw [Option.toList_none, List.map_nil, List.append_nil]
  | some f => simp only [settle, note, noteAll, Option.toList_some, List.map_cons, List.map_nil,
      List.map_append, List.append_assoc]

def teardownEntries : List Entry :=
  (s.localCalls.queued.map fun request => .refused request (.forRequest cx.crates now request
    .notConnected (some "charger session ended before the command was sent"))) ++
  s.localCalls.inFlight.toList.map fun f => .settled f (.forInFlight cx.crates now f .timeout none
    (some "charger session ended before it answered"))

theorem beginTeardown_eq : s.beginTeardown cx now =
    ({ s with
        manager := s.countUndelivered
        phase := .draining
        localCalls := { s.localCalls with queued := [], inFlight := none } } : Session).noteAll now
      (s.teardownEntries cx now) := by
  unfold beginTeardown
  simp only [LocalCallQueue.drain, foldl_refuse, teardownEntries]
  cases s.localCalls.inFlight with
  | none =>
    rw [Option.toList_none, List.map_nil, List.append_nil]
  | some f =>
    simp only [settle, note, noteAll, Option.toList_some, List.map_cons, List.map_nil,
      List.map_append, List.append_assoc]

theorem teardownEntries_local : ∀ e ∈ s.teardownEntries cx now, Entry.isLocal e = true := by
  intro e he
  rcases List.mem_append.mp he with h | h
  · obtain ⟨r, -, rfl⟩ := List.mem_map.mp h
    rfl
  · obtain ⟨f, -, rfl⟩ := List.mem_map.mp h
    rfl

end

def staleFrames (s : Session) (now : Time) : List OcppFrame :=
  s.forwarder.upstreamBuffer.filter (!s.forwarder.isFresh now ·)

theorem housekeepingArm_eq (s : Session) (env : Env) : ∃ forwarder : MessageForwarder,
    s.housekeepingArm env = ({ s with forwarder } : Session).noteAll env.now
      ((s.staleFrames env.now).map .evicted) ∧
    forwarder.upstreamBuffer = s.forwarder.upstreamBuffer.filter (s.forwarder.isFresh env.now) ∧
    forwarder.callTracker = (s.forwarder.callTracker.cleanupExpired env.now).2 :=
  ⟨_, rfl, rfl, rfl⟩

theorem trace_housekeepingArm (p : Entry → Option α) (s : Session) (env : Env) :
    (s.housekeepingArm env).trace p = s.trace p ++
      (s.staleFrames env.now).filterMap fun frame => p (.evicted frame) := by
  obtain ⟨forwarder, h, -⟩ := s.housekeepingArm_eq env
  rw [h, trace_noteAll, List.filterMap_map]
  rfl

/-! ## The start -/

section
variable (cx : SessionContext) (now : Time) (manager : ConnectionStateManager)

theorem start_log : ∃ events : List MqttEvent,
    (start cx now manager).log = events.map fun e => (now, .event e) := by
  unfold start enterConnecting
  obtain ⟨manager', events, h⟩ := setUpstreamState_eq _ cx now ConnectionState.connecting
  exact ⟨events, by rw [h]; simp [noteAll]⟩

theorem start_trace (p : Entry → Option α) (hp : ∀ e, p (.event e) = none) :
    (start cx now manager).trace p = [] := by
  obtain ⟨events, h⟩ := start_log cx now manager
  rw [trace, h]
  exact List.filterMap_eq_nil_iff.mpr (List.forall_mem_map.mpr fun e _ => hp e)

theorem start_forwarder : (start cx now manager).forwarder = .withChargePointId
    cx.config.messageBufferSize cx.config.maxBufferDuration cx.config.callTrackerMaxAge
    cx.chargePointId := by
  unfold start enterConnecting
  obtain ⟨manager', events, h⟩ := setUpstreamState_eq _ cx now ConnectionState.connecting
  rw [h]
  rfl

end

/-! ## Steps -/

/-- What an input does in the phase that waits for it. -/
inductive Handled (cx : SessionContext) (env : Env) (s : Session) : Input → Session → Prop where
  | manager (manager : ConnectionStateManager) :
    Handled cx env s (.manager manager) { s with manager }
  | connectFailed (hphase : s.phase = .connecting) :
    Handled cx env s .connectFailed (s.onConnectFailed cx env.now)
  | connected (hphase : s.phase = .connecting) :
    Handled cx env s .connected (s.onConnected cx env)
  | slept {deadline : Time}
    (hphase : s.phase = .backingOff deadline ∨ s.phase = .upstreamLost deadline)
    (hdue : deadline ≤ env.now) : Handled cx env s .timer (s.enterConnecting cx env.now)
  | cancelledAsleep {deadline : Time}
    (hphase : s.phase = .backingOff deadline ∨ s.phase = .upstreamLost deadline) :
    Handled cx env s .cancelled (s.beginTeardown cx env.now)
  | chargerAsleep {deadline : Time} (message : ChargerMessage)
    (hphase : s.phase = .backingOff deadline) :
    Handled cx env s (.charger message) (s.onChargerWhileBackingOff cx env.now message)
  | charger (message : ChargerMessage) (hphase : s.phase = .forwarding) :
    Handled cx env s (.charger message) (finishArm cx env.now (s.chargerArm cx env message))
  | central (message : CentralMessage) (hphase : s.phase = .forwarding) :
    Handled cx env s (.central message) (finishArm cx env.now (s.centralArm cx env message))
  | command (request : Option CommandRequest) (hphase : s.phase = .forwarding)
    (hopen : s.commandsOpen = true) :
    Handled cx env s (.command request) (finishArm cx env.now (s.commandArm cx env request))
  | commandTick (hphase : s.phase = .forwarding) (hbusy : s.localCalls.isEmpty = false) :
    Handled cx env s .commandTick (finishArm cx env.now (s.commandTickArm cx env))
  | housekeeping (hphase : s.phase = .forwarding) :
    Handled cx env s .housekeeping (s.housekeepingArm env)
  | cancelled (hphase : s.phase = .forwarding) :
    Handled cx env s .cancelled (finishArm cx env.now (s, some .shutdown))
  | tryRecv (request : Option CommandRequest) (hphase : s.phase = .draining) :
    Handled cx env s (.tryRecv request) (s.onTryRecv cx env.now request)
  | closed (hphase : s.phase = .closing) : Handled cx env s .closed (s.onClosed cx env.now)

theorem handled_of_handle {cx : SessionContext} {env : Env} {s t : Session} {input : Input}
    (h : s.handle cx env input = some t) : Handled cx env s input t := by
  unfold handle at h
  split at h
  · cases h
    exact .manager _
  · cases h
    exact .connectFailed ‹_›
  · cases h
    exact .connected ‹_›
  -- backing off
  · split at h
    · cases h
      exact .slept (.inl ‹_›) ‹_›
    · cases h
  · cases h
    exact .cancelledAsleep (.inl ‹_›)
  · cases h
    exact .chargerAsleep _ ‹_›
  -- forwarding
  · cases h
    exact .charger _ ‹_›
  · cases h
    exact .central _ ‹_›
  · split at h
    · cases h
      exact .command _ ‹_› ‹_›
    · cases h
  · rename_i hphase
    split at h
    · cases h
    · rename_i hbusy
      cases h
      exact .commandTick hphase (Bool.eq_false_iff.mpr hbusy)
  · cases h
    exact .housekeeping ‹_›
  · cases h
    exact .cancelled ‹_›
  -- the upstream is lost
  · split at h
    · cases h
      exact .slept (.inr ‹_›) ‹_›
    · cases h
  · cases h
    exact .cancelledAsleep (.inr ‹_›)
  -- the end
  · cases h
    exact .tryRecv _ ‹_›
  · cases h
    exact .closed ‹_›
  · cases h

/-- A step is the handler of its input, at a time no earlier than the last. -/
theorem step_eq_some {cx : SessionContext} {s t : Session} {ev : Event} :
    step cx s ev = some t ↔ s.clock ≤ ev.env.now ∧
      ({ s with clock := ev.env.now } : Session).handle cx ev.env ev.input = some t := by
  unfold step
  split
  · simp [*]
  · simp [*]

/-- What a step reads of a channel stands at its head. -/
theorem requests_prefix {ev : Event} {queue : List CommandRequest}
    (h : ∀ request, ev.input = .command (some request) ∨ ev.input = .tryRecv (some request) →
      queue.head? = some request) : ev.requests <+: queue := by
  have hhead {request : CommandRequest} (hq : queue.head? = some request) :
      [request] <+: queue := by
    obtain ⟨rest, hq⟩ := List.head?_eq_some_iff.mp hq
    exact ⟨rest, hq.symm⟩
  rcases ev with ⟨env, input⟩
  cases input with
  | command request =>
    cases request with
    | none => exact List.nil_prefix
    | some request => exact hhead (h request (.inl rfl))
  | tryRecv request =>
    cases request with
    | none => exact List.nil_prefix
    | some request => exact hhead (h request (.inr rfl))
  | _ => exact List.nil_prefix

end Session

end OcppProxy

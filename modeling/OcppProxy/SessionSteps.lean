import OcppProxy.LocalCalls

/-!
# What one step of a session can do

`FrameStep` lists what a step can do with the frames of the two peers; everything else it does is
quiet: it touches neither the upstream buffer nor the call tracker, logs no frame, and moves the
local calls by `LocalStep`s. Later proofs take a step apart with `frameStep_of_step` and never
unfold a handler.
-/

namespace OcppProxy

open Relation (ReflTransGen)

def Phase.isEnding : Phase → Bool
  | draining | closing | ended => true
  | _ => false

namespace Session

/-- A session that is ending holds no command. -/
def Drained (s : Session) : Prop := s.phase.isEnding = true → s.localCalls.held = []

def LineClear (s : Session) (now : Time) : Prop :=
  s.forwarder.hasRecentPendingCall now .centralToCharger centralCallGrace = false

/-- From `s` to `t` no frame is touched. `inbox` and `inbox'` are what is unread before and
after. -/
structure Quiet (cx : SessionContext) (now : Time) (inbox inbox' : List CommandRequest)
    (s t : Session) : Prop where
  upstreamBuffer : t.forwarder.upstreamBuffer = s.forwarder.upstreamBuffer
  callTracker : t.forwarder.callTracker = s.forwarder.callTracker
  clock : t.clock = s.clock
  phase : t.phase = .forwarding → s.phase = .forwarding
  drained : s.Drained → t.Drained
  calls : LocalSteps cx (s.localView inbox) (t.localView inbox')
  entries : ∃ es : List Entry, t.log = s.log ++ es.map (fun e => (now, e)) ∧
    (∀ e ∈ es, e.isFrame = false) ∧
    ∀ r p, .call r p ∈ es → s.phase = .forwarding ∧ s.LineClear now

section
variable {cx : SessionContext} {now : Time} {inbox inbox' inbox'' : List CommandRequest}
  {s t u : Session}

theorem LineClear.congr (h : t.forwarder.callTracker = s.forwarder.callTracker) :
    t.LineClear now ↔ s.LineClear now := by
  simp only [LineClear, MessageForwarder.hasRecentPendingCall, h]

/-- A change of the fields that neither frames nor commands depend on, and MQTT events. -/
theorem Quiet.of_fields (events : List MqttEvent)
    (hbuffer : t.forwarder.upstreamBuffer = s.forwarder.upstreamBuffer)
    (htracker : t.forwarder.callTracker = s.forwarder.callTracker) (hclock : t.clock = s.clock)
    (hphase : t.phase = .forwarding → s.phase = .forwarding)
    (hending : t.phase.isEnding = true → s.phase.isEnding = true ∨ s.localCalls.held = [])
    (hcalls : t.localCalls = s.localCalls)
    (hlog : t.log = s.log ++ events.map fun e => (now, .event e)) :
    Quiet cx now inbox inbox s t where
  upstreamBuffer := hbuffer
  callTracker := htracker
  clock := hclock
  phase := hphase
  drained hs ht := by
    rw [hcalls]
    exact (hending ht).elim hs id
  calls := by
    rw [localView_congr inbox hcalls]
    rw [trace_append _ hlog, List.filterMap_eq_nil_iff.mpr, List.append_nil]
    intro e he
    obtain ⟨event, -, rfl⟩ := List.mem_map.mp he
    rfl
  entries := by
    refine ⟨events.map .event, by rw [hlog, List.map_map]; rfl, fun e he => ?_, by simp⟩
    obtain ⟨event, -, rfl⟩ := List.mem_map.mp he
    rfl

theorem Quiet.refl (s : Session) : Quiet cx now inbox inbox s s :=
  .of_fields [] rfl rfl rfl id .inl rfl (by simp)

theorem Quiet.trans (h : Quiet cx now inbox inbox' s t) (h' : Quiet cx now inbox' inbox'' t u) :
    Quiet cx now inbox inbox'' s u where
  upstreamBuffer := h'.upstreamBuffer.trans h.upstreamBuffer
  callTracker := h'.callTracker.trans h.callTracker
  clock := h'.clock.trans h.clock
  phase hu := h.phase (h'.phase hu)
  drained hs := h'.drained (h.drained hs)
  calls := h.calls.trans h'.calls
  entries := by
    obtain ⟨es, hlog, hframe, hcall⟩ := h.entries
    obtain ⟨es', hlog', hframe', hcall'⟩ := h'.entries
    refine ⟨es ++ es', by simp [hlog', hlog], fun e he => ?_, fun r p he => ?_⟩
    · exact (List.mem_append.mp he).elim (hframe e) (hframe' e)
    · rcases List.mem_append.mp he with he | he
      · exact hcall r p he
      · obtain ⟨hphase, hclear⟩ := hcall' r p he
        exact ⟨h.phase hphase, (LineClear.congr h.callTracker).mp hclear⟩

/-- Entries that are about neither frames nor commands. -/
theorem Quiet.of_noteAll (es : List Entry) (hlocal : ∀ e ∈ es, e.isLocal = false)
    (hframe : ∀ e ∈ es, e.isFrame = false) :
    Quiet cx now inbox inbox s (s.noteAll now es) where
  upstreamBuffer := rfl
  callTracker := rfl
  clock := rfl
  phase := id
  drained := id
  calls := by rw [localView_noteAll inbox es hlocal]
  entries := ⟨es, rfl, hframe, fun r p he => absurd (hlocal _ he) (by simp [Entry.isLocal])⟩

/-- Moves of the local calls with what they log. -/
theorem Quiet.of_local {localCalls : LocalCallQueue} (es : List Entry)
    (h : LocalSteps cx (s.localView inbox) ⟨inbox', localCalls, s.trace Entry.local? ++ es⟩)
    (hheld : s.phase.isEnding = true → s.localCalls.held = [] → localCalls.held = [])
    (hlocal : ∀ e ∈ es, e.isLocal = true)
    (hclear : ∀ r p, .call r p ∈ es → s.phase = .forwarding ∧ s.LineClear now) :
    Quiet cx now inbox inbox' s (({ s with localCalls } : Session).noteAll now es) where
  upstreamBuffer := rfl
  callTracker := rfl
  clock := rfl
  phase := id
  drained hs ht := hheld ht (hs ht)
  calls := by
    rw [localView_noteAll_local inbox' hlocal]
    exact h
  entries := by
    refine ⟨es, rfl, fun e he => ?_, hclear⟩
    have hl := hlocal e he
    cases e <;> simp_all [Entry.isLocal, Entry.isFrame]

/-- Quiet moves add nothing to a trace of frames. -/
theorem Quiet.trace_eq {α : Type} {p : Entry → Option α} (h : Quiet cx now inbox inbox' s t)
    (hp : ∀ e : Entry, e.isFrame = false → p e = none) : t.trace p = s.trace p := by
  obtain ⟨es, hlog, hframe, -⟩ := h.entries
  rw [trace_append p hlog, List.filterMap_eq_nil_iff.mpr, List.append_nil]
  intro e he
  obtain ⟨e, hmem, rfl⟩ := List.mem_map.mp he
  exact hp e (hframe e hmem)

/-- What a trace of frames gains from the entries before quiet moves. -/
theorem Quiet.trace_noteAll {α : Type} {p : Entry → Option α} {es : List Entry}
    (h : Quiet cx now inbox inbox' (s.noteAll now es) t) (hlog : s.log = u.log)
    (hp : ∀ e : Entry, e.isFrame = false → p e = none) :
    t.trace p = u.trace p ++ es.filterMap p := by
  rw [h.trace_eq hp, Session.trace_noteAll, trace_congr p hlog]

/-- Outside the loop no Call is sent. -/
theorem Quiet.trace_call (h : Quiet cx now inbox inbox' s t) (hphase : s.phase ≠ .forwarding) :
    t.trace Entry.call? = s.trace Entry.call? := by
  obtain ⟨es, hlog, -, hcall⟩ := h.entries
  rw [trace_append _ hlog, List.filterMap_eq_nil_iff.mpr, List.append_nil]
  refine List.forall_mem_map.mpr fun e he => ?_
  cases e with
  | call r p => exact absurd (hcall r p he).1 hphase
  | _ => rfl

/-! ## The helpers are quiet -/

theorem quiet_setUpstreamState (s : Session) (newState : ConnectionState) :
    Quiet cx now inbox inbox s (s.setUpstreamState cx now newState) := by
  obtain ⟨manager, events, h⟩ := s.setUpstreamState_eq cx now newState
  rw [h]
  exact .of_fields events rfl rfl rfl id .inl rfl (by simp)

theorem quiet_enterConnecting (s : Session) :
    Quiet cx now inbox inbox s (s.enterConnecting cx now) :=
  (quiet_setUpstreamState s .connecting).trans
    (.of_fields [] rfl rfl rfl (by simp [enterConnecting])
      (by simp [enterConnecting, Phase.isEnding]) rfl (by simp [enterConnecting]))

theorem quiet_beginTeardown (s : Session) :
    Quiet cx now inbox inbox s (s.beginTeardown cx now) := by
  have hlocal : Quiet cx now inbox inbox s (({ s with
      localCalls := { s.localCalls with queued := [], inFlight := none } } : Session).noteAll now
        (s.teardownEntries cx now)) := by
    refine .of_local _ (localSteps_teardown inbox s) (fun _ _ => rfl)
      (s.teardownEntries_local cx now) ?_
    intro r p he
    simp [teardownEntries] at he
  rw [beginTeardown_eq]
  exact hlocal.trans (.of_fields [] rfl rfl rfl (by simp) (fun _ => .inr rfl) rfl (by simp))

theorem quiet_onUpstreamLost (s : Session) :
    Quiet cx now inbox inbox s (s.onUpstreamLost cx now) := by
  have hdiscard : Quiet cx now inbox inbox s
      { s with forwarder := s.forwarder.discardDownstreamBuffer } :=
    .of_fields [] rfl rfl rfl id .inl rfl (by simp)
  exact (hdiscard.trans (quiet_setUpstreamState _ .reconnecting)).trans
    (.of_fields [] rfl rfl rfl (by simp [onUpstreamLost]) (by simp [onUpstreamLost, Phase.isEnding])
      rfl (by simp [onUpstreamLost]))

theorem quiet_finishArm (arm : Arm) :
    Quiet cx now inbox inbox arm.1 (finishArm cx now arm) := by
  rcases arm with ⟨s, _ | _ | _ | _⟩
  · exact .refl s
  · exact quiet_beginTeardown s
  · exact quiet_onUpstreamLost s
  · exact quiet_beginTeardown s

/-- After an outcome of the loop the session is no longer forwarding. -/
theorem finishArm_phase_ne (s : Session) (outcome : LoopOutcome) :
    (finishArm cx now (s, some outcome)).phase ≠ .forwarding := by
  cases outcome <;> simp [finishArm, beginTeardown_eq, onUpstreamLost]

/-! ## Sending -/

/-- The state a send attempt leaves, whether or not the charger is still there. -/
def sent : Except Session Session → Session
  | .ok s => s
  | .error s => s

section
variable {env : Env}

theorem quiet_sendLoop (fuel : Nat) (s : Session) (hphase : s.phase = .forwarding)
    (hclear : s.LineClear env.now) :
    Quiet cx env.now inbox inbox s (sent (sendLoop cx env fuel s)) := by
  induction fuel generalizing s with
  | zero => exact .refl s
  | succ fuel ih =>
    unfold sendLoop
    split
    · exact .refl s
    · rename_i request calls hpop
      obtain ⟨hidle, rest, hq, rfl⟩ := s.localCalls.popNext_eq_some.mp hpop
      -- a request that is not sent leaves the front of the queue with its unique id used up
      have hrefuse (status : CommandStatus) (detail : String) (h : status ≠ .accepted) :
          Quiet cx env.now inbox inbox s (refuse cx env.now request status detail { s with
            localCalls := { s.localCalls with
              queued := rest
              sequence := s.localCalls.sequence + 1 } }) := by
        refine .of_local [_] (localSteps_drop_head inbox hq (.forRequest h) _) ?_ ?_ ?_
        · simp [LocalCallQueue.held, hq]
        · simp [Entry.isLocal]
        · simp
      dsimp only [LocalCallQueue.nextUniqueId]
      split
      · exact (hrefuse _ _ (by decide)).trans (ih _ hphase hclear)
      · rename_i prepared hp
        split
        · exact hrefuse _ _ (by decide)
        · refine .of_local [_] ?_ (by simp [LocalCallQueue.held, hq])
            (by simp [Entry.isLocal]) fun r p _ => ⟨hphase, hclear⟩
          have hsend := @LocalStep.send cx inbox
            { s.localCalls with sequence := s.localCalls.sequence + 1 } (s.trace Entry.local?)
            _ _ _ _ _ hidle hq hp
          exact (ReflTransGen.single (.renumber (s.localCalls.sequence + 1))).tail hsend

theorem sendThen_fst (s : Session) : (s.sendThen cx env).1 = sent (s.sendLocalCalls cx env) := by
  unfold sendThen
  cases s.sendLocalCalls cx env <;> rfl

theorem quiet_sendThen (s : Session) (hphase : s.phase = .forwarding) :
    Quiet cx env.now inbox inbox s (s.sendThen cx env).1 := by
  rw [sendThen_fst]
  unfold sendLocalCalls
  split
  · exact .refl s
  · split
    · exact .refl s
    · rename_i hclear
      exact quiet_sendLoop _ s hphase (by unfold LineClear; simpa using hclear)

end

end

/-! ## The steps -/

/-- What a step does with frames. `inbox` and `inbox'` are the requests unread before and after. -/
inductive FrameStep (cx : SessionContext) (env : Env) (input : Input)
    (inbox inbox' : List CommandRequest) (s t : Session) : Prop where
  | quiet (hcharger : input.chargerText = none) (hcentral : input.centralText = none)
      (h : Quiet cx env.now inbox inbox' s t)
  /-- A charger text read while backing off. -/
  | dropped {text : String} {deadline : Time} (hinput : input = .charger (.text text))
      (hphase : s.phase = .backingOff deadline)
      (h : Quiet cx env.now inbox inbox' (s.note env.now (.readCharger text)) t)
  /-- The answer to the Call in flight. -/
  | consumed {text : String} {frame : OcppFrame} {f : InFlight}
      (hinput : input = .charger (.text text)) (hphase : s.phase = .forwarding)
      (hparse : OcppFrame.parse cx.crates env.now text = .ok frame)
      (hresponse : frame.messageType.isCall = false) (hf : s.localCalls.inFlight = some f)
      (hid : f.prepared.uniqueId = frame.uniqueId)
      (h : Quiet cx env.now inbox inbox'
        (s.noteAll env.now [.readCharger text, .consumed text]) t)
  /-- A charger frame sent on. -/
  | forwarded {text : String} {frame : OcppFrame} (hinput : input = .charger (.text text))
      (hphase : s.phase = .forwarding)
      (hparse : OcppFrame.parse cx.crates env.now text = .ok frame)
      (hours : frame.messageType.isCall = true ∨ s.localCalls.isOurs frame.uniqueId = false)
      (hroom : env.upstreamRoom ≠ some 0)
      (h : Quiet cx env.now inbox inbox' (({ s with
        forwarder := (s.forwarder.resolveAction env.now frame .chargerToCentral).2 } :
          Session).noteAll env.now [.readCharger text, .toCentral text]) t)
  /-- A charger frame whose send failed. -/
  | buffered {text : String} {frame : OcppFrame} (hinput : input = .charger (.text text))
      (hphase : s.phase = .forwarding)
      (hparse : OcppFrame.parse cx.crates env.now text = .ok frame)
      (hours : frame.messageType.isCall = true ∨ s.localCalls.isOurs frame.uniqueId = false)
      (hroom : env.upstreamRoom = some 0) (hleft : t.phase ≠ .forwarding)
      (h : Quiet cx env.now inbox inbox' (({ s with
        forwarder := (s.forwarder.bufferUpstream frame).2 } : Session).noteAll env.now
          (.readCharger text :: (s.forwarder.bufferUpstream frame).1.toList.map .evicted)) t)
      (hcalls : t.trace Entry.call? = s.trace Entry.call?)
  /-- A charger text that is no OCPP message, sent on. -/
  | relayed {text : String} {e : ProxyError} (hinput : input = .charger (.text text))
      (hphase : s.phase = .forwarding)
      (hparse : OcppFrame.parse cx.crates env.now text = .error e)
      (hroom : env.upstreamRoom ≠ some 0)
      (h : Quiet cx env.now inbox inbox'
        (s.noteAll env.now [.readCharger text, .toCentral text]) t)
  /-- A charger text that is no OCPP message, whose send failed. -/
  | lost {text : String} {e : ProxyError} (hinput : input = .charger (.text text))
      (hphase : s.phase = .forwarding)
      (hparse : OcppFrame.parse cx.crates env.now text = .error e)
      (hroom : env.upstreamRoom = some 0) (hleft : t.phase ≠ .forwarding)
      (h : Quiet cx env.now inbox inbox' (s.note env.now (.readCharger text)) t)
  /-- A Central System frame handed to the charger. -/
  | delivered {text : String} {frame : OcppFrame} (hinput : input = .central (.text text))
      (hphase : s.phase = .forwarding)
      (hparse : OcppFrame.parse cx.crates env.now text = .ok frame) (hup : env.chargerUp = true)
      (h : Quiet cx env.now inbox inbox' (({ s with
        forwarder := (s.forwarder.resolveAction env.now frame .centralToCharger).2 } :
          Session).noteAll env.now [.readCentral text, .toCharger text]) t)
  /-- A Central System text that is no OCPP message, handed to the charger. -/
  | passed {text : String} {e : ProxyError} (hinput : input = .central (.text text))
      (hphase : s.phase = .forwarding)
      (hparse : OcppFrame.parse cx.crates env.now text = .error e) (hup : env.chargerUp = true)
      (h : Quiet cx env.now inbox inbox'
        (s.noteAll env.now [.readCentral text, .toCharger text]) t)
  /-- A Central System text for a charger that is gone. -/
  | undelivered {text : String} (hinput : input = .central (.text text))
      (hphase : s.phase = .forwarding) (hup : env.chargerUp = false)
      (hleft : t.phase ≠ .forwarding)
      (h : Quiet cx env.now inbox inbox' (s.note env.now (.readCentral text)) t)
  /-- The housekeeping tick. -/
  | swept (hinput : input = .housekeeping) (hphase : s.phase = .forwarding) (hinbox : inbox' = inbox)
      (h : t = s.housekeepingArm env)
  /-- The buffer replayed over a new connection, up to the first failure. -/
  | flushed {s' : Session} {done rest : List OcppFrame} (hinput : input = .connected)
      (hphase : s.phase = .connecting)
      (hbefore : Quiet cx env.now inbox inbox s s')
      (hbuffer : s'.forwarder.upstreamBuffer = done ++ rest)
      (hrest : t.phase = .forwarding → rest = [])
      (h : Quiet cx env.now inbox inbox' (({ s' with
        phase := .forwarding
        forwarder := { s'.forwarder with upstreamBuffer := rest } } : Session).noteAll env.now
          (done.map fun frame => .toCentral frame.raw)) t)
      (hcalls : t.trace Entry.call? = s.trace Entry.call?)

section
variable {cx : SessionContext} {env : Env} {input : Input}
  {inbox inbox' rest : List CommandRequest} {s t : Session}

theorem Quiet.finishArm {arm : Arm} (h : Quiet cx env.now inbox inbox' s arm.1) :
    Quiet cx env.now inbox inbox' s (finishArm cx env.now arm) :=
  h.trans (quiet_finishArm arm)

theorem Quiet.sendIf {u : Session} (h : Quiet cx env.now inbox inbox' s u)
    (hphase : u.phase = .forwarding) (c : Bool) :
    Quiet cx env.now inbox inbox' s (if c then u.sendThen cx env else (u, none)).1 := by
  split
  · exact h.trans (quiet_sendThen u hphase)
  · exact h

theorem quiet_manager (manager : ConnectionStateManager) :
    Quiet cx env.now inbox inbox s { s with manager } :=
  .of_fields [] rfl rfl rfl id .inl rfl (by simp)

theorem frameStep_forwardCharger {text : String} {frame : OcppFrame}
    (hphase : s.phase = .forwarding) (hparse : OcppFrame.parse cx.crates env.now text = .ok frame)
    (hours : frame.messageType.isCall = true ∨ s.localCalls.isOurs frame.uniqueId = false) :
    FrameStep cx env (.charger (.text text)) inbox inbox s (finishArm cx env.now
      ((s.note env.now (.readCharger text)).forwardCharger cx env text frame)) := by
  have hraw : frame.raw = text := OcppFrame.parse_raw hparse
  unfold forwardCharger
  simp only [note_forwarder, MessageForwarder.forwardUpstream]
  rcases s.forwarder.forwardMessage_cases env.now frame env.upstreamSink .chargerToCentral with
    ⟨hroom, hf⟩ | ⟨hroom, action, hf⟩
  · rw [hf]
    simp only [hparse]
    refine .buffered rfl hphase hparse hours hroom (finishArm_phase_ne _ _) (Quiet.finishArm ?_) ?_
    · exact .of_fields [] rfl rfl rfl id .inl rfl (by simp [Env.upstreamSink])
    · refine (trace_setUpstreamState _ cx env.now _ .reconnecting fun _ => rfl).trans ?_
      refine (@trace_append _ _ s _ ((Entry.readCharger text ::
        (s.forwarder.bufferUpstream frame).1.toList.map .evicted).map fun e => (env.now, e))
        (by simp [Env.upstreamSink])).trans ?_
      rw [List.filterMap_eq_nil_iff.mpr, List.append_nil]
      simp [Entry.call?]
  · refine .forwarded rfl hphase hparse hours hroom (Quiet.finishArm ?_)
    rw [hf]
    refine Quiet.sendIf ?_ ?_ _
    · exact .of_fields [.messageForwarded s.forwarder.chargePointId frame .chargerToCentral action]
        rfl rfl rfl id .inl rfl (by simp [Env.upstreamSink, hraw])
    · exact hphase

theorem frameStep_chargerText (text : String) (hphase : s.phase = .forwarding) :
    FrameStep cx env (.charger (.text text)) inbox inbox s
      (finishArm cx env.now (s.chargerText cx env text)) := by
  unfold chargerText
  dsimp only
  split
  · rename_i frame hparse
    split
    · rename_i inFlight localCalls htake
      obtain ⟨hresponse, hf, hid, rfl⟩ := s.localCalls.ours_eq_some.mp htake
      refine .consumed rfl hphase hparse hresponse hf hid (Quiet.finishArm ?_)
      refine Quiet.trans ?_ (quiet_sendThen _ hphase)
      have hbase : s.noteAll env.now [.readCharger text, .consumed text] =
          (s.note env.now (.readCharger text)).note env.now (.consumed text) := by
        simp [note, noteAll]
      have hraw : frame.raw = text := OcppFrame.parse_raw hparse
      have hsettle := @LocalStep.settle cx inbox s.localCalls (trace Entry.local?
        ((s.note env.now (.readCharger text)).note env.now (.consumed text))) _ _ hf
        (@IsSettlement.answered _ _ _ env.now _ _ (hraw ▸ hparse) hresponse hid.symm)
      rw [hbase]
      refine .of_local [_] (.single hsettle) ?_ (by simp [Entry.isLocal]) (by simp)
      simp [LocalCallQueue.held, hf]
    · rename_i htake
      exact frameStep_forwardCharger hphase hparse (s.localCalls.ours_eq_none.mp htake)
  · rename_i e hparse
    by_cases hroom : env.upstreamRoom = some 0
    · have hsend : MessageSink.sendRaw env.upstreamSink text =
          (.error env.upstreamSink.failure, env.upstreamSink) :=
        WireSink.sendRaw_of_room_zero hroom text
      simp only [hsend]
      refine .lost rfl hphase hparse hroom (finishArm_phase_ne _ _) (Quiet.finishArm ?_)
      exact .of_fields [] rfl rfl rfl id .inl rfl (by simp [Env.upstreamSink])
    · simp only [WireSink.sendRaw_of_room (w := env.upstreamSink) hroom text]
      refine .relayed rfl hphase hparse hroom (Quiet.finishArm ?_)
      exact .of_fields [] rfl rfl rfl id .inl rfl (by simp [Env.upstreamSink])

theorem frameStep_chargerArm (message : ChargerMessage) (hphase : s.phase = .forwarding) :
    FrameStep cx env (.charger message) inbox inbox s
      (finishArm cx env.now (s.chargerArm cx env message)) := by
  cases message with
  | text text => exact frameStep_chargerText text hphase
  | _ => exact .quiet rfl rfl (quiet_finishArm (s, _))

theorem frameStep_centralText (text : String) (hphase : s.phase = .forwarding) :
    FrameStep cx env (.central (.text text)) inbox inbox s
      (finishArm cx env.now (s.centralText cx env text)) := by
  have hroom : env.chargerSink.room = some 0 ↔ env.chargerUp = false := by
    unfold Env.chargerSink
    cases env.chargerUp <;> simp
  unfold centralText
  dsimp only
  split
  · rename_i frame hparse
    have hraw : frame.raw = text := OcppFrame.parse_raw hparse
    simp only [note_forwarder, MessageForwarder.forwardDownstream]
    rcases s.forwarder.forwardMessage_cases env.now frame env.chargerSink .centralToCharger with
      ⟨h0, hf⟩ | ⟨h0, action, hf⟩
    · rw [hf]
      refine .undelivered rfl hphase (hroom.mp h0) (finishArm_phase_ne _ _) (Quiet.finishArm ?_)
      exact .of_fields [] rfl rfl rfl id .inl rfl (by simp [Env.chargerSink])
    · rw [hf]
      refine .delivered rfl hphase hparse (by simpa using mt hroom.mpr h0) (Quiet.finishArm ?_)
      exact .of_fields [.messageForwarded s.forwarder.chargePointId frame .centralToCharger action]
        rfl rfl rfl id .inl rfl (by simp [Env.chargerSink, hraw])
  · rename_i e hparse
    by_cases h0 : env.chargerSink.room = some 0
    · simp only [WireSink.sendRaw_of_room_zero h0 text]
      refine .undelivered rfl hphase (hroom.mp h0) (finishArm_phase_ne _ _) (Quiet.finishArm ?_)
      exact .of_fields [] rfl rfl rfl id .inl rfl (by simp [Env.chargerSink])
    · simp only [WireSink.sendRaw_of_room h0 text]
      refine .passed rfl hphase hparse (by simpa using mt hroom.mpr h0) (Quiet.finishArm ?_)
      exact .of_fields [] rfl rfl rfl id .inl rfl (by simp [Env.chargerSink])

theorem frameStep_centralArm (message : CentralMessage) (hphase : s.phase = .forwarding) :
    FrameStep cx env (.central message) inbox inbox s
      (finishArm cx env.now (s.centralArm cx env message)) := by
  cases message with
  | text text => exact frameStep_centralText text hphase
  | _ => exact .quiet rfl rfl (quiet_finishArm (s, _))

theorem quiet_commandArm (request : Option CommandRequest) (hphase : s.phase = .forwarding) :
    Quiet cx env.now (request.toList ++ inbox) inbox s (s.commandArm cx env request).1 := by
  cases request with
  | none => exact .of_fields [] rfl rfl rfl id .inl rfl (by simp [commandArm])
  | some request =>
    rw [commandArm_some]
    refine Quiet.trans ?_ (quiet_sendThen _ hphase)
    refine .of_local _ (.single (localStep_receive inbox request s)) ?_ (fun e he => ?_) ?_
    · simp [hphase, Phase.isEnding]
    · simp only [receiptEntries, List.mem_cons, List.mem_map] at he
      obtain rfl | ⟨r, -, rfl⟩ := he <;> rfl
    · simp [receiptEntries]

theorem quiet_commandTickArm (hphase : s.phase = .forwarding) :
    Quiet cx env.now inbox inbox s (s.commandTickArm cx env).1 := by
  rw [commandTickArm_eq]
  refine Quiet.trans ?_ (quiet_sendThen _ hphase)
  refine .of_local _ (localSteps_expire inbox s) (fun _ => s.localCalls.held_expire env.now)
    (fun e he => ?_) ?_
  · simp only [expiryEntries, List.mem_append, List.mem_map] at he
    obtain ⟨r, -, rfl⟩ | ⟨f, -, rfl⟩ := he <;> rfl
  · simp [expiryEntries]

theorem frameStep_onConnected (hphase : s.phase = .connecting) :
    FrameStep cx env .connected inbox inbox s (s.onConnected cx env) := by
  obtain ⟨s', hs'⟩ : ∃ s', s' = ({ s with
      backoff := s.backoff.reset
      reconnectingSince := none } : Session).setUpstreamState cx env.now .connected := ⟨_, rfl⟩
  have hreset : Quiet cx env.now inbox inbox s { s with
      backoff := s.backoff.reset
      reconnectingSince := none } := .of_fields [] rfl rfl rfl id .inl rfl (by simp)
  have hbefore : Quiet cx env.now inbox inbox s s' :=
    hs' ▸ hreset.trans (quiet_setUpstreamState _ .connected)
  obtain ⟨done, rest, hbuffer, hleft, hsent, hok⟩ :=
    MessageForwarder.flush_spec env.upstreamSink s'.forwarder.upstreamBuffer
  have hflush : s'.forwarder.flushUpstream env.upstreamSink =
      ((MessageForwarder.flush s'.forwarder.upstreamBuffer env.upstreamSink).1.map
          fun () => s'.forwarder.upstreamBuffer.length,
        { s'.forwarder with upstreamBuffer := rest },
        (MessageForwarder.flush s'.forwarder.upstreamBuffer env.upstreamSink).2.2) := by
    simp only [MessageForwarder.flushUpstream, hleft]
  have hdone : (env.upstreamSink.sent ++ done.map OcppFrame.raw).map Entry.toCentral =
      done.map fun frame => .toCentral frame.raw := by
    simp [Env.upstreamSink]
  have hcalls : (s'.noteAll env.now (done.map fun frame => .toCentral frame.raw)).trace
      Entry.call? = s.trace Entry.call? := by
    rw [trace_noteAll,
      List.filterMap_eq_nil_iff.mpr (List.forall_mem_map.mpr fun _ _ => rfl), List.append_nil, hs']
    exact trace_setUpstreamState _ cx env.now _ .connected fun _ => rfl
  unfold onConnected
  simp only [← hs', hflush, hsent, hdone]
  cases hresult : (MessageForwarder.flush s'.forwarder.upstreamBuffer env.upstreamSink).1 with
  | ok =>
    refine .flushed rfl hphase hbefore hbuffer (fun _ => hok.mp hresult) ?_ hcalls
    exact .of_fields [] rfl rfl rfl (fun _ => rfl) (by simp [Except.map, Phase.isEnding]) rfl
      (by simp [Except.map])
  | error e =>
    refine .flushed rfl hphase hbefore hbuffer (fun ht => ?_) ?_ ?_
    · simp [Except.map, enterConnecting] at ht
    · refine Quiet.trans ?_ (quiet_enterConnecting _)
      have hphase' : s'.phase = .connecting := by rw [hs', setUpstreamState_phase, hphase]
      exact .of_fields [] rfl rfl rfl (fun _ => rfl) (by simp [hphase', Phase.isEnding]) rfl
        (by simp)
    · exact (trace_setUpstreamState _ cx env.now _ .connecting fun _ => rfl).trans hcalls

theorem quiet_onConnectFailed : Quiet cx env.now inbox inbox s (s.onConnectFailed cx env.now) := by
  have hstarted : Quiet cx env.now inbox inbox s
      { s with reconnectingSince := some (s.reconnectingSince.getD env.now) } :=
    .of_fields [] rfl rfl rfl id .inl rfl (by simp)
  unfold onConnectFailed
  dsimp only
  split
  · refine (hstarted.trans ?_).trans (quiet_beginTeardown _)
    exact .of_fields [] rfl rfl rfl id .inl rfl (by simp)
  · refine (hstarted.trans (quiet_setUpstreamState _ .reconnecting)).trans ?_
    exact .of_fields [] rfl rfl rfl (by simp) (by simp [Phase.isEnding]) rfl (by simp)

theorem quiet_onTryRecv (request : Option CommandRequest) (hphase : s.phase = .draining) :
    Quiet cx env.now (request.toList ++ inbox) inbox s (s.onTryRecv cx env.now request) := by
  cases request with
  | none =>
    have hclosing : Quiet cx env.now inbox inbox s { s with phase := .closing } :=
      .of_fields [] rfl rfl rfl (by simp) (by simp [hphase, Phase.isEnding]) rfl (by simp)
    exact hclosing.trans (.of_noteAll [.close s.closeCode] (by simp [Entry.isLocal])
      (by simp [Entry.isFrame]))
  | some request =>
    have hlate : LocalStep cx (s.localView (request :: inbox)) ⟨inbox, s.localCalls,
        s.trace Entry.local? ++ [.received request, .refused request (.forRequest cx.crates env.now
          request .notConnected (some "charger session ended before the command was sent"))]⟩ :=
      .late (.forRequest (by decide))
    have hnoted : s.onTryRecv cx env.now (some request) = s.noteAll env.now
        [.received request, .refused request (.forRequest cx.crates env.now request .notConnected
          (some "charger session ended before the command was sent"))] := by
      simp [onTryRecv, refuse, note, noteAll]
    rw [hnoted]
    exact .of_local _ (.single hlate) (fun _ => id) (by simp [Entry.isLocal]) (by simp)

theorem quiet_onClosed (hphase : s.phase = .closing) :
    Quiet cx env.now inbox inbox s (s.onClosed cx env.now) := by
  have hending : (s.setUpstreamState cx env.now .disconnected).phase.isEnding = true := by
    rw [setUpstreamState_phase, hphase]
    rfl
  exact (quiet_setUpstreamState s .disconnected).trans
    (.of_fields [] rfl rfl rfl (by simp [onClosed]) (fun _ => .inl hending) rfl
      (by simp [onClosed]))

theorem frameStep_onChargerWhileBackingOff (message : ChargerMessage) {deadline : Time}
    (hphase : s.phase = .backingOff deadline) :
    FrameStep cx env (.charger message) inbox inbox s
      (s.onChargerWhileBackingOff cx env.now message) := by
  cases message with
  | text text => exact .dropped rfl hphase (quiet_enterConnecting _)
  | binary => exact .quiet rfl rfl (quiet_enterConnecting s)
  | other => exact .quiet rfl rfl (quiet_enterConnecting s)
  | close => exact .quiet rfl rfl (quiet_beginTeardown s)
  | error => exact .quiet rfl rfl (quiet_beginTeardown s)
  | none => exact .quiet rfl rfl (quiet_beginTeardown s)

theorem frameStep_of_handle {input : Input} (h : s.handle cx env input = some t)
    (rest : List CommandRequest) :
    FrameStep cx env input ((⟨env, input⟩ : Event).requests ++ rest) rest s t := by
  cases handled_of_handle h with
  | manager manager => exact .quiet rfl rfl (quiet_manager manager)
  | connectFailed => exact .quiet rfl rfl quiet_onConnectFailed
  | connected hphase => exact frameStep_onConnected hphase
  | slept => exact .quiet rfl rfl (quiet_enterConnecting s)
  | cancelledAsleep => exact .quiet rfl rfl (quiet_beginTeardown s)
  | chargerAsleep message hphase => exact frameStep_onChargerWhileBackingOff message hphase
  | charger message hphase => exact frameStep_chargerArm message hphase
  | central message hphase => exact frameStep_centralArm message hphase
  | command request hphase =>
    exact .quiet rfl rfl (Quiet.finishArm (quiet_commandArm request hphase))
  | commandTick hphase => exact .quiet rfl rfl (Quiet.finishArm (quiet_commandTickArm hphase))
  | housekeeping hphase => exact .swept rfl hphase rfl rfl
  | cancelled => exact .quiet rfl rfl (quiet_finishArm (s, some .shutdown))
  | tryRecv request hphase => exact .quiet rfl rfl (quiet_onTryRecv request hphase)
  | closed hphase => exact .quiet rfl rfl (quiet_onClosed hphase)

/-- Every step of a session is one of the frame steps. -/
theorem frameStep_of_step {ev : Event} (h : step cx s ev = some t) (rest : List CommandRequest) :
    FrameStep cx ev.env ev.input (ev.requests ++ rest) rest { s with clock := ev.env.now } t :=
  frameStep_of_handle (step_eq_some.mp h).2 rest

/-! ## What every step does to the local calls -/

theorem housekeepingArm_localView : (s.housekeepingArm env).localView inbox = s.localView inbox := by
  unfold housekeepingArm
  dsimp only
  rw [localView_noteAll inbox _ (List.forall_mem_map.mpr fun _ _ => rfl)]
  rfl

theorem FrameStep.calls (h : FrameStep cx env input inbox inbox' s t) :
    LocalSteps cx (s.localView inbox) (t.localView inbox') := by
  have hbase {u v : Session} (es : List Entry)
      (hq : Quiet cx env.now inbox inbox' (v.noteAll env.now es) t)
      (hes : ∀ e ∈ es, e.isLocal = false) (hcalls : v.localCalls = u.localCalls)
      (hlog : v.log = u.log) :
      LocalSteps cx (u.localView inbox) (t.localView inbox') := by
    rw [← localView_congr inbox hcalls (trace_congr _ hlog), ← localView_noteAll inbox es hes]
    exact hq.calls
  cases h with
  | quiet _ _ h => exact h.calls
  | dropped _ _ h => exact hbase (u := s) [_] h (by simp [Entry.isLocal]) rfl rfl
  | consumed _ _ _ _ _ _ h => exact hbase (u := s) _ h (by simp [Entry.isLocal]) rfl rfl
  | forwarded _ _ _ _ _ h => exact hbase (u := s) _ h (by simp [Entry.isLocal]) rfl rfl
  | buffered _ _ _ _ _ _ h _ =>
    exact hbase (u := s) _ h
      (List.forall_mem_cons.mpr ⟨rfl, List.forall_mem_map.mpr fun _ _ => rfl⟩) rfl rfl
  | relayed _ _ _ _ h => exact hbase (u := s) _ h (by simp [Entry.isLocal]) rfl rfl
  | lost _ _ _ _ _ h => exact hbase (u := s) [_] h (by simp [Entry.isLocal]) rfl rfl
  | delivered _ _ _ _ h => exact hbase (u := s) _ h (by simp [Entry.isLocal]) rfl rfl
  | passed _ _ _ _ h => exact hbase (u := s) _ h (by simp [Entry.isLocal]) rfl rfl
  | undelivered _ _ _ _ h => exact hbase (u := s) [_] h (by simp [Entry.isLocal]) rfl rfl
  | swept _ _ hinbox h =>
    subst hinbox
    rw [h, housekeepingArm_localView]
  | @flushed s' _ _ _ _ hbefore _ _ h _ =>
    exact hbefore.calls.trans
      (hbase (u := s') _ h (List.forall_mem_map.mpr fun _ _ => rfl) rfl rfl)

theorem FrameStep.drained (h : FrameStep cx env input inbox inbox' s t) (hs : s.Drained) : t.Drained := by
  cases h with
  | quiet _ _ h => exact h.drained hs
  | dropped _ _ h => exact h.drained hs
  | consumed _ _ _ _ _ _ h => exact h.drained hs
  | forwarded _ _ _ _ _ h => exact h.drained hs
  | buffered _ _ _ _ _ _ h _ => exact h.drained hs
  | relayed _ _ _ _ h => exact h.drained hs
  | lost _ _ _ _ _ h => exact h.drained hs
  | delivered _ _ _ _ h => exact h.drained hs
  | passed _ _ _ _ h => exact h.drained hs
  | undelivered _ _ _ _ h => exact h.drained hs
  | swept _ _ _ h => exact h ▸ hs
  | flushed _ _ _ _ _ h _ => exact h.drained fun hending => by cases hending

/-- While the loop runs nothing is buffered for the Central System. -/
def Replayed (s : Session) : Prop :=
  s.phase = .forwarding → s.forwarder.upstreamBuffer = []

theorem Quiet.replayed {u : Session} {now : Time} (h : Quiet cx now inbox inbox' u t)
    (hs : s.Replayed) (hphase : u.phase = s.phase)
    (hbuffer : u.forwarder.upstreamBuffer = s.forwarder.upstreamBuffer) : t.Replayed := by
  intro ht
  rw [h.upstreamBuffer, hbuffer]
  exact hs (hphase ▸ h.phase ht)

theorem FrameStep.replayed (h : FrameStep cx env input inbox inbox' s t) (hs : s.Replayed) :
    t.Replayed := by
  cases h with
  | quiet _ _ h => exact h.replayed hs rfl rfl
  | dropped _ _ h => exact h.replayed hs rfl rfl
  | consumed _ _ _ _ _ _ h => exact h.replayed hs rfl rfl
  | forwarded _ _ _ _ _ h =>
    exact h.replayed hs rfl (MessageForwarder.resolveAction_upstreamBuffer ..)
  | buffered _ _ _ _ _ hleft => exact fun ht => absurd ht hleft
  | relayed _ _ _ _ h => exact h.replayed hs rfl rfl
  | lost _ _ _ _ hleft => exact fun ht => absurd ht hleft
  | delivered _ _ _ _ h =>
    exact h.replayed hs rfl (MessageForwarder.resolveAction_upstreamBuffer ..)
  | passed _ _ _ _ h => exact h.replayed hs rfl rfl
  | undelivered _ _ _ hleft => exact fun ht => absurd ht hleft
  | swept _ hphase _ h =>
    intro _
    rw [h]
    simp [housekeepingArm, MessageForwarder.evictExpiredMessages,
      MessageForwarder.cleanupExpiredCalls, hs hphase]
  | flushed _ _ _ _ hrest h _ =>
    intro ht
    rw [h.upstreamBuffer]
    exact hrest ht

theorem start_replayed (now : Time) (manager : ConnectionStateManager) :
    (start cx now manager).Replayed := by
  simp [Replayed, start, enterConnecting]

/-- Every step of a session is a chain of moves of its local calls. -/
theorem localSteps_of_step {ev : Event} (h : step cx s ev = some t) (rest : List CommandRequest) :
    LocalSteps cx (s.localView (ev.requests ++ rest)) (t.localView rest) :=
  (frameStep_of_step h rest).calls

end

end Session

end OcppProxy

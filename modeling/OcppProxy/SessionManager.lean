import OcppProxy.SessionSteps

/-!
# What a step leaves of the phase and the shared state manager

An arm of the forwarding loop stays in its phase and counts at most one forwarded frame; a replay
counts what it sent; leaving the loop counts what is left in the buffer as dropped. No handler
touches what other tasks keep in the manager.
-/

namespace OcppProxy

def Phase.isDrained : Phase → Bool
  | closing | ended => true
  | _ => false

def ChargerMessage.any (p : String → Bool) : ChargerMessage → Bool
  | .text t => p t
  | _ => false

def CentralMessage.any (p : String → Bool) : CentralMessage → Bool
  | .text t => p t
  | _ => false

/-- The parts of the manager that no session writes are the same. -/
structure ConnectionStateManager.SameOutside (m m' : ConnectionStateManager) : Prop where
  downstreamState : m'.downstreamState = m.downstreamState
  mqttState : m'.mqttState = m.mqttState
  listenerBound : m'.listenerBound = m.listenerBound

namespace ConnectionStateManager.SameOutside

variable {m m' m'' : ConnectionStateManager}

theorem refl (m : ConnectionStateManager) : m.SameOutside m := ⟨rfl, rfl, rfl⟩

theorem trans (h : m.SameOutside m') (h' : m'.SameOutside m'') : m.SameOutside m'' :=
  ⟨h'.downstreamState.trans h.downstreamState, h'.mqttState.trans h.mqttState,
    h'.listenerBound.trans h.listenerBound⟩

end ConnectionStateManager.SameOutside

namespace Session

section
variable {cx : SessionContext} {env : Env} {s t : Session} {now : Time}

/-! ## Sending the proxy's own Calls -/

/-- Neither the phase, the manager nor the buffer changes. -/
structure Still (s t : Session) : Prop where
  phase : t.phase = s.phase
  manager : t.manager = s.manager
  upstreamBuffer : t.forwarder.upstreamBuffer = s.forwarder.upstreamBuffer

theorem Still.refl (s : Session) : s.Still s := ⟨rfl, rfl, rfl⟩

theorem Still.trans {u : Session} (h : s.Still t) (h' : t.Still u) : s.Still u :=
  ⟨h'.phase.trans h.phase, h'.manager.trans h.manager,
    h'.upstreamBuffer.trans h.upstreamBuffer⟩

theorem still_sendLoop (fuel : Nat) (s : Session) :
    s.Still (sent (sendLoop cx env fuel s)) := by
  induction fuel generalizing s with
  | zero => exact .refl s
  | succ fuel ih =>
    unfold sendLoop
    split
    · exact .refl s
    · dsimp only
      split
      · refine Still.trans ?_ (ih _)
        exact ⟨rfl, rfl, rfl⟩
      · split <;> exact ⟨rfl, rfl, rfl⟩

theorem still_sendThen (s : Session) : s.Still (s.sendThen cx env).1 := by
  rw [sendThen_fst]
  unfold sendLocalCalls
  split
  · exact .refl s
  · split
    · exact .refl s
    · exact still_sendLoop _ s

theorem still_sendIf (s : Session) (c : Bool) :
    s.Still (if c then s.sendThen cx env else (s, none)).1 := by
  split
  · exact still_sendThen s
  · exact .refl s

/-! ## Counting -/

def leftBehind (s : Session) : Nat :=
  if s.phase.isEnding then s.forwarder.upstreamBuffer.length else 0

/-- From `s` to `t` the counters move by `up` and `down` forwarded frames and by what is newly left
behind, and nothing else of the manager changes but the upstream state. -/
structure Tally (up down : Nat) (s t : Session) : Prop where
  outside : s.manager.SameOutside t.manager
  forwardedUp : t.manager.metrics.chargerToCentralForwarded =
    s.manager.metrics.chargerToCentralForwarded + up
  forwardedDown : t.manager.metrics.centralToChargerForwarded =
    s.manager.metrics.centralToChargerForwarded + down
  dropped : t.manager.metrics.chargerToCentralDropped + s.leftBehind =
    s.manager.metrics.chargerToCentralDropped + t.leftBehind

theorem Tally.trans {u : Session} {up up' down down' : Nat} (h : Tally up down s t)
    (h' : Tally up' down' t u) : Tally (up + up') (down + down') s u where
  outside := h.outside.trans h'.outside
  forwardedUp := by
    have h1 := h.forwardedUp
    have h2 := h'.forwardedUp
    omega
  forwardedDown := by
    have h1 := h.forwardedDown
    have h2 := h'.forwardedDown
    omega
  dropped := by
    have h1 := h.dropped
    have h2 := h'.dropped
    omega

theorem Tally.of_manager (hmanager : t.manager = s.manager) (hleft : t.leftBehind = s.leftBehind) :
    Tally 0 0 s t where
  outside := hmanager ▸ .refl _
  forwardedUp := by rw [hmanager, Nat.add_zero]
  forwardedDown := by rw [hmanager, Nat.add_zero]
  dropped := by rw [hmanager, hleft]

theorem leftBehind_of_not_ending (h : s.phase.isEnding = false) : s.leftBehind = 0 := by
  simp [leftBehind, h]

theorem recordForwarded_iterate (m : ConnectionStateManager) (direction : Direction) (n : Nat) :
    m.SameOutside ((fun m => m.recordForwarded direction)^[n] m) ∧
      ((fun m => m.recordForwarded direction)^[n] m).metrics.chargerToCentralForwarded =
        m.metrics.chargerToCentralForwarded + (if direction = .chargerToCentral then n else 0) ∧
      ((fun m => m.recordForwarded direction)^[n] m).metrics.centralToChargerForwarded =
        m.metrics.centralToChargerForwarded + (if direction = .centralToCharger then n else 0) ∧
      ((fun m => m.recordForwarded direction)^[n] m).metrics.chargerToCentralDropped =
        m.metrics.chargerToCentralDropped := by
  induction n with
  | zero => exact ⟨.refl m, by simp, by simp, rfl⟩
  | succ n ih =>
    rw [Function.iterate_succ_apply']
    generalize (fun m : ConnectionStateManager => m.recordForwarded direction)^[n] m = m' at ih ⊢
    obtain ⟨hsame, hup, hdown, hdropped⟩ := ih
    refine ⟨hsame.trans ?_, ?_, ?_, ?_⟩
    · cases direction <;> exact ⟨rfl, rfl, rfl⟩
    · cases direction <;> simp [ConnectionStateManager.recordForwarded, hup, Nat.add_assoc]
    · cases direction <;> simp [ConnectionStateManager.recordForwarded, hdown, Nat.add_assoc]
    · cases direction <;> exact hdropped

/-- Frames counted while the loop goes on. -/
theorem Tally.of_recorded {direction : Direction} {n : Nat} (hs : s.phase.isEnding = false)
    (ht : t.phase.isEnding = false)
    (hmanager : t.manager = (fun m => m.recordForwarded direction)^[n] s.manager) :
    Tally (if direction = .chargerToCentral then n else 0)
      (if direction = .centralToCharger then n else 0) s t := by
  obtain ⟨hsame, hup, hdown, hdropped⟩ := recordForwarded_iterate s.manager direction n
  rw [← hmanager] at hsame hup hdown hdropped
  refine ⟨hsame, hup, hdown, ?_⟩
  rw [leftBehind_of_not_ending hs, leftBehind_of_not_ending ht, hdropped]

theorem setUpstreamState_manager (s : Session) (now : Time) (newState : ConnectionState) :
    s.manager.SameOutside (s.setUpstreamState cx now newState).manager ∧
      (s.setUpstreamState cx now newState).manager.metrics = s.manager.metrics := by
  unfold setUpstreamState
  split
  · exact ⟨.refl _, rfl⟩
  · exact ⟨⟨rfl, rfl, rfl⟩, rfl⟩

/-- While the loop has not ended, only the upstream state changes. -/
theorem Tally.of_upstream (hs : s.phase.isEnding = false) (ht : t.phase.isEnding = false)
    (hmanager : s.manager.SameOutside t.manager ∧ t.manager.metrics = s.manager.metrics) :
    Tally 0 0 s t := by
  obtain ⟨hsame, hmetrics⟩ := hmanager
  refine ⟨hsame, by rw [hmetrics, Nat.add_zero], by rw [hmetrics, Nat.add_zero], ?_⟩
  rw [leftBehind_of_not_ending hs, leftBehind_of_not_ending ht, hmetrics]

theorem tally_enterConnecting (hs : s.phase.isEnding = false) :
    Tally 0 0 s (s.enterConnecting cx now) :=
  .of_upstream hs rfl (setUpstreamState_manager s now .connecting)

theorem beginTeardown_phase (s : Session) (now : Time) :
    (s.beginTeardown cx now).phase = .draining := by
  rw [beginTeardown_eq, noteAll_phase]

theorem tally_beginTeardown (hs : s.phase.isEnding = false) :
    Tally 0 0 s (s.beginTeardown cx now) := by
  have hleft : (s.beginTeardown cx now).leftBehind = s.forwarder.upstreamBuffer.length := by
    rw [leftBehind, beginTeardown_phase, beginTeardown_eq]
    rfl
  have hmanager : (s.beginTeardown cx now).manager = s.countUndelivered := by
    rw [beginTeardown_eq]
    rfl
  have hcount : s.manager.SameOutside s.countUndelivered ∧
      s.countUndelivered.metrics.chargerToCentralForwarded =
        s.manager.metrics.chargerToCentralForwarded ∧
      s.countUndelivered.metrics.centralToChargerForwarded =
        s.manager.metrics.centralToChargerForwarded ∧
      s.countUndelivered.metrics.chargerToCentralDropped =
        s.manager.metrics.chargerToCentralDropped + s.forwarder.upstreamBuffer.length := by
    unfold countUndelivered
    dsimp only
    split
    · exact ⟨⟨rfl, rfl, rfl⟩, rfl, rfl, rfl⟩
    · exact ⟨.refl _, rfl, rfl, by omega⟩
  obtain ⟨hsame, hup, hdown, hdropped⟩ := hcount
  rw [← hmanager] at hsame hup hdown hdropped
  refine ⟨hsame, hup, hdown, ?_⟩
  rw [leftBehind_of_not_ending hs, hleft, hdropped, Nat.add_zero]

theorem tally_onUpstreamLost (hs : s.phase.isEnding = false) :
    Tally 0 0 s (s.onUpstreamLost cx now) :=
  .of_upstream hs rfl (setUpstreamState_manager { s with
    forwarder := s.forwarder.discardDownstreamBuffer } now .reconnecting)

theorem tally_finishArm {arm : Arm} (hs : arm.1.phase.isEnding = false) :
    Tally 0 0 arm.1 (finishArm cx now arm) := by
  rcases arm with ⟨s, _ | _ | _ | _⟩
  · exact .of_manager rfl rfl
  · exact tally_beginTeardown hs
  · exact tally_onUpstreamLost hs
  · exact tally_beginTeardown hs

/-! ## The arms of the forwarding loop -/

def sendsOn (cx : SessionContext) (env : Env) (s : Session) (text : String) : Bool :=
  match OcppFrame.parse cx.crates env.now text with
  | .ok frame =>
    (frame.messageType.isCall || !s.localCalls.isOurs frame.uniqueId) &&
      decide (env.upstreamRoom ≠ some 0)
  | .error _ => false

def handsOver (cx : SessionContext) (env : Env) (text : String) : Bool :=
  (OcppFrame.parse cx.crates env.now text).isOk && env.chargerUp

/-- An arm stays in its phase and counts `n` frames forwarded in `direction`. -/
structure ArmCounts (direction : Direction) (n : Nat) (s : Session) (arm : Arm) : Prop where
  phase : arm.1.phase = s.phase
  manager : arm.1.manager = (fun m => m.recordForwarded direction)^[n] s.manager

theorem armCounts_forwardCharger (text : String) (frame : OcppFrame) (s : Session) :
    ArmCounts .chargerToCentral (if env.upstreamRoom = some 0 then 0 else 1) s
      (s.forwardCharger cx env text frame) := by
  unfold forwardCharger
  simp only [MessageForwarder.forwardUpstream]
  rcases s.forwarder.forwardMessage_cases env.now frame env.upstreamSink .chargerToCentral with
    ⟨hroom, hf⟩ | ⟨hroom, action, hf⟩
  · have hroom : env.upstreamRoom = some 0 := hroom
    rw [hf, if_pos hroom]
    dsimp only
    split <;> exact ⟨rfl, rfl⟩
  · have hroom : env.upstreamRoom ≠ some 0 := hroom
    rw [hf, if_neg hroom]
    exact ⟨(still_sendIf _ _).phase, (still_sendIf _ _).manager⟩

theorem armCounts_chargerText (text : String) (s : Session) :
    ArmCounts .chargerToCentral (if s.sendsOn cx env text then 1 else 0) s
      (s.chargerText cx env text) := by
  obtain ⟨parsed, hparse⟩ : ∃ parsed, OcppFrame.parse cx.crates env.now text = parsed := ⟨_, rfl⟩
  cases parsed with
  | error e =>
    have hsends : s.sendsOn cx env text = false := by simp only [sendsOn, hparse]
    rw [hsends]
    simp only [chargerText, hparse, Bool.false_eq_true, if_false]
    split <;> exact ⟨rfl, rfl⟩
  | ok frame =>
    simp only [chargerText, hparse, note_localCalls]
    cases htake : (if frame.messageType.isCall then none
      else s.localCalls.takeResponse frame.uniqueId) with
    | some taken =>
      obtain ⟨hcall, hf, hid, -⟩ := s.localCalls.ours_eq_some.mp htake
      have hours : s.localCalls.isOurs frame.uniqueId = true :=
        s.localCalls.isOurs_of_inFlight hf hid
      have hsends : s.sendsOn cx env text = false := by simp [sendsOn, hparse, hcall, hours]
      rw [hsends]
      exact ⟨(still_sendThen _).phase, (still_sendThen _).manager⟩
    | none =>
      have hours : (frame.messageType.isCall || !s.localCalls.isOurs frame.uniqueId) = true := by
        rcases s.localCalls.ours_eq_none.mp htake with hcall | hours
        · rw [hcall, Bool.true_or]
        · rw [hours, Bool.not_false, Bool.or_true]
      have hsends : (if s.sendsOn cx env text then 1 else 0) =
          if env.upstreamRoom = some 0 then 0 else 1 := by
        by_cases hroom : env.upstreamRoom = some 0 <;> simp [sendsOn, hparse, hours, hroom]
      obtain ⟨hphase, hmanager⟩ := @armCounts_forwardCharger cx env text frame
        (s.note env.now (.readCharger text))
      rw [hsends]
      exact ⟨hphase, hmanager⟩

theorem armCounts_chargerArm (message : ChargerMessage) (s : Session) :
    ArmCounts .chargerToCentral (if message.any (s.sendsOn cx env) then 1 else 0) s
      (s.chargerArm cx env message) := by
  cases message with
  | text text => exact armCounts_chargerText text s
  | _ => exact ⟨rfl, rfl⟩

theorem armCounts_centralText (text : String) (s : Session) :
    ArmCounts .centralToCharger (if handsOver cx env text then 1 else 0) s
      (s.centralText cx env text) := by
  obtain ⟨parsed, hparse⟩ : ∃ parsed, OcppFrame.parse cx.crates env.now text = parsed := ⟨_, rfl⟩
  cases parsed with
  | error e =>
    have hhands : handsOver cx env text = false := by
      simp [handsOver, hparse, Except.isOk, Except.toBool]
    rw [hhands]
    simp only [centralText, hparse, Bool.false_eq_true, if_false]
    split <;> exact ⟨rfl, rfl⟩
  | ok frame =>
    have hhands : handsOver cx env text = env.chargerUp := by
      simp [handsOver, hparse, Except.isOk, Except.toBool]
    have hsink : env.chargerSink.room = some 0 ↔ env.chargerUp = false := by
      unfold Env.chargerSink
      cases env.chargerUp <;> simp
    rw [hhands]
    simp only [centralText, hparse, note_forwarder, MessageForwarder.forwardDownstream]
    rcases s.forwarder.forwardMessage_cases env.now frame env.chargerSink .centralToCharger with
      ⟨hroom, hf⟩ | ⟨hroom, action, hf⟩
    · rw [hf, hsink.mp hroom]
      exact ⟨rfl, rfl⟩
    · have hup : env.chargerUp = true := eq_true_of_ne_false (mt hsink.mpr hroom)
      rw [hf, hup]
      exact ⟨rfl, rfl⟩

theorem armCounts_centralArm (message : CentralMessage) (s : Session) :
    ArmCounts .centralToCharger (if message.any (handsOver cx env) then 1 else 0) s
      (s.centralArm cx env message) := by
  cases message with
  | text text => exact armCounts_centralText text s
  | _ => exact ⟨rfl, rfl⟩

theorem armCounts_commandArm (request : Option CommandRequest) (s : Session) :
    ArmCounts .chargerToCentral 0 s (s.commandArm cx env request) := by
  cases request with
  | none => exact ⟨rfl, rfl⟩
  | some request =>
    rw [commandArm_some]
    exact ⟨(still_sendThen _).phase, (still_sendThen _).manager⟩

theorem armCounts_commandTickArm (s : Session) :
    ArmCounts .chargerToCentral 0 s (s.commandTickArm cx env) := by
  rw [commandTickArm_eq]
  exact ⟨(still_sendThen _).phase, (still_sendThen _).manager⟩

theorem ArmCounts.tally {direction : Direction} {n : Nat} {arm : Arm}
    (h : ArmCounts direction n s arm) (hs : s.phase = .forwarding) :
    Tally (if direction = .chargerToCentral then n else 0)
      (if direction = .centralToCharger then n else 0) s (finishArm cx now arm) := by
  have hphase : arm.1.phase = .forwarding := h.phase.trans hs
  refine Tally.trans (.of_recorded (by rw [hs]; rfl) (by rw [hphase]; rfl) h.manager)
    (tally_finishArm (by rw [hphase]; rfl))

/-! ## The drain -/

theorem finishArm_not_drained {arm : Arm} (h : arm.1.phase = .forwarding) :
    (finishArm cx now arm).phase.isDrained = false := by
  rcases arm with ⟨s, _ | _ | _ | _⟩
  · exact congrArg Phase.isDrained h
  · exact congrArg Phase.isDrained (beginTeardown_phase s now)
  · rfl
  · exact congrArg Phase.isDrained (beginTeardown_phase s now)

theorem ArmCounts.not_drained {direction : Direction} {n : Nat} {arm : Arm}
    (h : ArmCounts direction n s arm) (hs : s.phase = .forwarding) :
    (finishArm cx now arm).phase.isDrained = false :=
  finishArm_not_drained (h.phase.trans hs)

theorem onConnectFailed_not_drained : (s.onConnectFailed cx now).phase.isDrained = false := by
  unfold onConnectFailed
  dsimp only
  split
  · rw [beginTeardown_phase]
    rfl
  · rfl

theorem onConnected_not_drained : (s.onConnected cx env).phase.isDrained = false := by
  unfold onConnected
  dsimp only
  split <;> rfl

theorem onChargerWhileBackingOff_not_drained (message : ChargerMessage) :
    (s.onChargerWhileBackingOff cx now message).phase.isDrained = false := by
  cases message with
  | text text => rfl
  | binary => rfl
  | other => rfl
  | _ => exact congrArg Phase.isDrained (beginTeardown_phase s now)

/-- The drain ends with an empty `try_recv`; after it there is only the close. -/
theorem drained_of_handle {input : Input} (h : s.handle cx env input = some t)
    (hmanager : ∀ manager, input ≠ .manager manager) :
    (t.phase.isDrained = true ∧ (s.phase = .draining ∧ input = .tryRecv none ∨
      s.phase = .closing ∧ input = .closed)) ∨
    (t.phase.isDrained = false ∧ s.phase.isDrained = false) := by
  have hs {phase : Phase} (hphase : s.phase = phase) (hp : phase.isDrained = false) :
      s.phase.isDrained = false := hphase ▸ hp
  have hasleep {deadline : Time}
      (hphase : s.phase = .backingOff deadline ∨ s.phase = .upstreamLost deadline) :
      s.phase.isDrained = false := hphase.elim (hs · rfl) (hs · rfl)
  cases handled_of_handle h with
  | manager => exact absurd rfl (hmanager _)
  | connectFailed hphase => exact .inr ⟨onConnectFailed_not_drained, hs hphase rfl⟩
  | connected hphase => exact .inr ⟨onConnected_not_drained, hs hphase rfl⟩
  | slept hphase => exact .inr ⟨rfl, hasleep hphase⟩
  | cancelledAsleep hphase =>
    exact .inr ⟨congrArg Phase.isDrained (beginTeardown_phase s _), hasleep hphase⟩
  | chargerAsleep message hphase =>
    exact .inr ⟨onChargerWhileBackingOff_not_drained message, hs hphase rfl⟩
  | charger message hphase =>
    exact .inr ⟨(armCounts_chargerArm message s).not_drained hphase, hs hphase rfl⟩
  | central message hphase =>
    exact .inr ⟨(armCounts_centralArm message s).not_drained hphase, hs hphase rfl⟩
  | command request hphase =>
    exact .inr ⟨(armCounts_commandArm request s).not_drained hphase, hs hphase rfl⟩
  | commandTick hphase =>
    exact .inr ⟨(armCounts_commandTickArm s).not_drained hphase, hs hphase rfl⟩
  | housekeeping hphase => exact .inr ⟨hs hphase rfl, hs hphase rfl⟩
  | cancelled hphase => exact .inr ⟨finishArm_not_drained hphase, hs hphase rfl⟩
  | tryRecv request hphase =>
    cases request with
    | none => exact .inl ⟨rfl, .inl ⟨hphase, rfl⟩⟩
    | some request => exact .inr ⟨hs hphase rfl, hs hphase rfl⟩
  | closed hphase => exact .inl ⟨rfl, .inr ⟨hphase, rfl⟩⟩

theorem drained_of_step {ev : Event} (h : step cx s ev = some t)
    (hmanager : ∀ manager, ev.input ≠ .manager manager) :
    (t.phase.isDrained = true ∧ (s.phase = .draining ∧ ev.input = .tryRecv none ∨
      s.phase = .closing ∧ ev.input = .closed)) ∨
    (t.phase.isDrained = false ∧ s.phase.isDrained = false) :=
  drained_of_handle (s := { s with clock := ev.env.now }) (step_eq_some.mp h).2 hmanager

theorem phase_ne_ended_of_step {ev : Event} (h : step cx s ev = some t)
    (hmanager : ∀ manager, ev.input ≠ .manager manager) : s.phase ≠ .ended := by
  intro hended
  rcases drained_of_step h hmanager with ⟨-, ⟨hs, -⟩ | ⟨hs, -⟩⟩ | ⟨-, hs⟩ <;>
    simp [hended, Phase.isDrained] at hs

/-! ## The counters -/

def countsUp (cx : SessionContext) (env : Env) (input : Input) (s : Session) : Nat :=
  match s.phase, input with
  | .forwarding, .charger message => if message.any (s.sendsOn cx env) then 1 else 0
  | .connecting, .connected =>
    if (MessageForwarder.flush s.forwarder.upstreamBuffer env.upstreamSink).1.isOk then
      s.forwarder.upstreamBuffer.length
    else 0
  | _, _ => 0

def countsDown (cx : SessionContext) (env : Env) (input : Input) (s : Session) : Nat :=
  match s.phase, input with
  | .forwarding, .central message => if message.any (handsOver cx env) then 1 else 0
  | _, _ => 0

theorem tally_onConnectFailed (hs : s.phase.isEnding = false) :
    Tally 0 0 s (s.onConnectFailed cx now) := by
  unfold onConnectFailed
  dsimp only
  split
  · have hgone : Tally 0 0 s { s with
        reconnectingSince := some (s.reconnectingSince.getD now)
        closeCode := closeGoingAway } := .of_manager rfl rfl
    exact hgone.trans (tally_beginTeardown hs)
  · exact .of_upstream hs rfl (setUpstreamState_manager { s with
      reconnectingSince := some (s.reconnectingSince.getD now) } now .reconnecting)

theorem tally_onConnected (hs : s.phase = .connecting) :
    Tally (s.countsUp cx env .connected) 0 s (s.onConnected cx env) := by
  obtain ⟨u, hu⟩ : ∃ u : Session, u = ({ s with
    backoff := s.backoff.reset
    reconnectingSince := none } : Session).setUpstreamState cx env.now .connected := ⟨_, rfl⟩
  have hphase : u.phase.isEnding = false := by
    rw [hu, setUpstreamState_phase, hs]
    rfl
  have hset : Tally 0 0 s u := by
    refine .of_upstream (by rw [hs]; rfl) hphase ?_
    rw [hu]
    exact setUpstreamState_manager { s with
      backoff := s.backoff.reset
      reconnectingSince := none } env.now .connected
  have hbuffer : u.forwarder.upstreamBuffer = s.forwarder.upstreamBuffer := by
    obtain ⟨manager, events, h⟩ := setUpstreamState_eq ({ s with
      backoff := s.backoff.reset
      reconnectingSince := none } : Session) cx env.now .connected
    rw [hu, h]
    rfl
  have hcounts : s.countsUp cx env .connected =
      if (MessageForwarder.flush s.forwarder.upstreamBuffer env.upstreamSink).1.isOk then
        s.forwarder.upstreamBuffer.length
      else 0 := by
    simp only [countsUp, hs]
  rw [hcounts]
  unfold onConnected
  simp only [← hu, MessageForwarder.flushUpstream, hbuffer]
  cases hflush : (MessageForwarder.flush s.forwarder.upstreamBuffer env.upstreamSink).1 with
  | ok =>
    have hrecorded : Tally _ _ u { u with
        phase := .forwarding
        manager := (fun m => m.recordForwarded .chargerToCentral)^[
          s.forwarder.upstreamBuffer.length] u.manager } :=
      @Tally.of_recorded u _ .chargerToCentral _ hphase rfl rfl
    have htrans := hset.trans hrecorded
    simp only [Nat.zero_add] at htrans
    exact ⟨htrans.outside, htrans.forwardedUp, htrans.forwardedDown, htrans.dropped⟩
  | error e =>
    have henter : Tally 0 0 u (({ u with
        forwarder := { u.forwarder with
          upstreamBuffer :=
            (MessageForwarder.flush s.forwarder.upstreamBuffer env.upstreamSink).2.1 } } :
          Session).noteAll env.now
        ((MessageForwarder.flush s.forwarder.upstreamBuffer env.upstreamSink).2.2.sent.map
          .toCentral) |>.enterConnecting cx env.now) :=
      .of_upstream hphase rfl (setUpstreamState_manager (({ u with
        forwarder := { u.forwarder with
          upstreamBuffer :=
            (MessageForwarder.flush s.forwarder.upstreamBuffer env.upstreamSink).2.1 } } :
          Session).noteAll env.now _) env.now .connecting)
    exact hset.trans henter

theorem tally_onChargerWhileBackingOff (message : ChargerMessage) (hs : s.phase.isEnding = false) :
    Tally 0 0 s (s.onChargerWhileBackingOff cx now message) := by
  cases message with
  | text text =>
    exact .of_upstream hs rfl
      (setUpstreamState_manager (s.note now (.readCharger text)) now .connecting)
  | binary => exact tally_enterConnecting hs
  | other => exact tally_enterConnecting hs
  | _ => exact tally_beginTeardown hs

theorem tally_onTryRecv (request : Option CommandRequest) (hs : s.phase = .draining) :
    Tally 0 0 s (s.onTryRecv cx now request) := by
  cases request with
  | none =>
    refine .of_manager rfl ?_
    simp [leftBehind, onTryRecv, hs, Phase.isEnding]
  | some request => exact .of_manager rfl rfl

theorem tally_onClosed (hs : s.phase = .closing) : Tally 0 0 s (s.onClosed cx now) := by
  obtain ⟨hsame, hmetrics⟩ := @setUpstreamState_manager cx s now .disconnected
  have hleft : (s.onClosed cx now).leftBehind = s.leftBehind := by
    obtain ⟨manager, events, h⟩ := s.setUpstreamState_eq cx now .disconnected
    simp [leftBehind, onClosed, h, hs, Phase.isEnding]
  refine ⟨hsame, ?_, ?_, ?_⟩
  · rw [Nat.add_zero]
    exact congrArg _ hmetrics
  · rw [Nat.add_zero]
    exact congrArg _ hmetrics
  · rw [hleft]
    exact congrArg (·.chargerToCentralDropped + s.leftBehind) hmetrics

theorem tally_of_handle {input : Input} (h : s.handle cx env input = some t)
    (hmanager : ∀ manager, input ≠ .manager manager) :
    Tally (s.countsUp cx env input) (s.countsDown cx env input) s t := by
  have hs {phase : Phase} (hphase : s.phase = phase) (hp : phase.isEnding = false) :
      s.phase.isEnding = false := hphase ▸ hp
  cases handled_of_handle h with
  | manager => exact absurd rfl (hmanager _)
  | connectFailed hphase =>
    simp only [countsUp, countsDown, hphase]
    exact tally_onConnectFailed (hs hphase rfl)
  | connected hphase => simpa only [countsDown, hphase] using tally_onConnected hphase
  | slept hphase =>
    rcases hphase with hphase | hphase
    all_goals
      simp only [countsUp, countsDown, hphase]
      exact tally_enterConnecting (hs hphase rfl)
  | cancelledAsleep hphase =>
    rcases hphase with hphase | hphase
    all_goals
      simp only [countsUp, countsDown, hphase]
      exact tally_beginTeardown (hs hphase rfl)
  | chargerAsleep message hphase =>
    simp only [countsUp, countsDown, hphase]
    exact tally_onChargerWhileBackingOff message (hs hphase rfl)
  | charger message hphase =>
    simp only [countsUp, countsDown, hphase]
    exact (armCounts_chargerArm message s).tally hphase
  | central message hphase =>
    simp only [countsUp, countsDown, hphase]
    exact (armCounts_centralArm message s).tally hphase
  | command request hphase =>
    simp only [countsUp, countsDown, hphase]
    exact (armCounts_commandArm request s).tally hphase
  | commandTick hphase =>
    simp only [countsUp, countsDown, hphase]
    exact (armCounts_commandTickArm s).tally hphase
  | housekeeping hphase =>
    simp only [countsUp, countsDown, hphase]
    exact .of_upstream (hs hphase rfl) (hs hphase rfl) ⟨.refl _, rfl⟩
  | cancelled hphase =>
    simp only [countsUp, countsDown, hphase]
    exact @tally_finishArm cx _ (s, some .shutdown) (hs hphase rfl)
  | tryRecv request hphase =>
    simp only [countsUp, countsDown, hphase]
    exact tally_onTryRecv request hphase
  | closed hphase =>
    simp only [countsUp, countsDown, hphase]
    exact tally_onClosed hphase

/-- What a step of a session does to the manager. -/
theorem tally_of_step {ev : Event} (h : step cx s ev = some t)
    (hmanager : ∀ manager, ev.input ≠ .manager manager) :
    Tally (s.countsUp cx ev.env ev.input) (s.countsDown cx ev.env ev.input) s t := by
  have hclock := tally_of_handle (step_eq_some.mp h).2 hmanager
  exact ⟨hclock.outside, hclock.forwardedUp, hclock.forwardedDown, hclock.dropped⟩

end

end Session

end OcppProxy

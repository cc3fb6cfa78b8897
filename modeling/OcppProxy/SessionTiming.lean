import OcppProxy.SessionArms

/-!
# What a step does to the timing of a session

The backoff, the instant reconnecting began and the close code change at a few places only: a
connection, a failed attempt, a lost upstream. `TimingStep` says it of every step.
-/

namespace OcppProxy

def Entry.close? : Entry → Option Nat
  | .close code => some code
  | _ => none

theorem Entry.close?_of_isArmWork {e : Entry} (h : e.isArmWork = true) : e.close? = none := by
  cases e <;> first | rfl | cases h

def ChargerMessage.isLeaving : ChargerMessage → Bool
  | close | error | none => true
  | text _ | binary | other => false

namespace Session

/-- The phase, the clock, the backoff, the instant and the close code are the same, and no close
frame was sent. -/
structure KeepsPace (s t : Session) : Prop where
  phase : t.phase = s.phase
  clock : t.clock = s.clock
  backoff : t.backoff = s.backoff
  since : t.reconnectingSince = s.reconnectingSince
  closeCode : t.closeCode = s.closeCode
  closes : t.trace Entry.close? = s.trace Entry.close?

section
variable {cx : SessionContext} {env : Env} {now : Time} {s t u : Session}

theorem KeepsPace.refl (s : Session) : s.KeepsPace s := ⟨rfl, rfl, rfl, rfl, rfl, rfl⟩

theorem KeepsPace.trans (h : s.KeepsPace t) (h' : t.KeepsPace u) : s.KeepsPace u where
  phase := h'.phase.trans h.phase
  clock := h'.clock.trans h.clock
  backoff := h'.backoff.trans h.backoff
  since := h'.since.trans h.since
  closeCode := h'.closeCode.trans h.closeCode
  closes := h'.closes.trans h.closes

theorem KeepsPace.noteAll {es : List Entry} (h : s.KeepsPace t)
    (hes : ∀ e ∈ es, e.close? = none) : s.KeepsPace (t.noteAll now es) := by
  refine h.trans ⟨rfl, rfl, rfl, rfl, rfl, ?_⟩
  rw [trace_noteAll, List.filterMap_eq_nil_iff.mpr hes, List.append_nil]

theorem KeepsPace.note {e : Entry} (h : s.KeepsPace t) (he : e.close? = none) :
    s.KeepsPace (t.note now e) := by
  refine h.trans ⟨rfl, rfl, rfl, rfl, rfl, ?_⟩
  rw [trace_note, he, Option.toList_none, List.append_nil]

theorem KeepsPace.enter (h : s.KeepsPace t) (phase : Phase) :
    KeepsPace { s with phase } { t with phase } :=
  ⟨rfl, h.clock, h.backoff, h.since, h.closeCode, h.closes⟩

theorem KeepsPace.of_armWork (h : ArmWork s t) : s.KeepsPace t := by
  have hbearings := h.bearings
  simp only [bearings, Prod.mk.injEq] at hbearings
  obtain ⟨hphase, hclock, hbackoff, hsince, hcode, -, -⟩ := hbearings
  obtain ⟨es, hlog, hwork⟩ := h.log
  refine ⟨hphase, hclock, hbackoff, hsince, hcode, ?_⟩
  have hnone : es.filterMap (fun e => e.2.close?) = [] := by
    rw [List.filterMap_eq_nil_iff]
    exact fun e he => Entry.close?_of_isArmWork (hwork e he)
  rw [trace, hlog, List.filterMap_append, hnone, List.append_nil]
  rfl

theorem keepsPace_setUpstreamState (newState : ConnectionState) (s : Session) :
    s.KeepsPace (s.setUpstreamState cx now newState) := by
  obtain ⟨manager, events, h⟩ := s.setUpstreamState_eq cx now newState
  rw [h]
  refine KeepsPace.noteAll (t := { s with manager }) ⟨rfl, rfl, rfl, rfl, rfl, rfl⟩ ?_
  simp [Entry.close?]

theorem keepsPace_enterConnecting (s : Session) :
    KeepsPace { s with phase := .connecting } (s.enterConnecting cx now) := by
  have h := @keepsPace_setUpstreamState cx now .connecting s
  exact ⟨rfl, h.clock, h.backoff, h.since, h.closeCode, h.closes⟩

/-! ## The steps -/

/-- The instant that the window of a failed attempt counts from. -/
def startedAt (s : Session) (now : Time) : Time := s.reconnectingSince.getD now

def elapsed (s : Session) (now : Time) : Duration := (now - s.startedAt now).toNat

/-- The sleep after a failed attempt: the backoff, within what remains of the window, and at least a
millisecond. -/
def clampedDelay (cx : SessionContext) (s : Session) (now : Time) : Duration :=
  min s.backoff.nextDelay.1
    (max (cx.config.maxReconnectWindow - s.elapsed now) (Duration.fromMillis 1))

def SleepsUntil (s : Session) (deadline : Time) : Prop :=
  s.phase = .backingOff deadline ∨ s.phase = .upstreamLost deadline

inductive TimingStep (cx : SessionContext) (env : Env) (input : Input) (s t : Session) : Prop where
  | still (hstill : s.phase = .forwarding ∨ s.phase = .draining ∨ ∃ m, input = .manager m)
      (h : s.KeepsPace t)
  /-- A sleep that ran to its end. -/
  | slept {deadline : Time} (hphase : s.SleepsUntil deadline) (hinput : input = .timer)
      (hdue : deadline ≤ env.now) (h : KeepsPace { s with phase := .connecting } t)
  /-- A charger message that ends the sleep after a failed attempt. -/
  | interrupted {deadline : Time} {message : ChargerMessage}
      (hphase : s.phase = .backingOff deadline) (hinput : input = .charger message)
      (hstays : message.isLeaving = false) (h : KeepsPace { s with phase := .connecting } t)
  /-- A failed attempt at the end of the window. -/
  | gaveUp (hphase : s.phase = .connecting) (hinput : input = .connectFailed)
      (hwindow : cx.config.maxReconnectWindow ≤ s.elapsed env.now)
      (h : KeepsPace { s with
        phase := .draining
        reconnectingSince := some (s.startedAt env.now)
        closeCode := closeGoingAway } t)
  /-- A failed attempt within the window. -/
  | backedOff (hphase : s.phase = .connecting) (hinput : input = .connectFailed)
      (hwindow : s.elapsed env.now < cx.config.maxReconnectWindow)
      (h : KeepsPace { s with
        phase := .backingOff (env.now + s.clampedDelay cx env.now)
        reconnectingSince := some (s.startedAt env.now)
        backoff := s.backoff.nextDelay.2 } t)
  | connected (hphase : s.phase = .connecting) (hinput : input = .connected)
      (hflush : (MessageForwarder.flush s.forwarder.upstreamBuffer env.upstreamSink).1 = .ok ())
      (h : KeepsPace { s with
        phase := .forwarding
        reconnectingSince := none
        backoff := s.backoff.reset } t)
  /-- A connection that failed during the replay. -/
  | replayFailed (hphase : s.phase = .connecting) (hinput : input = .connected)
      (hflush : (MessageForwarder.flush s.forwarder.upstreamBuffer env.upstreamSink).1 ≠ .ok ())
      (h : KeepsPace { s with reconnectingSince := none, backoff := s.backoff.reset } t)
  | lost (hphase : s.phase = .forwarding)
      (h : KeepsPace { s with
        phase := .upstreamLost (env.now + s.backoff.nextDelay.1)
        reconnectingSince := some (s.startedAt env.now)
        backoff := s.backoff.nextDelay.2 } t)
  /-- The end of the loop for any other reason. -/
  | left (hphase : s.phase = .forwarding ∨ ∃ deadline, s.SleepsUntil deadline)
      (hinput : s.phase = .forwarding ∨ input = .cancelled ∨
        ∃ message, input = .charger message ∧ message.isLeaving = true)
      (h : KeepsPace { s with phase := .draining } t)
  | closing (hphase : s.phase = .draining)
      (h : KeepsPace (({ s with phase := .closing } : Session).note env.now (.close s.closeCode)) t)
  | ended (hphase : s.phase = .closing) (h : KeepsPace { s with phase := .ended } t)

theorem timing_onConnectFailed (hphase : s.phase = .connecting) :
    TimingStep cx env .connectFailed s (s.onConnectFailed cx env.now) := by
  unfold onConnectFailed
  dsimp only
  by_cases hwindow : cx.config.maxReconnectWindow ≤ s.elapsed env.now
  · have hgone := @armWork_beginTeardown cx env.now { s with
      reconnectingSince := some (s.startedAt env.now)
      closeCode := closeGoingAway }
    refine .gaveUp hphase rfl hwindow ?_
    unfold elapsed startedAt at hwindow
    rw [if_pos hwindow]
    exact .of_armWork hgone
  · have hset := @keepsPace_setUpstreamState cx env.now .reconnecting
      { s with reconnectingSince := some (s.startedAt env.now) }
    refine .backedOff hphase rfl (not_le.mp hwindow) ?_
    unfold elapsed startedAt at hwindow
    rw [if_neg hwindow]
    simp only [startedAt] at hset
    refine ⟨?_, hset.clock, ?_, hset.since, hset.closeCode, hset.closes⟩
    · simp only [hset.backoff]
      rfl
    · simp only [hset.backoff]

theorem timing_onConnected (hphase : s.phase = .connecting) :
    TimingStep cx env .connected s (s.onConnected cx env) := by
  have hset := @keepsPace_setUpstreamState cx env.now .connected
    { s with backoff := s.backoff.reset, reconnectingSince := none }
  have hforwarder : (({ s with
      backoff := s.backoff.reset
      reconnectingSince := none } : Session).setUpstreamState cx env.now .connected).forwarder =
        s.forwarder := by
    obtain ⟨manager, events, h⟩ := setUpstreamState_eq ({ s with
      backoff := s.backoff.reset
      reconnectingSince := none } : Session) cx env.now .connected
    rw [h]
    rfl
  unfold onConnected
  dsimp only
  generalize setUpstreamState cx env.now .connected _ = u at hset hforwarder ⊢
  simp only [MessageForwarder.flushUpstream, hforwarder]
  have hsent (forwarder : MessageForwarder) (texts : List String) :
      u.KeepsPace (({ u with forwarder } : Session).noteAll env.now (texts.map .toCentral)) := by
    refine KeepsPace.noteAll ?_ (by simp [Entry.close?])
    exact ⟨rfl, rfl, rfl, rfl, rfl, rfl⟩
  cases hflush : (MessageForwarder.flush s.forwarder.upstreamBuffer env.upstreamSink).1 with
  | ok =>
    have h := hset.trans (hsent { s.forwarder with upstreamBuffer :=
      (MessageForwarder.flush s.forwarder.upstreamBuffer env.upstreamSink).2.1 }
      (MessageForwarder.flush s.forwarder.upstreamBuffer env.upstreamSink).2.2.sent)
    refine .connected hphase rfl hflush ?_
    exact ⟨rfl, h.clock, h.backoff, h.since, h.closeCode, h.closes⟩
  | error e =>
    refine .replayFailed hphase rfl (by simp [hflush]) ?_
    have h := hset.trans (hsent { s.forwarder with upstreamBuffer :=
      (MessageForwarder.flush s.forwarder.upstreamBuffer env.upstreamSink).2.1 }
      (MessageForwarder.flush s.forwarder.upstreamBuffer env.upstreamSink).2.2.sent)
    have hagain := @keepsPace_enterConnecting cx env.now
      (({ u with forwarder := { s.forwarder with upstreamBuffer :=
        (MessageForwarder.flush s.forwarder.upstreamBuffer env.upstreamSink).2.1 } } :
          Session).noteAll env.now ((MessageForwarder.flush s.forwarder.upstreamBuffer
            env.upstreamSink).2.2.sent.map .toCentral))
    exact ⟨hagain.phase.trans hphase.symm, hagain.clock.trans h.clock,
      hagain.backoff.trans h.backoff, hagain.since.trans h.since,
      hagain.closeCode.trans h.closeCode, hagain.closes.trans h.closes⟩

theorem timing_onUpstreamLost (s : Session) :
    KeepsPace { s with
      phase := .upstreamLost (now + s.backoff.nextDelay.1)
      reconnectingSince := some (s.startedAt now)
      backoff := s.backoff.nextDelay.2 } (s.onUpstreamLost cx now) := by
  have hset := @keepsPace_setUpstreamState cx now .reconnecting
    { s with forwarder := s.forwarder.discardDownstreamBuffer }
  unfold onUpstreamLost
  dsimp only
  refine ⟨?_, hset.clock, ?_, ?_, hset.closeCode, hset.closes⟩
  · simp only [hset.backoff]
  · simp only [hset.backoff]
  · simp only [hset.since, startedAt]

theorem timing_finishArm {input : Input} {arm : Arm} (hphase : s.phase = .forwarding)
    (h : s.KeepsPace arm.1) : TimingStep cx env input s (finishArm cx env.now arm) := by
  obtain ⟨u, outcome⟩ := arm
  have hleft {v : Session} (hv : KeepsPace { u with phase := .draining } v) :
      TimingStep cx env input s v :=
    .left (.inl hphase) (.inl hphase) (KeepsPace.trans (KeepsPace.enter h .draining) hv)
  match outcome with
  | none => exact .still (.inl hphase) h
  | some .chargerGone => exact hleft (.of_armWork (armWork_beginTeardown u))
  | some .shutdown => exact hleft (.of_armWork (armWork_beginTeardown u))
  | some .upstreamLost =>
    have hlost := @timing_onUpstreamLost cx env.now u
    have hsince : u.reconnectingSince = s.reconnectingSince := h.since
    have hbackoff : u.backoff = s.backoff := h.backoff
    refine .lost hphase (KeepsPace.trans ?_ hlost)
    refine ⟨?_, h.clock, ?_, ?_, h.closeCode, h.closes⟩
    · simp only [hbackoff]
    · simp only [hbackoff]
    · simp only [startedAt, hsince]

theorem timing_onChargerWhileBackingOff {deadline : Time} (message : ChargerMessage)
    (hphase : s.phase = .backingOff deadline) :
    TimingStep cx env (.charger message) s (s.onChargerWhileBackingOff cx env.now message) := by
  have hleft (hleaving : message.isLeaving = true) :
      TimingStep cx env (.charger message) s (s.beginTeardown cx env.now) :=
    .left (.inr ⟨deadline, .inl hphase⟩) (.inr (.inr ⟨message, rfl, hleaving⟩))
      (.of_armWork (armWork_beginTeardown s))
  cases message with
  | text text =>
    have hread : s.KeepsPace (s.note env.now (.readCharger text)) := .note (.refl s) rfl
    have hagain := @keepsPace_enterConnecting cx env.now
      (s.note env.now (.readCharger text))
    exact .interrupted hphase rfl rfl ((hread.enter .connecting).trans hagain)
  | binary => exact .interrupted hphase rfl rfl (keepsPace_enterConnecting s)
  | other => exact .interrupted hphase rfl rfl (keepsPace_enterConnecting s)
  | close => exact hleft rfl
  | error => exact hleft rfl
  | none => exact hleft rfl

theorem timing_onTryRecv (request : Option CommandRequest) (hphase : s.phase = .draining) :
    TimingStep cx env (.tryRecv request) s (s.onTryRecv cx env.now request) := by
  cases request with
  | none => exact .closing hphase (.refl _)
  | some request =>
    have hread : s.KeepsPace (s.note env.now (.received request)) := .note (.refl s) rfl
    exact .still (.inr (.inl hphase)) (hread.note rfl)

theorem timingStep_of_handle {input : Input} (h : s.handle cx env input = some t) :
    TimingStep cx env input s t := by
  cases handled_of_handle h with
  | manager => exact .still (.inr (.inr ⟨_, rfl⟩)) ⟨rfl, rfl, rfl, rfl, rfl, rfl⟩
  | connectFailed hphase => exact timing_onConnectFailed hphase
  | connected hphase => exact timing_onConnected hphase
  | slept hphase hdue => exact .slept hphase rfl hdue (keepsPace_enterConnecting s)
  | cancelledAsleep hphase =>
    exact .left (.inr ⟨_, hphase⟩) (.inr (.inl rfl)) (.of_armWork (armWork_beginTeardown s))
  | chargerAsleep message hphase => exact timing_onChargerWhileBackingOff message hphase
  | charger message hphase =>
    exact timing_finishArm hphase (.of_armWork (armWork_chargerArm message s))
  | central message hphase =>
    exact timing_finishArm hphase (.of_armWork (armWork_centralArm message s))
  | command request hphase =>
    exact timing_finishArm hphase (.of_armWork (armWork_commandArm request s))
  | commandTick hphase => exact timing_finishArm hphase (.of_armWork (armWork_commandTickArm s))
  | housekeeping hphase => exact .still (.inl hphase) (.of_armWork (armWork_housekeepingArm s))
  | cancelled hphase => exact @timing_finishArm _ _ _ _ (s, some .shutdown) hphase (.refl s)
  | tryRecv request hphase => exact timing_onTryRecv request hphase
  | closed hphase =>
    have hset := @keepsPace_setUpstreamState cx env.now .disconnected s
    exact .ended hphase ⟨rfl, hset.clock, hset.backoff, hset.since, hset.closeCode, hset.closes⟩

/-- Every step of a session is one of the timing steps. -/
theorem timingStep_of_step {ev : Event} (h : step cx s ev = some t) :
    TimingStep cx ev.env ev.input { s with clock := ev.env.now } t :=
  timingStep_of_handle (step_eq_some.mp h).2

theorem start_timing (now : Time) (manager : ConnectionStateManager) :
    (start cx now manager).backoff =
        .withDefaults cx.config.initialBackoff cx.config.maxBackoff ∧
      (start cx now manager).reconnectingSince = none ∧
      (start cx now manager).closeCode = closeNormal := by
  obtain ⟨u, hstart, hbackoff, hsince, hcode⟩ : ∃ u : Session,
      start cx now manager = u.enterConnecting cx now ∧
      u.backoff = .withDefaults cx.config.initialBackoff cx.config.maxBackoff ∧
      u.reconnectingSince = none ∧ u.closeCode = closeNormal :=
    ⟨_, rfl, rfl, rfl, rfl⟩
  have h := @keepsPace_enterConnecting cx now u
  rw [hstart]
  exact ⟨h.backoff.trans hbackoff, h.since.trans hsince, h.closeCode.trans hcode⟩

end

end Session

end OcppProxy

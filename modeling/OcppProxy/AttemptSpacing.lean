import OcppProxy.SessionTiming
import OcppProxy.Transparency
import OcppProxy.Library.Gaps

/-!
# The spacing of the attempts

Between two attempts to connect a sleep should have run to its end. Two of the ways back to the top
of the session loop do not sleep: a charger message that ends the sleep after a failed attempt, and
a connection that fails during the replay.
-/

namespace OcppProxy

/-- A sleep before an attempt: when it begins and ends, what `next_delay` returned, and what
remained of the window where the session looks at it. -/
structure BackoffSleep where
  began : Time
  ends : Time
  delay : Duration
  remaining : Option Duration
  deriving DecidableEq, Repr

/-- How long the sleep should be: as the backoff says, within what remains of the window but at
least a millisecond. -/
def BackoffSleep.length (sleep : BackoffSleep) : Duration :=
  match sleep.remaining with
  | some remaining => min sleep.delay (max remaining (Duration.fromMillis 1))
  | none => sleep.delay

def BackoffSleep.IsWhole (sleep : BackoffSleep) : Prop := sleep.ends = sleep.began + sleep.length

inductive Pace where
  | attempt (start : Time)
  | sleep (sleep : BackoffSleep)
  deriving DecidableEq, Repr

def Pace.isAttempt : Pace → Bool
  | attempt _ => true
  | sleep _ => false

def Input.isManager : Input → Bool
  | manager _ => true
  | _ => false

/-- A whole sleep has run to its end by the time the attempt starts. -/
def Pace.SleptBefore (pace : Pace) (gap : List Pace) : Prop :=
  ∀ start, pace = .attempt start → ∃ sleep, .sleep sleep ∈ gap ∧ sleep.IsWhole ∧ sleep.ends ≤ start

namespace Session

def paces (cx : SessionContext) (s : Session) (ev : Event) : List Pace :=
  match step cx s ev with
  | none => []
  | some t =>
    match s.phase, t.phase with
    | .connecting, .backingOff deadline =>
      [.sleep { began := ev.env.now, ends := deadline, delay := s.backoff.nextDelay.1
                remaining := some (cx.config.maxReconnectWindow - s.elapsed ev.env.now) }]
    | .forwarding, .upstreamLost deadline =>
      [.sleep { began := ev.env.now, ends := deadline, delay := s.backoff.nextDelay.1
                remaining := none }]
    | _, .connecting => if ev.input.isManager then [] else [.attempt ev.env.now]
    | _, _ => []

def AttemptsSpaced (cx : SessionContext) (now : Time) (manager : ConnectionStateManager)
    (events : List Event) : Prop :=
  Gaps.Spaced Pace.isAttempt Pace.SleptBefore
    (.attempt now :: (step cx).outputs (paces cx) (start cx now manager) events)

/-- A step that starts an attempt without waiting: the charger says something during the sleep after
a failed attempt, or the upstream takes less than what waits to be replayed. -/
def hurries (s : Session) (ev : Event) : Bool :=
  match s.phase, ev.input with
  | .backingOff deadline, .charger message => decide (ev.env.now < deadline) && !message.isLeaving
  | .connecting, .connected =>
    match ev.env.upstreamRoom with
    | some room => decide (room < s.forwarder.upstreamBuffer.length)
    | none => false
  | _, _ => false

section
variable {cx : SessionContext} {env : Env} {s t : Session} {ev : Event} {now : Time}

/-- A flush gets through if and only if the sink has room for what waits. -/
theorem flush_ok_iff (buffer : List OcppFrame) (w : WireSink) :
    (MessageForwarder.flush buffer w).1 = .ok () ↔ ∀ n, w.room = some n → buffer.length ≤ n := by
  induction buffer generalizing w with
  | nil => simp [MessageForwarder.flush]
  | cons frame buffer ih =>
    by_cases hroom : w.room = some 0
    · have hsend := WireSink.sendRaw_of_room_zero hroom frame.raw
      simp [MessageForwarder.flush, hsend, hroom]
    · have hsend := WireSink.sendRaw_of_room hroom frame.raw
      simp only [MessageForwarder.flush, hsend, ih]
      cases hw : w.room with
      | none => simp
      | some n =>
        cases n with
        | zero => exact absurd hw hroom
        | succ n => simp

/-- What a session knows of the pace so far: an attempt was started, and since the last one it has
begun the sleep it is in, if it is in one. -/
structure KnowsPace (s : Session) (items : List Pace) : Prop where
  started : ∃ pace ∈ items, pace.isAttempt = true
  awake : s.phase = .connecting ∨ s.phase = .forwarding → Gaps.since Pace.isAttempt items = []
  asleep : ∀ deadline, s.SleepsUntil deadline → ∃ sleep : BackoffSleep,
    Gaps.since Pace.isAttempt items = [.sleep sleep] ∧ sleep.IsWhole ∧ sleep.ends = deadline

/-! ## One step -/

/-- A step that does nothing for the pace. -/
theorem KnowsPace.of_awake {items : List Pace} (hs : s.KnowsPace items)
    (hphase : t.phase ≠ .connecting ∧ t.phase ≠ .forwarding) (hawake : ∀ d, ¬ t.SleepsUntil d) :
    t.KnowsPace items :=
  ⟨hs.started, fun h => (h.elim hphase.1 hphase.2).elim, fun d h => (hawake d h).elim⟩

/-- An attempt that has just been started. -/
theorem KnowsPace.attempt {items : List Pace} (hphase : t.phase = .connecting) (start : Time) :
    t.KnowsPace (items ++ [.attempt start]) := by
  refine ⟨⟨_, List.mem_append_right _ (List.mem_singleton_self _), rfl⟩, fun _ => ?_, ?_⟩
  · rw [Gaps.since_concat]
    rfl
  · intro deadline hsleeps
    rcases hsleeps with h | h
    · rw [hphase] at h
      cases h
    · rw [hphase] at h
      cases h

/-- A sleep that has just begun. -/
theorem KnowsPace.sleep {items : List Pace} {sleep : BackoffSleep} (hs : s.KnowsPace items)
    (hbefore : s.phase = .connecting ∨ s.phase = .forwarding) (hwhole : sleep.IsWhole)
    (hphase : t.SleepsUntil sleep.ends) : t.KnowsPace (items ++ [.sleep sleep]) := by
  obtain ⟨pace, hmem, hattempt⟩ := hs.started
  refine ⟨⟨pace, List.mem_append_left _ hmem, hattempt⟩, ?_, ?_⟩
  · intro hawake
    rcases hphase with h | h <;> simp [h] at hawake
  · intro deadline hsleeps
    have hends : sleep.ends = deadline := by
      rcases hphase with h | h <;> rcases hsleeps with h' | h' <;>
        simpa using h.symm.trans h'
    refine ⟨sleep, ?_, hwhole, hends⟩
    rw [Gaps.since_concat, hs.awake hbefore]
    rfl

/-- An attempt is well spaced if and only if a whole sleep came since the last one and is over. -/
theorem spaced_attempt_iff {items : List Pace} (hs : s.KnowsPace items)
    (hgood : Gaps.Spaced Pace.isAttempt Pace.SleptBefore items) (start : Time) :
    Gaps.Spaced Pace.isAttempt Pace.SleptBefore (items ++ [.attempt start]) ↔
      ∃ sleep, .sleep sleep ∈ Gaps.since Pace.isAttempt items ∧ sleep.IsWhole ∧
        sleep.ends ≤ start := by
  rw [Gaps.spaced_concat]
  constructor
  · rintro ⟨-, h⟩
    exact h rfl hs.started start rfl
  · intro hslept
    refine ⟨hgood, fun _ _ b hb => ?_⟩
    cases hb
    exact hslept

/-- During a sleep, an attempt is well spaced if and only if the sleep is over. -/
theorem spaced_asleep_iff {items : List Pace} (hs : s.KnowsPace items)
    (hgood : Gaps.Spaced Pace.isAttempt Pace.SleptBefore items) {deadline start : Time}
    (hsleeps : s.SleepsUntil deadline) :
    Gaps.Spaced Pace.isAttempt Pace.SleptBefore (items ++ [.attempt start]) ↔
      deadline ≤ start := by
  obtain ⟨sleep, hsince, hwhole, hends⟩ := hs.asleep deadline hsleeps
  rw [spaced_attempt_iff hs hgood, hsince]
  constructor
  · rintro ⟨sleep', hmem, -, hover⟩
    obtain rfl : sleep' = sleep := by simpa using hmem
    exact hends ▸ hover
  · intro hover
    exact ⟨sleep, List.mem_singleton_self _, hwhole, hends ▸ hover⟩

inductive PaceStep (cx : SessionContext) (s : Session) (ev : Event) (t : Session) : Prop where
  /-- Nothing. -/
  | quiet (hpaces : s.paces cx ev = []) (hhurries : s.hurries ev = false)
      (hkeeps : ∀ items, s.KnowsPace items → t.KnowsPace items)
  /-- An attempt that ends a sleep, in time or before. -/
  | woke {deadline : Time} (hpaces : s.paces cx ev = [.attempt ev.env.now])
      (hsleeps : s.SleepsUntil deadline) (hphase : t.phase = .connecting)
      (hhurries : s.hurries ev = false ↔ deadline ≤ ev.env.now)
  /-- An attempt right after another. -/
  | again (hpaces : s.paces cx ev = [.attempt ev.env.now]) (hbefore : s.phase = .connecting)
      (hphase : t.phase = .connecting) (hhurries : s.hurries ev = true)
  | slept {sleep : BackoffSleep} (hpaces : s.paces cx ev = [.sleep sleep])
      (hbefore : s.phase = .connecting ∨ s.phase = .forwarding) (hwhole : sleep.IsWhole)
      (hphase : t.SleepsUntil sleep.ends) (hhurries : s.hurries ev = false)

/-- Leaving the loop does nothing for the pace. -/
theorem PaceStep.of_left (hpaces : s.paces cx ev = []) (hhurries : s.hurries ev = false)
    (hphase : t.phase = .draining ∨ t.phase = .closing ∨ t.phase = .ended) :
    PaceStep cx s ev t := by
  refine .quiet hpaces hhurries fun items hs => hs.of_awake ?_ ?_
  · rcases hphase with h | h | h <;> simp [h]
  · intro deadline hsleeps
    rcases hphase with h | h | h <;> simp [SleepsUntil, h] at hsleeps

/-- A step that stays in its phase does nothing for the pace, where it could. -/
theorem PaceStep.of_still (h : step cx s ev = some t) (hsame : t.phase = s.phase)
    (hstill : s.phase = .forwarding ∨ s.phase = .draining ∨
      ∃ manager, ev.input = .manager manager) : PaceStep cx s ev t := by
  refine .quiet ?_ ?_ fun items hs => ⟨hs.started, ?_, ?_⟩
  · unfold paces
    simp only [h, hsame]
    rcases hstill with hp | hp | ⟨manager, hm⟩
    · simp [hp]
    · simp [hp]
    · cases s.phase <;> simp [hm, Input.isManager]
  · unfold hurries
    rcases hstill with hp | hp | ⟨manager, hm⟩
    · simp [hp]
    · simp [hp]
    · cases s.phase <;> simp [hm]
  · rw [hsame]
    exact hs.awake
  · intro deadline hsleeps
    refine hs.asleep deadline ?_
    unfold SleepsUntil at hsleeps ⊢
    rwa [hsame] at hsleeps

/-- A step hurries after a connection if and only if the replay fails. -/
theorem hurries_connected (hphase : s.phase = .connecting) (hinput : ev.input = .connected) :
    s.hurries ev = false ↔
      (MessageForwarder.flush s.forwarder.upstreamBuffer ev.env.upstreamSink).1 = .ok () := by
  rw [flush_ok_iff]
  change _ ↔ ∀ n, ev.env.upstreamRoom = some n → _
  unfold hurries
  rw [hphase, hinput]
  cases hroom : ev.env.upstreamRoom with
  | none => simp
  | some room => simp

theorem paceStep_of_step (h : step cx s ev = some t) : PaceStep cx s ev t := by
  cases timingStep_of_step h with
  | still hstill h' => exact .of_still h h'.phase hstill
  | @slept deadline hsleeps hinput hdue h' =>
    have hs : s.SleepsUntil deadline := hsleeps
    refine .woke ?_ hs h'.phase (iff_of_true ?_ hdue)
    · unfold paces
      rcases hs with hp | hp <;> simp [h, h'.phase, hp, hinput, Input.isManager]
    · unfold hurries
      rcases hs with hp | hp <;> simp [hp, hinput]
  | @interrupted deadline message hphase hinput hstays h' =>
    have hp : s.phase = .backingOff deadline := hphase
    refine .woke ?_ (.inl hp) h'.phase ?_
    · simp [paces, h, h'.phase, hp, hinput, Input.isManager]
    · simp [hurries, hp, hinput, hstays]
  | gaveUp hphase hinput hwindow h' =>
    have hp : s.phase = .connecting := hphase
    refine .of_left ?_ ?_ (.inl h'.phase)
    · simp [paces, h, h'.phase, hp]
    · simp [hurries, hp, hinput]
  | backedOff hphase hinput hwindow h' =>
    have hp : s.phase = .connecting := hphase
    have hpaces : s.paces cx ev = [.sleep { began := ev.env.now
                                            ends := ev.env.now + s.clampedDelay cx ev.env.now
                                            delay := s.backoff.nextDelay.1
                                            remaining := some (cx.config.maxReconnectWindow -
                                              s.elapsed ev.env.now) }] := by
      simp only [paces, h, h'.phase, hp]
      rfl
    exact .slept hpaces (.inl hp) rfl (.inl h'.phase) (by simp [hurries, hp, hinput])
  | connected hphase hinput hflush h' =>
    have hp : s.phase = .connecting := hphase
    have hp' : t.phase = .forwarding := h'.phase
    refine .quiet ?_ ((hurries_connected hp hinput).mpr hflush) fun items hs => ?_
    · simp [paces, h, hp', hp]
    · exact ⟨hs.started, fun _ => hs.awake (.inl hp), by simp [SleepsUntil, hp']⟩
  | replayFailed hphase hinput hflush h' =>
    have hp : s.phase = .connecting := hphase
    have hp' : t.phase = .connecting := h'.phase.trans hphase
    refine .again ?_ hp hp' (eq_true_of_ne_false fun hslow => ?_)
    · simp [paces, h, hp', hp, hinput, Input.isManager]
    · exact hflush ((hurries_connected hp hinput).mp hslow)
  | lost hphase h' =>
    have hp : s.phase = .forwarding := hphase
    have hpaces : s.paces cx ev = [.sleep { began := ev.env.now
                                            ends := ev.env.now + s.backoff.nextDelay.1
                                            delay := s.backoff.nextDelay.1
                                            remaining := none }] := by
      simp only [paces, h, h'.phase, hp]
    exact .slept hpaces (.inr hp) rfl (.inr h'.phase) (by simp [hurries, hp])
  | left hphase hinput h' =>
    have hp : s.phase = .forwarding ∨ ∃ deadline, s.SleepsUntil deadline := hphase
    have hi : s.phase = .forwarding ∨ ev.input = .cancelled ∨
        ∃ message, ev.input = .charger message ∧ message.isLeaving = true := hinput
    refine .of_left ?_ ?_ (.inl h'.phase)
    · unfold paces
      rcases hp with hp | ⟨_, hp | hp⟩ <;> simp [h, h'.phase, hp]
    · unfold hurries
      rcases hi with hi | hi | ⟨message, hi, hleaving⟩
      · simp [hi]
      · cases s.phase <;> simp [hi]
      · rcases hp with hp | ⟨_, hp | hp⟩ <;> simp [hp, hi, hleaving]
  | closing hphase h' =>
    have hp : s.phase = .draining := hphase
    refine .of_left ?_ ?_ (.inr (.inl h'.phase))
    · simp [paces, h, h'.phase, hp]
    · simp [hurries, hp]
  | ended hphase h' =>
    have hp : s.phase = .closing := hphase
    refine .of_left ?_ ?_ (.inr (.inr h'.phase))
    · simp [paces, h, h'.phase, hp]
    · simp [hurries, hp]

/-- What a step adds to the pace, and that it is well spaced if and only if the step does not
hurry. -/
theorem pace_of_step {items : List Pace} (hs : s.KnowsPace items) (h : step cx s ev = some t) :
    t.KnowsPace (items ++ s.paces cx ev) ∧
      (Gaps.Spaced Pace.isAttempt Pace.SleptBefore items →
        (Gaps.Spaced Pace.isAttempt Pace.SleptBefore (items ++ s.paces cx ev) ↔
          s.hurries ev = false)) := by
  cases paceStep_of_step h with
  | quiet hpaces hhurries hkeeps =>
    rw [hpaces, List.append_nil]
    exact ⟨hkeeps items hs, fun hgood => iff_of_true hgood hhurries⟩
  | woke hpaces hsleeps hphase hhurries =>
    rw [hpaces, hhurries]
    exact ⟨.attempt hphase _, fun hgood => spaced_asleep_iff hs hgood hsleeps⟩
  | again hpaces hbefore hphase hhurries =>
    rw [hpaces, hhurries]
    refine ⟨.attempt hphase _, fun hgood => ?_⟩
    rw [spaced_attempt_iff hs hgood, hs.awake (.inl hbefore)]
    simp
  | slept hpaces hbefore hwhole hphase hhurries =>
    rw [hpaces, hhurries]
    refine ⟨hs.sleep hbefore hwhole hphase, fun hgood => ?_⟩
    rw [Gaps.spaced_concat]
    simp [hgood, Pace.isAttempt]

/-! ## Whole runs -/

theorem start_knowsPace (now : Time) (manager : ConnectionStateManager) :
    (start cx now manager).KnowsPace [.attempt now] :=
  @KnowsPace.attempt _ [] rfl now

/-- The attempts of a session are spaced if and only if no step of its run hurries. -/
theorem attemptsSpaced_iff {manager : ConnectionStateManager} {events : List Event}
    (hrun : (step cx).run (start cx now manager) events = some t) :
    AttemptsSpaced cx now manager events ↔
      (step cx).Meets (fun s ev => s.hurries ev = false) (start cx now manager) events := by
  -- the first attempt has none before it
  have hfirst : Gaps.Spaced Pace.isAttempt Pace.SleptBefore [.attempt now] := by
    refine (@Gaps.spaced_concat _ _ _ [] _).mpr ⟨Gaps.spaced_nil, fun _ h => ?_⟩
    obtain ⟨pace, hmem, -⟩ := h
    exact absurd hmem List.not_mem_nil
  refine (step cx).outputs_good_iff (T := KnowsPace) (f := paces cx) (l := [.attempt now])
    (fun _ _ h => h.of_append) ?_ ?_ hrun (start_knowsPace now manager) hfirst
  · intro s ev s' items h hs
    exact (pace_of_step hs h).1
  · intro s ev s' items h hs hgood
    exact (pace_of_step hs h).2 hgood

def quietCharger : List Event :=
  [.at 1 .connectFailed, .at 3 .timer, .at 4 .connected, .at 5 (.central .close), .at 7 .timer]

theorem attemptsSpaced_iff_quietCharger : (runOfTable [] quietCharger).isSome = true ∧
    AttemptsSpaced (.ofTable []) 0 {} quietCharger := by
  have hrun : (runOfTable [] quietCharger).isSome = true := by decide +kernel
  obtain ⟨t, ht⟩ := Option.isSome_iff_exists.mp hrun
  exact ⟨hrun, (attemptsSpaced_iff ht).mpr (by decide +kernel)⟩

/-- A heartbeat one second into a sleep of two: the next attempt starts with it. -/
def chattyCharger : List Event :=
  [.at 1 .connectFailed, .at 2 (.charger (.text heartbeat.1))]

/-- The charger's frame starts the second attempt. -/
theorem not_attemptsSpaced_chattyCharger :
    (runOfTable commandTable chattyCharger).isSome = true ∧
      ¬ AttemptsSpaced (.ofTable commandTable) 0 {} chattyCharger := by
  refine ⟨by decide +kernel, fun hspaced => ?_⟩
  have hpaces : (step (.ofTable commandTable)).outputs (paces (.ofTable commandTable))
      (start (.ofTable commandTable) 0 {}) chattyCharger =
        [.sleep { began := Duration.fromSecs 1, ends := Duration.fromSecs 3
                  delay := Duration.fromSecs 2, remaining := some (Duration.fromSecs 300) },
          .attempt (Duration.fromSecs 2)] := by
    decide +kernel
  unfold AttemptsSpaced at hspaced
  rw [hpaces] at hspaced
  obtain ⟨sleep, hmem, -, hover⟩ := hspaced [.attempt 0, .sleep _] _ [] rfl rfl
    ⟨.attempt 0, List.mem_cons_self, rfl⟩ _ rfl
  have hsleep : sleep.ends = Duration.fromSecs 3 := by
    rw [Gaps.since, List.rtakeWhile] at hmem
    obtain rfl : sleep = _ := by simpa [Pace.isAttempt] using hmem
    rfl
  rw [hsleep] at hover
  exact absurd hover (by decide)

end

end Session

end OcppProxy

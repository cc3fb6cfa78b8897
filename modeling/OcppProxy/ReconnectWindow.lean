import OcppProxy.SessionTiming
import OcppProxy.SessionManager

/-!
# The reconnection window

When attempts start, when the session gives up, and the close code the charger gets. The clock is
abstract: a handler takes no time, and a sleep ends when it is due.
-/

namespace OcppProxy

/-- The latest an attempt starts after reconnecting began. -/
def SessionConfig.attemptBound (config : SessionConfig) : Duration :=
  max (config.maxReconnectWindow + Duration.fromMillis 1)
    (min config.initialBackoff config.maxBackoff)

def Phase.deadline? : Phase → Option Time
  | backingOff deadline | upstreamLost deadline => some deadline
  | _ => none

/-- The charger neither sends nor hangs up, and no shutdown is requested. -/
def Input.isUndisturbed : Input → Bool
  | charger _ | cancelled => false
  | _ => true

namespace Session

/-- No time passes between the end of a sleep and the attempt after it. -/
def OnTime (s : Session) (ev : Event) : Prop :=
  ∀ deadline ∈ s.phase.deadline?, ev.env.now ≤ deadline

def GivesUp (cx : SessionContext) (s : Session) (ev : Event) : Prop :=
  s.phase = .connecting ∧ ev.input = .connectFailed ∧
    cx.config.maxReconnectWindow ≤ s.elapsed ev.env.now

instance (s : Session) (ev : Event) : Decidable (s.OnTime ev) :=
  inferInstanceAs (Decidable (∀ _ ∈ _, _))

instance (cx : SessionContext) (s : Session) (ev : Event) : Decidable (GivesUp cx s ev) :=
  inferInstanceAs (Decidable (_ ∧ _))

structure KeepsWindow (cx : SessionContext) (s : Session) (ev : Event) (t : Session) : Prop where
  /-- An attempt that starts does so within the bound. -/
  attempt : t.phase = .connecting → (∀ manager, ev.input ≠ .manager manager) →
    ∀ since, t.reconnectingSince = some since → ev.env.now - since ≤ cx.config.attemptBound
  /-- While the session reconnects undisturbed, it leaves the loop when it gives up, and then
  only. -/
  leaves : (s.phase = .connecting ∨ ∃ deadline, s.SleepsUntil deadline) →
    ev.input.isUndisturbed = true → (t.phase = .draining ↔ GivesUp cx s ev)

/-- Every step of a run keeps the window, and the charger is told 1001 if the session gave up and
1000 if it ended in any other way. -/
structure WindowKept (cx : SessionContext) (s : Session) (events : List Event) (t : Session) :
    Prop where
  steps : (step cx).Meets (fun s ev => ∀ t, step cx s ev = some t → KeepsWindow cx s ev t) s events
  closes : t.trace Entry.close? = if t.phase.isDrained then
    [if (step cx).Meets (fun s ev => ¬ GivesUp cx s ev) s events then 1000 else 1001] else []

/-- What the window rests on: the backoff is the configured one and is reset while the session
forwards, and no sleep goes past the bound. -/
structure Paced (cx : SessionContext) (s : Session) : Prop where
  initial : s.backoff.initial = cx.config.initialBackoff
  max : s.backoff.max = cx.config.maxBackoff
  since : ∀ since, s.reconnectingSince = some since → since ≤ s.clock
  forwarding : s.phase = .forwarding →
    s.reconnectingSince = none ∧ s.backoff.current = cx.config.initialBackoff
  sleeps : ∀ deadline since, s.SleepsUntil deadline → s.reconnectingSince = some since →
    deadline - since ≤ cx.config.attemptBound

section
variable {cx : SessionContext} {env : Env} {input : Input} {s t : Session} {ev : Event} {now : Time}

theorem sleepsUntil_iff {deadline : Time} :
    s.SleepsUntil deadline ↔ deadline ∈ s.phase.deadline? := by
  unfold SleepsUntil Phase.deadline?
  cases s.phase <;> simp

/-! ## The invariant -/

/-- A sleep within the rest of a window, or of a millisecond past it, stays within the bound. -/
theorem add_clamped_le {window passed tick sleep other : Nat} (hwindow : passed < window)
    (hsleep : sleep ≤ Max.max (window - passed) tick) :
    passed + sleep ≤ Max.max (window + tick) other := by
  omega

theorem sleep_end_le {now since : Int} {passed sleep bound : Nat}
    (hpassed : (passed : Int) = now - since) (hbound : passed + sleep ≤ bound) :
    now + sleep - since ≤ bound := by
  omega

/-- What has passed and the clamped sleep stay within the window and a millisecond. -/
theorem elapsed_add_clampedDelay (hwindow : s.elapsed now < cx.config.maxReconnectWindow) :
    s.elapsed now + s.clampedDelay cx now ≤ cx.config.attemptBound :=
  add_clamped_le hwindow (min_le_right _ _)

theorem Paced.startedAt_le (h : Paced cx s) (hnow : s.clock ≤ now) : s.startedAt now ≤ now := by
  unfold startedAt
  cases hsince : s.reconnectingSince with
  | none => exact le_rfl
  | some since => exact (h.since since hsince).trans hnow

theorem elapsed_eq (h : s.startedAt now ≤ now) : (s.elapsed now : Int) = now - s.startedAt now :=
  Int.toNat_of_nonneg (sub_nonneg.mpr h)

/-- What is started keeps its instant; what begins now starts now. -/
theorem Paced.since_startedAt (h : Paced cx s) (hnow : s.clock ≤ now) {since : Time}
    (hsince : some (s.startedAt now) = some since) : since ≤ now := by
  obtain rfl : s.startedAt now = since := by simpa using hsince
  exact h.startedAt_le hnow

/-- A phase that neither forwards nor sleeps asks nothing of the backoff's current delay. -/
theorem Paced.of_awake (hphase : t.phase ≠ .forwarding) (hawake : t.phase.deadline? = none)
    (hinitial : t.backoff.initial = cx.config.initialBackoff)
    (hmax : t.backoff.max = cx.config.maxBackoff)
    (hsince : ∀ since, t.reconnectingSince = some since → since ≤ t.clock) : Paced cx t := by
  refine ⟨hinitial, hmax, hsince, fun h => absurd h hphase, ?_⟩
  intro deadline since hsleeps
  rw [sleepsUntil_iff, hawake] at hsleeps
  cases hsleeps

/-- Where a session only moves on to another phase. -/
theorem Paced.enter (hs : Paced cx s) {phase : Phase} (h : KeepsPace { s with phase } t)
    (hphase : phase ≠ .forwarding) (hawake : phase.deadline? = none) : Paced cx t := by
  refine .of_awake (h.phase ▸ hphase) (h.phase ▸ hawake) ?_ ?_ ?_
  · rw [h.backoff, hs.initial]
  · rw [h.backoff, hs.max]
  · rw [h.since, h.clock]
    exact hs.since

/-- Where a session begins to sleep, for no longer than the bound allows. -/
theorem Paced.of_asleep (hs : Paced cx s) (hnow : s.clock ≤ now) {delay : Duration}
    (hphase : t.phase ≠ .forwarding) (hdeadline : t.phase.deadline? = some (now + delay))
    (hclock : t.clock = now) (hsince : t.reconnectingSince = some (s.startedAt now))
    (hinitial : t.backoff.initial = s.backoff.initial) (hmax : t.backoff.max = s.backoff.max)
    (hdelay : s.elapsed now + delay ≤ cx.config.attemptBound) : Paced cx t := by
  have hstarted := hs.startedAt_le hnow
  refine ⟨hinitial.trans hs.initial, hmax.trans hs.max, ?_, fun h => absurd h hphase, ?_⟩
  · intro since hsome
    rw [hsince] at hsome
    obtain rfl : s.startedAt now = since := by simpa using hsome
    rwa [hclock]
  · intro deadline since hsleeps hsome
    rw [sleepsUntil_iff, hdeadline] at hsleeps
    rw [hsince] at hsome
    obtain rfl : now + delay = deadline := by simpa using hsleeps
    obtain rfl : s.startedAt now = since := by simpa using hsome
    exact sleep_end_le (elapsed_eq hstarted) hdelay

theorem Paced.of_timingStep (hs : Paced cx s) (hclock : s.clock = env.now)
    (h : TimingStep cx env input s t) : Paced cx t := by
  have hnow : s.clock ≤ env.now := hclock.le
  cases h with
  | still _ h =>
    refine ⟨?_, ?_, ?_, ?_, ?_⟩
    · rw [h.backoff, hs.initial]
    · rw [h.backoff, hs.max]
    · rw [h.since, h.clock]
      exact hs.since
    · rw [h.phase, h.since, h.backoff]
      exact hs.forwarding
    · intro deadline since hsleeps
      rw [h.since]
      rw [sleepsUntil_iff, h.phase, ← sleepsUntil_iff] at hsleeps
      exact hs.sleeps deadline since hsleeps
  | slept _ _ _ h => exact hs.enter h (by decide) rfl
  | interrupted _ _ _ h => exact hs.enter h (by decide) rfl
  | gaveUp _ _ _ h =>
    refine .of_awake (by simp [h.phase]) (by rw [h.phase]; rfl) ?_ ?_ ?_
    · rw [h.backoff, hs.initial]
    · rw [h.backoff, hs.max]
    · intro since hsince
      rw [h.since] at hsince
      rw [h.clock, hclock]
      exact hs.since_startedAt hnow hsince
  | backedOff _ _ hwindow h =>
    refine hs.of_asleep hnow ?_ ?_ (h.clock.trans hclock) h.since ?_ ?_
      (elapsed_add_clampedDelay hwindow)
    · simp [h.phase]
    · rw [h.phase]
      rfl
    · rw [h.backoff]
      rfl
    · rw [h.backoff]
      rfl
  | connected _ _ _ h =>
    refine ⟨?_, ?_, ?_, ?_, ?_⟩
    · rw [h.backoff]
      exact hs.initial
    · rw [h.backoff]
      exact hs.max
    · simp [h.since]
    · intro _
      rw [h.since, h.backoff]
      exact ⟨rfl, hs.initial⟩
    · simp [h.since]
  | replayFailed hphase _ _ h =>
    have hconnecting : t.phase = .connecting := h.phase.trans hphase
    refine .of_awake (by simp [hconnecting]) (by rw [hconnecting]; rfl) ?_ ?_ ?_
    · rw [h.backoff]
      exact hs.initial
    · rw [h.backoff]
      exact hs.max
    · simp [h.since]
  | lost hphase h =>
    -- the loop starts with a fresh backoff, so the first sleep is the initial one
    obtain ⟨hsince, hcurrent⟩ := hs.forwarding hphase
    have hstarted : s.elapsed env.now = 0 := by simp [elapsed, startedAt, hsince]
    have hdelay : s.elapsed env.now + s.backoff.nextDelay.1 ≤ cx.config.attemptBound := by
      rw [hstarted, Nat.zero_add, ExponentialBackoff.nextDelay, hcurrent, hs.max]
      exact le_max_right _ _
    refine hs.of_asleep hnow ?_ ?_ (h.clock.trans hclock) h.since ?_ ?_ hdelay
    · simp [h.phase]
    · rw [h.phase]
      rfl
    · rw [h.backoff]
      rfl
    · rw [h.backoff]
      rfl
  | left _ _ h => exact hs.enter h (by decide) rfl
  | closing _ h =>
    refine .of_awake (by simp [h.phase]) (by rw [h.phase]; rfl) ?_ ?_ ?_
    · rw [h.backoff]
      exact hs.initial
    · rw [h.backoff]
      exact hs.max
    · rw [h.since, h.clock]
      exact hs.since
  | ended _ h => exact hs.enter h (by decide) rfl

theorem Paced.step (hs : Paced cx s) (h : step cx s ev = some t) : Paced cx t := by
  have hclock := (step_eq_some.mp h).1
  refine Paced.of_timingStep (s := { s with clock := ev.env.now }) ?_ rfl (timingStep_of_step h)
  refine ⟨hs.initial, hs.max, ?_, hs.forwarding, hs.sleeps⟩
  intro since hsince
  exact (hs.since since hsince).trans hclock

theorem start_paced (now : Time) (manager : ConnectionStateManager) :
    Paced cx (start cx now manager) := by
  obtain ⟨hbackoff, hsince, -⟩ := @start_timing cx now manager
  refine .of_awake (by simp [start, enterConnecting]) rfl ?_ ?_ ?_
  · rw [hbackoff]
    rfl
  · rw [hbackoff]
    rfl
  · simp [hsince]

/-! ## Every step -/

/-- An attempt starts where a sleep ends, or where the charger cuts it short. -/
theorem attempt_of_timingStep (hs : Paced cx s) (hclock : s.OnTime ev)
    (h : TimingStep cx ev.env ev.input { s with clock := ev.env.now } t)
    (hattempt : t.phase = .connecting) (hinput : ∀ manager, ev.input ≠ .manager manager)
    {since : Time} (hsince : t.reconnectingSince = some since) :
    ev.env.now - since ≤ cx.config.attemptBound := by
  have hsleeping {deadline : Time} (hsleeps : s.SleepsUntil deadline)
      (hsame : t.reconnectingSince = s.reconnectingSince) :
      ev.env.now - since ≤ cx.config.attemptBound := by
    have hdue := hclock deadline (sleepsUntil_iff.mp hsleeps)
    have hbound := hs.sleeps deadline since hsleeps (hsame.symm.trans hsince)
    exact (sub_le_sub_right hdue since).trans hbound
  cases h with
  | still hstill h =>
    have hphase : s.phase = .connecting := h.phase.symm.trans hattempt
    rcases hstill with hforwarding | hdraining | ⟨manager, hmanager⟩
    · change s.phase = _ at hforwarding
      rw [hphase] at hforwarding
      cases hforwarding
    · change s.phase = _ at hdraining
      rw [hphase] at hdraining
      cases hdraining
    · exact absurd hmanager (hinput manager)
  | slept hsleeps _ _ h => exact hsleeping hsleeps h.since
  | interrupted hsleeps _ _ h => exact hsleeping (.inl hsleeps) h.since
  | replayFailed _ _ _ h =>
    rw [h.since] at hsince
    cases hsince
  | gaveUp _ _ _ h | backedOff _ _ _ h | connected _ _ _ h | lost _ h | left _ _ h | closing _ h
  | ended _ h =>
    rw [h.phase] at hattempt
    cases hattempt

/-- The session leaves the loop for good only where it gives up, while nobody disturbs it. -/
theorem leaves_of_timingStep
    (hreconnects : s.phase = .connecting ∨ ∃ deadline, s.SleepsUntil deadline)
    (hundisturbed : ev.input.isUndisturbed = true)
    (h : TimingStep cx ev.env ev.input { s with clock := ev.env.now } t) :
    t.phase = .draining ↔ GivesUp cx s ev := by
  have hnot : s.phase ≠ .forwarding ∧ s.phase ≠ .draining ∧ s.phase ≠ .closing := by
    rcases hreconnects with h | ⟨deadline, h | h⟩ <;> simp [h]
  have hother (hinput : ev.input ≠ .connectFailed) (hphase : t.phase ≠ .draining) :
      t.phase = .draining ↔ GivesUp cx s ev :=
    iff_of_false hphase fun hgives => hinput hgives.2.1
  cases h with
  | still hstill h =>
    rcases hstill with hforwarding | hdraining | ⟨manager, hmanager⟩
    · exact absurd hforwarding hnot.1
    · exact absurd hdraining hnot.2.1
    · exact hother (by simp [hmanager]) (h.phase ▸ hnot.2.1)
  | slept _ hinput _ h | interrupted _ hinput _ h | connected _ hinput _ h =>
    exact hother (by simp [hinput]) (by simp [h.phase])
  | replayFailed hphase hinput _ h =>
    exact hother (by simp [hinput]) (by rw [h.phase]; exact hnot.2.1)
  | gaveUp hphase hinput hwindow h =>
    exact iff_of_true h.phase ⟨hphase, hinput, hwindow⟩
  | backedOff _ _ hwindow h =>
    refine iff_of_false (by simp [h.phase]) ?_
    rintro ⟨-, -, hover⟩
    exact absurd hover (not_le.mpr hwindow)
  | lost hphase _ => exact absurd hphase hnot.1
  | left _ hinput _ =>
    rcases hinput with hphase | hcancelled | ⟨message, hcharger, -⟩
    · exact absurd hphase hnot.1
    · rw [hcancelled] at hundisturbed
      cases hundisturbed
    · rw [hcharger] at hundisturbed
      cases hundisturbed
  | closing hphase _ => exact absurd hphase hnot.2.1
  | ended hphase _ => exact absurd hphase hnot.2.2

theorem keepsWindow_of_step (hs : Paced cx s) (hclock : s.OnTime ev) (h : step cx s ev = some t) :
    KeepsWindow cx s ev t := by
  have htiming := timingStep_of_step h
  refine ⟨?_, ?_⟩
  · intro hattempt hinput since hsince
    exact attempt_of_timingStep hs hclock htiming hattempt hinput hsince
  · intro hreconnects hundisturbed
    exact leaves_of_timingStep hreconnects hundisturbed htiming

/-! ## The close code -/

def ClosesOnce (s : Session) : Prop :=
  s.trace Entry.close? = if s.phase.isDrained then [s.closeCode] else []

theorem ClosesOnce.of_timingStep (hs : s.ClosesOnce) (h : TimingStep cx env input s t) :
    t.ClosesOnce := by
  -- before the drain ends there is no close frame
  have hbefore {u : Session} (h : u.KeepsPace t)
      (hcloses : u.trace Entry.close? = s.trace Entry.close?)
      (hphase : s.phase.isDrained = false) (hphase' : u.phase.isDrained = false) :
      t.ClosesOnce := by
    unfold ClosesOnce at hs ⊢
    rw [h.closes, hcloses, hs, h.phase, hphase, hphase']
    rfl
  cases h with
  | still _ h =>
    unfold ClosesOnce at hs ⊢
    rw [h.closes, hs, h.phase, h.closeCode]
  | slept hphase _ _ h => exact hbefore h rfl (by rcases hphase with h | h <;> rw [h] <;> rfl) rfl
  | interrupted hphase _ _ h => exact hbefore h rfl (by rw [hphase]; rfl) rfl
  | gaveUp hphase _ _ h | backedOff hphase _ _ h | connected hphase _ _ h =>
    exact hbefore h rfl (by rw [hphase]; rfl) rfl
  | replayFailed hphase _ _ h =>
    exact hbefore h rfl (by rw [hphase]; rfl) (by rw [hphase]; rfl)
  | lost hphase h => exact hbefore h rfl (by rw [hphase]; rfl) rfl
  | left hphase _ h =>
    refine hbefore h rfl ?_ rfl
    rcases hphase with h | ⟨_, h | h⟩ <;> rw [h] <;> rfl
  | closing hphase h =>
    have hnone : s.trace Entry.close? = [] := hs.trans (by rw [hphase]; rfl)
    unfold ClosesOnce
    rw [h.closes, h.phase, h.closeCode, trace_note]
    exact congrArg (· ++ [s.closeCode]) hnone
  | ended hphase h =>
    have hone : s.trace Entry.close? = [s.closeCode] := hs.trans (by rw [hphase]; rfl)
    unfold ClosesOnce
    rw [h.closes, h.phase, h.closeCode]
    exact hone

/-- Only giving up changes the close code. -/
theorem closeCode_of_timingStep
    (h : TimingStep cx ev.env ev.input { s with clock := ev.env.now } t) :
    t.closeCode = if GivesUp cx s ev then closeGoingAway else s.closeCode := by
  have hkept (hcode : t.closeCode = s.closeCode) (hnot : ¬ GivesUp cx s ev) :
      t.closeCode = if GivesUp cx s ev then closeGoingAway else s.closeCode := by
    rw [if_neg hnot, hcode]
  have hphase {phase : Phase} (h : s.phase = phase) (hnot : phase ≠ .connecting) :
      ¬ GivesUp cx s ev :=
    fun hgives => hnot (h.symm.trans hgives.1)
  have hinput {input : Input} (h : ev.input = input) (hnot : input ≠ .connectFailed) :
      ¬ GivesUp cx s ev :=
    fun hgives => hnot (h.symm.trans hgives.2.1)
  cases h with
  | still hstill h =>
    refine hkept h.closeCode ?_
    rcases hstill with hforwarding | hdraining | ⟨manager, hmanager⟩
    · exact hphase hforwarding (by decide)
    · exact hphase hdraining (by decide)
    · exact hinput hmanager (by simp)
  | slept _ htimer _ h => exact hkept h.closeCode (hinput htimer (by decide))
  | interrupted _ hcharger _ h => exact hkept h.closeCode (hinput hcharger (by simp))
  | gaveUp hconnecting hfailed hwindow h =>
    rw [if_pos ⟨hconnecting, hfailed, hwindow⟩]
    exact h.closeCode
  | backedOff _ _ hwindow h =>
    refine hkept h.closeCode fun hgives => ?_
    exact absurd hgives.2.2 (not_le.mpr hwindow)
  | connected _ hconnected _ h => exact hkept h.closeCode (hinput hconnected (by decide))
  | replayFailed _ hconnected _ h => exact hkept h.closeCode (hinput hconnected (by decide))
  | lost hforwarding h => exact hkept h.closeCode (hphase hforwarding (by decide))
  | left hleft _ h =>
    refine hkept h.closeCode ?_
    rcases hleft with hforwarding | ⟨deadline, hbacking | hlost⟩
    · exact hphase hforwarding (by decide)
    · exact hphase hbacking (by simp)
    · exact hphase hlost (by simp)
  | closing hdraining h => exact hkept h.closeCode (hphase hdraining (by decide))
  | ended hclosing h => exact hkept h.closeCode (hphase hclosing (by decide))

theorem start_closesOnce (now : Time) (manager : ConnectionStateManager) :
    (start cx now manager).ClosesOnce :=
  (start_trace cx now manager _ fun _ => rfl).trans
    (by simp [start, enterConnecting, Phase.isDrained])

/-- On a clock that is on time, every run keeps the window. -/
theorem window_kept {manager : ConnectionStateManager} {events : List Event}
    (hrun : (step cx).run (start cx now manager) events = some t)
    (hclock : (step cx).Meets OnTime (start cx now manager) events) :
    WindowKept cx (start cx now manager) events t := by
  have hpaced : (step cx).Meets (fun s _ => Paced cx s) (start cx now manager) events :=
    (step cx).meets_of_invariant (fun _ _ _ _ h hs => Paced.step hs h)
      ((step cx).meets_true _ _) (start_paced now manager)
  have hcode := (@start_timing cx now manager).2.2
  -- the code is 1000 at the start and is never set back to it
  have hnormal : t.closeCode = closeNormal ↔
      (step cx).Meets (fun s ev => ¬ GivesUp cx s ev) (start cx now manager) events := by
    refine ((step cx).kept_iff (P := fun s => s.closeCode = closeNormal)
      (C := fun s ev => ¬ GivesUp cx s ev) (D := fun _ _ => True) ?_ hrun
      ((step cx).meets_true _ _)).trans ⟨And.right, And.intro hcode⟩
    intro s ev s' _ h
    rw [closeCode_of_timingStep (timingStep_of_step h)]
    by_cases hgives : GivesUp cx s ev
    · simp [hgives, closeNormal, closeGoingAway]
    · simp [hgives]
  -- no other code is ever set
  have heither : t.closeCode = closeNormal ∨ t.closeCode = closeGoingAway := by
    refine (step cx).invariant (P := fun s => s.closeCode = closeNormal ∨
      s.closeCode = closeGoingAway) ?_ hrun (.inl hcode)
    intro s ev s' h hs
    rw [closeCode_of_timingStep (timingStep_of_step h)]
    split
    · exact .inr rfl
    · exact hs
  -- the close frame carries the code as it stands on leaving the drain
  have hcloses : t.ClosesOnce :=
    (step cx).invariant (P := ClosesOnce) (fun s ev _ h hs =>
      ClosesOnce.of_timingStep (s := { s with clock := ev.env.now }) hs (timingStep_of_step h))
      hrun (start_closesOnce now manager)
  constructor
  · exact (Machine.meets_and.mpr ⟨hpaced, hclock⟩).mono fun s ev hs t h =>
      keepsWindow_of_step hs.1 hs.2 h
  · refine hcloses.trans ?_
    by_cases hkept : (step cx).Meets (fun s ev => ¬ GivesUp cx s ev) (start cx now manager) events
    · rw [if_pos hkept, hnormal.mpr hkept]
      rfl
    · rw [if_neg hkept, heither.resolve_left fun h => hkept (hnormal.mp h)]
      rfl

/-- Attempts that time out after 10 seconds each, under the default configuration: the session gives
up at the ninth, 310 seconds after the first failed. -/
def unreachable : List Event :=
  [.at 10 .connectFailed, .at 12 .timer, .at 22 .connectFailed, .at 26 .timer,
    .at 36 .connectFailed, .at 44 .timer, .at 54 .connectFailed, .at 70 .timer,
    .at 80 .connectFailed, .at 112 .timer, .at 122 .connectFailed, .at 182 .timer,
    .at 192 .connectFailed, .at 252 .timer, .at 262 .connectFailed, .at 310 .timer,
    .at 320 .connectFailed, .at 320 (.tryRecv none), .at 321 .closed]

theorem window_kept_unreachable : ∃ t, runOfTable [] unreachable = some t ∧
    WindowKept (.ofTable []) (start (.ofTable []) 0 {}) unreachable t ∧
    t.trace Entry.close? = [1001] := by
  have hended : (runOfTable [] unreachable).map Session.phase = some .ended := by decide +kernel
  obtain ⟨t, hrun, ht⟩ := Option.map_eq_some_iff.mp hended
  have hkept := window_kept hrun (by decide +kernel)
  refine ⟨t, hrun, hkept, hkept.closes.trans ?_⟩
  rw [ht]
  decide +kernel

end

end Session

end OcppProxy

import OcppProxy.Delivery

/-!
# The shutdown of the process

`main` takes a bounded number of steps in any run, gives up on a connection only when ten seconds have
passed, and from the signal on it ends without waiting for a connection task.
-/

namespace OcppProxy

def ProcessEvent.isMain : ProcessEvent → Bool
  | bind | beginDrain _ | look _ | join => true
  | _ => false

/-- How many steps `main` can still take. The drain loop looks at most once each tenth of a second,
and once more at the end. -/
def MainStage.rank : MainStage → Nat
  | starting => 104
  | serving => 103
  | draining _ _ sleeps => 102 - sleeps
  | joining _ => 1
  | stopped => 0

namespace Process

/-- What `main` knows: it leaves `serving` after the signal, and the loop has slept a tenth of a second
for each look it took. -/
structure Paced (x : Process) : Prop where
  unsignalled : x.main = .starting → x.downstream.shutdown = false
  signalled : x.main = .starting ∨ x.main = .serving ∨ x.downstream.shutdown = true
  slept : ∀ deadline wake sleeps, x.main = .draining deadline wake sleeps →
    deadline + (sleeps * drainInterval : Nat) ≤ wake + drainTimeout ∧
      (sleeps = 0 ∨ wake < deadline + drainInterval)

section
variable {cx : ProxyContext} {config : ProxyConfig} {file : SnapshotMap}
  {events : List ProcessEvent} {x y : Process} {ev : ProcessEvent}

/-- At most a hundred tenths of a second are slept within ten seconds, and fewer before the last
sleep. -/
theorem sleeps_bound {deadline wake : Int} {sleeps : Nat}
    (hslept : deadline + (sleeps * drainInterval : Nat) ≤ wake + drainTimeout) :
    (wake < deadline + drainInterval → sleeps ≤ 100) ∧ (wake < deadline → sleeps < 100) := by
  have hinterval : drainInterval = 100000000 := rfl
  have htimeout : drainTimeout = 10000000000 := rfl
  rw [hinterval, htimeout] at hslept
  rw [hinterval]
  omega

theorem Paced.sleeps_le (h : x.Paced) {deadline wake : Time} {sleeps : Nat}
    (hmain : x.main = .draining deadline wake sleeps) : sleeps ≤ 100 := by
  obtain ⟨hslept, rfl | hwake⟩ := h.slept deadline wake sleeps hmain
  · exact Nat.zero_le 100
  · exact (sleeps_bound hslept).1 hwake

/-- The stage of `main` is its own. -/
theorem main_of_moved (h : Moved cx x ev y) (hev : ev.isMain = false) : y.main = x.main := by
  cases h with
  | bound | drainBegun | slept | drained | joined => cases hev
  | _ => rfl

/-- Nothing but the signal sets the token. -/
theorem shutdown_of_task {d d' : DownstreamState} {ev : ProxyEvent} (hev : ev.isTask = true)
    (h : DownstreamState.step cx d ev = some d') : d'.shutdown = d.shutdown := by
  cases ev with
  | upgrade chargePointId protocolHeader =>
    cases h
    unfold DownstreamState.wsUpgradeHandler
    split <;> rfl
  | abandon n =>
    obtain ⟨task, -, h⟩ := Option.bind_eq_some_iff.mp h
    split at h
    · cases h
      rfl
    · cases h
  | advance n now =>
    obtain ⟨task, -, h⟩ := Option.bind_eq_some_iff.mp h
    have hregister : (d.registerConnection n task).shutdown = d.shutdown := by
      unfold DownstreamState.registerConnection
      dsimp only
      split <;> rfl
    have hderegister : (d.deregisterConnection task.chargePointId task.generation).2.shutdown =
        d.shutdown := by
      unfold DownstreamState.deregisterConnection
      split
      · split <;> rfl
      · rfl
    unfold DownstreamState.advance at h
    split at h
    · cases h
      rfl
    · cases h
      exact hregister
    · cases h
      rfl
    · cases h
      rfl
    · cases h
      rfl
    · cases h
      rfl
    · split at h
      · cases h
        rfl
      · cases h
    · cases h
      rfl
    · cases h
      exact hderegister
    · cases h
      rfl
    · cases h
      rfl
    · cases h
      rfl
    · cases h
  | session n ev =>
    obtain ⟨task, -, h⟩ := Option.bind_eq_some_iff.mp h
    obtain ⟨s, -, h⟩ := Option.bind_eq_some_iff.mp h
    unfold DownstreamState.sessionStep at h
    split at h
    · obtain ⟨t, -, rfl⟩ := Option.map_eq_some_iff.mp h
      rfl
    · cases h
  | dispatch | shutdown => cases hev

theorem Paced.step (h : x.Paced) (hstep : Process.step cx x ev = some y) : y.Paced := by
  -- neither `main` nor the token changes
  have hsame {y : Process} (hmain : y.main = x.main)
      (hshutdown : y.downstream.shutdown = x.downstream.shutdown) : y.Paced := by
    refine ⟨?_, ?_, ?_⟩
    · rw [hmain, hshutdown]
      exact h.unsignalled
    · rw [hmain, hshutdown]
      exact h.signalled
    · rw [hmain]
      exact h.slept
  cases (moved_of_step hstep).2 with
  | task hev hd => exact hsame rfl (shutdown_of_task hev hd)
  | accepted | refused | publisher | received | mqttUnavailable | mqttAbandoned | mqttStopped =>
    exact hsame rfl rfl
  | bound hmain =>
    refine ⟨fun hstarting => (by cases hstarting), .inr (.inl rfl), ?_⟩
    intro deadline wake sleeps hdraining
    cases hdraining
  | signalled hmain =>
    exact ⟨fun hstarting => absurd hstarting hmain, .inr (.inr rfl), h.slept⟩
  | @drainBegun now hmain hshutdown =>
    refine ⟨fun hstarting => (by cases hstarting), .inr (.inr hshutdown), ?_⟩
    intro deadline wake sleeps hdraining
    cases hdraining
    exact ⟨by rw [Nat.zero_mul]; exact (add_zero _).le, .inl rfl⟩
  | @slept now deadline wake sleeps hmain hwake hremain hlate =>
    have hsignalled := h.signalled
    rw [hmain] at hsignalled
    refine ⟨fun hstarting => (by cases hstarting), .inr (.inr ?_), ?_⟩
    · rcases hsignalled with hmain | hmain | hshutdown
      · cases hmain
      · cases hmain
      · exact hshutdown
    · intro deadline' wake' sleeps' hdraining
      cases hdraining
      obtain ⟨hslept, -⟩ := h.slept _ _ _ hmain
      refine ⟨?_, .inr (Int.add_lt_add_right hlate _)⟩
      calc deadline + ((sleeps + 1) * drainInterval : Nat)
          = deadline + (sleeps * drainInterval : Nat) + drainInterval := by
            rw [Nat.succ_mul, Nat.cast_add, Int.add_assoc]
        _ ≤ now + drainTimeout + drainInterval :=
            Int.add_le_add_right (hslept.trans (Int.add_le_add_right hwake _)) _
        _ = now + drainInterval + drainTimeout := Int.add_right_comm ..
  | @drained now deadline wake sleeps hmain =>
    have hsignalled := h.signalled
    rw [hmain] at hsignalled
    refine ⟨fun hstarting => (by cases hstarting), .inr (.inr ?_), fun _ _ _ h => by cases h⟩
    rcases hsignalled with hmain | hmain | hshutdown
    · cases hmain
    · cases hmain
    · exact hshutdown
  | joined hmain =>
    have hsignalled := h.signalled
    rw [hmain] at hsignalled
    refine ⟨fun hstarting => (by cases hstarting), .inr (.inr ?_), fun _ _ _ h => by cases h⟩
    rcases hsignalled with hmain | hmain | hshutdown
    · cases hmain
    · cases hmain
    · exact hshutdown

theorem paced_start : (start config file).Paced :=
  ⟨fun _ => rfl, .inl rfl, fun _ _ _ h => by cases h⟩

/-- A step of `main` uses up one of those it has left. -/
theorem rank_of_step (h : x.Paced) (hstep : Process.step cx x ev = some y) :
    y.main.rank + (if ev.isMain then 1 else 0) ≤ x.main.rank := by
  obtain ⟨-, hmoved⟩ := moved_of_step hstep
  cases hev : ev.isMain with
  | false => rw [main_of_moved hmoved hev]; exact le_rfl
  | true =>
    rw [if_pos rfl]
    cases hmoved with
    | bound hmain => rw [hmain]; exact le_rfl
    | drainBegun hmain => rw [hmain]; exact le_rfl
    | @slept now deadline wake sleeps hmain hwake hremain hlate =>
      obtain ⟨hslept, -⟩ := h.slept _ _ _ hmain
      have hsleeps := (sleeps_bound hslept).2 (hwake.trans_lt hlate)
      rw [hmain]
      show 102 - (sleeps + 1) + 1 ≤ 102 - sleeps
      omega
    | @drained now deadline wake sleeps hmain =>
      have hsleeps := h.sleeps_le hmain
      rw [hmain]
      show 1 + 1 ≤ 102 - sleeps
      omega
    | joined hmain => rw [hmain]; exact le_rfl
    | _ => cases hev

structure Recorded (x : Process) (events : List ProcessEvent) : Prop where
  begun : ∀ deadline wake sleeps, x.main = .draining deadline wake sleeps →
    ∃ began : Time, deadline = began + drainTimeout ∧ .beginDrain began ∈ events
  abandoned : ∀ remaining, x.main = .joining remaining → remaining ≠ 0 → ∃ began looked : Time,
    .beginDrain began ∈ events ∧ .look looked ∈ events ∧ began + drainTimeout ≤ looked

theorem Recorded.step (h : x.Recorded events) (hstep : Process.step cx x ev = some y) :
    y.Recorded (events ++ [ev]) := by
  have hsame (hmain : y.main = x.main) : y.Recorded (events ++ [ev]) := by
    refine ⟨fun deadline wake sleeps hdraining => ?_, fun remaining hjoining hne => ?_⟩
    · obtain ⟨began, hdeadline, hbegan⟩ := h.begun _ _ _ (hmain ▸ hdraining)
      exact ⟨began, hdeadline, List.mem_append_left _ hbegan⟩
    · obtain ⟨began, looked, hbegan, hlooked, hle⟩ := h.abandoned _ (hmain ▸ hjoining) hne
      exact ⟨began, looked, List.mem_append_left _ hbegan, List.mem_append_left _ hlooked, hle⟩
  obtain ⟨-, hmoved⟩ := moved_of_step hstep
  cases hev : ev.isMain with
  | false => exact hsame (main_of_moved hmoved hev)
  | true =>
    cases hmoved with
    | bound hmain => exact ⟨fun _ _ _ h => (by cases h), fun _ h => by cases h⟩
    | @drainBegun now hmain =>
      refine ⟨fun deadline wake sleeps hdraining => ?_, fun _ h => by cases h⟩
      cases hdraining
      exact ⟨now, rfl, List.mem_append_right _ (List.mem_singleton.mpr rfl)⟩
    | @slept now deadline wake sleeps hmain =>
      refine ⟨fun deadline' wake' sleeps' hdraining => ?_, fun _ h => by cases h⟩
      cases hdraining
      obtain ⟨began, hdeadline, hbegan⟩ := h.begun _ _ _ hmain
      exact ⟨began, hdeadline, List.mem_append_left _ hbegan⟩
    | @drained now deadline wake sleeps hmain hwake hend =>
      refine ⟨fun _ _ _ h => (by cases h), fun remaining hjoining hne => ?_⟩
      cases hjoining
      obtain ⟨began, rfl, hbegan⟩ := h.begun _ _ _ hmain
      refine ⟨began, now, List.mem_append_left _ hbegan,
        List.mem_append_right _ (List.mem_singleton.mpr rfl), ?_⟩
      exact hend.resolve_left fun hnil => hne (List.length_eq_zero_iff.mpr hnil)
    | joined hmain => exact ⟨fun _ _ _ h => (by cases h), fun _ h => by cases h⟩
    | _ => cases hev

def stepsLeft (x : Process) : Nat :=
  x.main.rank + if x.publisher.stage = .stopped then 0 else 1

/-- Where `main` has not ended after the signal, it or the MQTT thread can go on. -/
theorem exists_main_step (h : x.Paced) (hshutdown : x.downstream.shutdown = true)
    (hmain : x.main ≠ .stopped) : ∃ ev y, (ev.isMain = true ∨ ev = .stopMqtt) ∧
      Process.step cx x ev = some y ∧ y.downstream.shutdown = true ∧ y.stepsLeft < x.stepsLeft := by
  -- a step of `main` that leaves the MQTT thread alone
  have hmoves {ev : ProcessEvent} {y : Process} (hstep : Process.step cx x ev = some y)
      (hev : ev.isMain = true) (hstage : y.publisher.stage = x.publisher.stage)
      (htoken : y.downstream.shutdown = x.downstream.shutdown) :
      ∃ ev y, (ev.isMain = true ∨ ev = .stopMqtt) ∧ Process.step cx x ev = some y ∧
        y.downstream.shutdown = true ∧ y.stepsLeft < x.stepsLeft := by
    refine ⟨ev, y, .inl hev, hstep, htoken.trans hshutdown, ?_⟩
    have hrank := rank_of_step h hstep
    rw [if_pos hev] at hrank
    rw [stepsLeft, stepsLeft, hstage]
    omega
  cases hstage : x.main with
  | starting => rw [h.unsignalled hstage] at hshutdown; cases hshutdown
  | serving =>
    refine @hmoves (.beginDrain 0) ({ x with main := .draining (0 + drainTimeout) 0 0 }.setManager
      (·.setListenerBound false)) ?_ rfl rfl rfl
    unfold Process.step
    rw [if_neg hmain]
    exact if_pos ⟨hstage, hshutdown⟩
  | draining deadline wake sleeps =>
    by_cases hend : x.downstream.connections.entries.length = 0 ∨ deadline ≤ wake
    · refine @hmoves (.look wake) { x with
        main := .joining x.downstream.connections.entries.length } ?_ rfl rfl rfl
      unfold Process.step
      rw [if_neg hmain]
      simp only [look, hstage, lt_irrefl, if_false, hend, if_true]
    · refine @hmoves (.look wake) { x with
        main := .draining deadline (wake + drainInterval) (sleeps + 1) } ?_ rfl rfl rfl
      unfold Process.step
      rw [if_neg hmain]
      simp only [look, hstage, lt_irrefl, if_false, hend]
  | joining remaining =>
    by_cases hthread : x.publisher.stage = .stopped
    · refine @hmoves .join { x with main := .stopped } ?_ rfl rfl rfl
      unfold Process.step
      rw [if_neg hmain]
      simp only [hstage, hthread, if_true]
    · have hstopped : ∃ y, Process.step cx x .stopMqtt = some y ∧ y.main = x.main ∧
          y.downstream.shutdown = true ∧ y.publisher.stage = .stopped := by
        unfold Process.step
        rw [if_neg hmain]
        simp only [hshutdown, if_true]
        cases hpublisher : x.publisher.stage with
        | built | starting => exact ⟨_, rfl, rfl, hshutdown, rfl⟩
        | running => exact ⟨_, rfl, rfl, hshutdown, rfl⟩
        | stopped => exact absurd hpublisher hthread
      obtain ⟨y, hstep, hsame, htoken, hended⟩ := hstopped
      refine ⟨.stopMqtt, y, .inr rfl, hstep, htoken, ?_⟩
      rw [stepsLeft, stepsLeft, hsame, hended, if_pos rfl, if_neg hthread]
      exact Nat.lt_succ_self _
  | stopped => exact absurd hstage hmain

/-- In every run `main` takes at most 104 steps; it leaves a connection behind only ten seconds or more
after it began to drain; and from the signal on it can end whatever the connection tasks do, with steps
of its own and the end of the MQTT thread. -/
theorem shutdown_of_run (hrun : (step cx).run (start config file) events = some x) :
    (events.filter ProcessEvent.isMain).length + x.main.rank ≤ 104 ∧
      (∀ remaining, x.main = .joining remaining → remaining ≠ 0 → ∃ began looked : Time,
        .beginDrain began ∈ events ∧ .look looked ∈ events ∧ began + drainTimeout ≤ looked) ∧
      (x.downstream.shutdown = true → ∃ rest y, (step cx).run x rest = some y ∧
        y.main = .stopped ∧ ∀ ev ∈ rest, ev.isMain = true ∨ ev = .stopMqtt) := by
  have hpaced : x.Paced :=
    (step cx).invariant (P := Paced) (fun _ _ _ hs h => h.step hs) hrun paced_start
  refine ⟨?_, ?_, fun hshutdown => ?_⟩
  · exact (step cx).length_filter_le_rank (P := Paced) ProcessEvent.isMain (fun x => x.main.rank)
      (fun _ _ _ hs h => h.step hs) (fun _ _ _ h hs => rank_of_step h hs) hrun paced_start
  · -- the times of the drain are recovered from the events of the run
    have hrecorded := (step cx).outputs_invariant (f := fun _ ev => [ev]) (T := Recorded)
      (fun _ _ _ _ hs h => h.step hs) hrun (l := [])
      ⟨fun _ _ _ h => (by cases h), fun _ h => by cases h⟩
    rw [List.nil_append, (step cx).outputs_of_run (fun ev => [ev]) hrun,
      List.flatMap_singleton'] at hrecorded
    exact hrecorded.abandoned
  · obtain ⟨rest, y, hrest, -, hstopped, hevents⟩ := (step cx).exists_run_of_rank
      (P := fun x => x.Paced ∧ x.downstream.shutdown = true) (Q := fun x => x.main = .stopped)
      (C := fun ev => ev.isMain = true ∨ ev = .stopMqtt)
      stepsLeft
      (fun x hx => by
        by_cases hmain : x.main = .stopped
        · exact .inl hmain
        · obtain ⟨ev, y, hev, hstep, hshutdown, hrank⟩ := @exists_main_step cx x hx.1 hx.2 hmain
          exact .inr ⟨ev, y, hev, hstep, ⟨hx.1.step hstep, hshutdown⟩, hrank⟩)
      ⟨hpaced, hshutdown⟩
    exact ⟨rest, y, hrest, hstopped, hevents⟩

end

/-- A connection that does not unwind: the loop looks, sleeps and gives up. -/
def hungEvents : List ProcessEvent :=
  [.bind, .task (.upgrade "CP01" (some "ocpp1.6")), .task (.advance 0 0), .task (.advance 0 0),
    .signal, .beginDrain 0, .look 0, .look drainTimeout]

theorem hungEvents_main : ((step commandedContext).run (start commandedConfig ∅) hungEvents).map
    (fun x => decide (x.main = .joining 1 ∧ x.downstream.shutdown = true)) = some true := by
  decide +kernel

theorem shutdown_of_run_hung : ∃ x,
    (step commandedContext).run (start commandedConfig ∅) hungEvents = some x ∧
      (hungEvents.filter ProcessEvent.isMain).length + x.main.rank ≤ 104 ∧
      (∃ began looked : Time, .beginDrain began ∈ hungEvents ∧ .look looked ∈ hungEvents ∧
        began + drainTimeout ≤ looked) ∧
      ∃ rest y, (step commandedContext).run x rest = some y ∧ y.main = .stopped ∧
        ∀ ev ∈ rest, ev.isMain = true ∨ ev = .stopMqtt := by
  obtain ⟨x, hrun, hx⟩ := Option.map_eq_some_iff.mp hungEvents_main
  obtain ⟨hmain, hshutdown⟩ := of_decide_eq_true hx
  obtain ⟨hsteps, hleft, hends⟩ := shutdown_of_run hrun
  exact ⟨x, hrun, hsteps, hleft 1 hmain Nat.one_ne_zero, hends hshutdown⟩

end Process

end OcppProxy

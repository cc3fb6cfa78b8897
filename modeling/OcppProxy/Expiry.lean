import OcppProxy.CallSteps
import OcppProxy.SessionCommands

/-!
# The age of a Call

A request may be sent while it is younger than the command timeout. The tick gives up what is older
before it sends; the other arms send what they find.
-/

namespace OcppProxy

def CommandRequest.IsFresh (cx : SessionContext) (now : Time) (request : CommandRequest) : Prop :=
  now - request.issuedAt < cx.config.charging.commandTimeout

section
variable {cx : SessionContext} {v w : LocalView}

theorem LocalStep.timeout (h : LocalStep cx v w) : w.calls.timeout = v.calls.timeout := by
  cases h <;> rfl

theorem LocalSteps.timeout (h : LocalSteps cx v w) : w.calls.timeout = v.calls.timeout := by
  induction h with
  | refl => rfl
  | tail _ hstep ih => exact hstep.timeout.trans ih

/-- With nothing to read, nothing comes into the queue. -/
theorem LocalStep.queued_subset (h : LocalStep cx v w) (hinbox : v.inbox = []) :
    w.inbox = [] ∧ w.calls.queued ⊆ v.calls.queued := by
  cases h with
  | receive => cases hinbox
  | late => cases hinbox
  | drop hq => exact ⟨hinbox, by simp [hq]⟩
  | renumber => exact ⟨hinbox, List.Subset.refl _⟩
  | send _ hq => exact ⟨hinbox, by simp [hq, LocalCallQueue.setInFlight]⟩
  | settle => exact ⟨hinbox, List.Subset.refl _⟩

theorem LocalSteps.queued_subset (h : LocalSteps cx v w) (hinbox : v.inbox = []) :
    w.inbox = [] ∧ w.calls.queued ⊆ v.calls.queued := by
  induction h with
  | refl => exact ⟨hinbox, List.Subset.refl _⟩
  | tail _ hstep ih =>
    obtain ⟨hempty, hsub⟩ := hstep.queued_subset ih.1
    exact ⟨hempty, List.Subset.trans hsub ih.2⟩

end

namespace Session

/-- Where an arm other than the tick may send, what it would send is fresh: no Call in flight, no
young Call of the Central System, and the charger there. -/
def NoneOverdue (cx : SessionContext) (s : Session) (ev : Event) : Prop :=
  ev.input ≠ .commandTick → ∀ calls line, s.comesToSend cx ev = some (calls, line) →
    calls.inFlight = none →
      line.hasRecentPendingCall ev.env.now .centralToCharger centralCallGrace = false →
        ev.env.chargerUp = true →
          ∀ r ∈ calls.queued.find? (CommandRequest.isSendable cx ev.env.now), r.IsFresh cx ev.env.now

def SendsFresh (cx : SessionContext) (s : Session) : Prop :=
  ∀ sent ∈ s.sentRequests, sent.2.IsFresh cx sent.1

section
variable {cx : SessionContext} {env : Env} {s t : Session} {ev : Event} {events : List Event}

/-- The queue counts a request stale when it is no longer fresh. -/
theorem isStale_eq_false (h : s.localCalls.timeout = cx.config.charging.commandTimeout)
    {now : Time} {r : CommandRequest} :
    s.localCalls.isStale now r = false ↔ r.IsFresh cx now := by
  simp [LocalCallQueue.isStale, CommandRequest.IsFresh, h]

theorem timeout_of_run {now : Time} {manager : ConnectionStateManager}
    (h : (step cx).run (start cx now manager) events = some t) :
    t.localCalls.timeout = cx.config.charging.commandTimeout := by
  have hsteps := localSteps_of_run h []
  have htimeout := LocalSteps.timeout hsteps
  rw [start_localView] at htimeout
  exact htimeout

theorem comesToSend_tick {calls : LocalCallQueue} {line : MessageForwarder}
    (htick : ev.input = .commandTick) (hready : s.comesToSend cx ev = some (calls, line)) :
    calls = (s.localCalls.expire ev.env.now).2.2 := by
  unfold comesToSend at hready
  rw [htick] at hready
  split at hready
  · rename_i hinput
    cases hinput
  · cases hready
    rfl
  · rename_i hinput
    cases hinput
  · cases hready

/-- What a tick leaves in the queue is fresh. -/
theorem fresh_of_mem_expire (htimeout : s.localCalls.timeout = cx.config.charging.commandTimeout)
    {now : Time} {r : CommandRequest} (h : r ∈ (s.localCalls.expire now).2.2.queued) :
    r.IsFresh cx now := by
  obtain ⟨slot, hcalls, -⟩ := s.localCalls.expire_spec now
  rw [hcalls] at h
  obtain ⟨-, hfresh⟩ := List.mem_filter.mp h
  exact (isStale_eq_false htimeout).mp (by simpa using hfresh)

/-- What the arms send is what `NoneOverdue` asks about, and a tick sends only what is fresh. -/
theorem sends_fresh_iff (htimeout : s.localCalls.timeout = cx.config.charging.commandTimeout) :
    (∀ calls line, s.comesToSend cx ev = some (calls, line) →
      ∀ r ∈ toSend cx ev.env calls line, r.IsFresh cx ev.env.now) ↔ s.NoneOverdue cx ev := by
  constructor
  · intro h _ calls line hready hidle hclear hup r hr
    refine h calls line hready r ?_
    simpa [toSend, hidle, hclear, hup] using hr
  · intro h calls line hready r hr
    unfold toSend at hr
    split at hr
    · rename_i hfree
      simp only [Bool.and_eq_true, Bool.not_eq_true', Option.isNone_iff_eq_none] at hfree
      by_cases htick : ev.input = .commandTick
      · -- the tick has given up the stale requests before it sends
        have hmem := List.mem_of_find?_eq_some hr
        rw [comesToSend_tick htick hready] at hmem
        exact fresh_of_mem_expire htimeout hmem
      · exact h htick calls line hready hfree.1.1 hfree.1.2 hfree.2 r hr
    · cases hr

theorem sendsFresh_step (htimeout : s.localCalls.timeout = cx.config.charging.commandTimeout)
    (h : step cx s ev = some t) : t.SendsFresh cx ↔ s.SendsFresh cx ∧ s.NoneOverdue cx ev := by
  unfold SendsFresh
  rw [sentRequests_of_step h, ← sends_fresh_iff htimeout, List.forall_mem_append]
  refine and_congr_right fun _ => ?_
  cases hready : s.comesToSend cx ev with
  | none => simp
  | some ready =>
    obtain ⟨calls, line⟩ := ready
    simp only [Option.bind_some, Option.mem_toList, Option.map_eq_some_iff, forall_exists_index,
      and_imp, forall_apply_eq_imp_iff₂, Option.some.injEq, Prod.mk.injEq]
    constructor
    · rintro hall calls' line' rfl rfl r hr
      exact hall r hr
    · intro hall r hr
      exact hall calls line rfl rfl r hr

theorem sendsFresh_iff {now : Time} {manager : ConnectionStateManager}
    (h : (step cx).run (start cx now manager) events = some t) :
    t.SendsFresh cx ↔ (step cx).Meets (fun s ev => s.NoneOverdue cx ev) (start cx now manager)
      events := by
  have htimeout : (step cx).Meets (fun s _ => s.localCalls.timeout =
      cx.config.charging.commandTimeout) (start cx now manager) events := by
    refine (step cx).meets_of_invariant (P := fun s => s.localCalls.timeout =
      cx.config.charging.commandTimeout) ?_ ((step cx).meets_true _ _) ?_
    · intro s ev s' _ hs htimeout
      have hsame : s'.localCalls.timeout = s.localCalls.timeout :=
        LocalSteps.timeout (localSteps_of_step hs [])
      exact hsame.trans htimeout
    · exact @timeout_of_run cx (start cx now manager) [] now manager rfl
  have hkept := (step cx).kept_iff (P := SendsFresh cx)
    (fun s ev s' hD hs => sendsFresh_step hD hs) h htimeout
  have hstart : (start cx now manager).SendsFresh cx := by
    obtain ⟨reported, hlog⟩ := start_log cx now manager
    have hnone : (start cx now manager).sentRequests = [] := by
      rw [sentRequests, hlog]
      exact List.filterMap_eq_nil_iff.mpr (List.forall_mem_map.mpr fun _ _ => rfl)
    rw [SendsFresh, hnone]
    simp
  rw [hkept]
  exact and_iff_right hstart

/-! ## The tick -/

theorem handle_tick : s.handle cx env .commandTick = some t ↔
    s.phase = .forwarding ∧ s.localCalls.isEmpty = false ∧
      t = finishArm cx env.now (s.commandTickArm cx env) := by
  unfold handle
  cases hphase : s.phase with
  | forwarding =>
    cases hempty : s.localCalls.isEmpty with
    | true => simp
    | false => simp [eq_comm]
  | _ => simp

/-- While a request waits in the forwarding loop the tick is due. -/
theorem step_tick (hphase : s.phase = .forwarding) (hwaiting : s.localCalls.queued ≠ [])
    (hclock : s.clock ≤ env.now) : ∃ t, step cx s ⟨env, .commandTick⟩ = some t := by
  have hbusy : s.localCalls.isEmpty = false := by
    simp [LocalCallQueue.isEmpty, hwaiting]
  have hhandle := (@handle_tick cx env { s with clock := env.now } _).mpr ⟨hphase, hbusy, rfl⟩
  exact ⟨_, step_eq_some.mpr ⟨hclock, hhandle⟩⟩

theorem refused_of_mem_expire (cx : SessionContext) (s : Session) {now : Time} {r : CommandRequest}
    (h : r ∈ (s.localCalls.expire now).1) :
    ∃ result, .refused r result ∈ s.expiryEntries cx now ∧ result.status = .timeout := by
  unfold expiryEntries
  refine ⟨_, List.mem_append_left _ (List.mem_map_of_mem h), ?_⟩
  rfl

/-- A tick reports every stale request as timed out and leaves only fresh ones. -/
theorem tick_reports (htimeout : s.localCalls.timeout = cx.config.charging.commandTimeout)
    (h : step cx s ⟨env, .commandTick⟩ = some t) :
    (∀ r ∈ s.localCalls.queued, ¬ r.IsFresh cx env.now →
      ∃ result, (env.now, .refused r result) ∈ t.log ∧ result.status = .timeout) ∧
    ∀ r ∈ t.localCalls.queued, r.IsFresh cx env.now := by
  obtain ⟨hphase, -, rfl⟩ := handle_tick.mp (step_eq_some.mp h).2
  rw [commandTickArm_eq]
  let u : Session := ({ s with
    clock := env.now
    localCalls := (s.localCalls.expire env.now).2.2 } : Session).noteAll env.now
      (s.expiryEntries cx env.now)
  have hquiet : Quiet cx env.now [] [] u (finishArm cx env.now (u.sendThen cx env)) :=
    (quiet_sendThen u hphase).trans (quiet_finishArm _)
  constructor
  · intro r hr hold
    obtain ⟨es, hlog, -⟩ := hquiet.entries
    have hstale : s.localCalls.isStale env.now r = true := by
      rw [← Bool.not_eq_false, isStale_eq_false htimeout]
      exact hold
    obtain ⟨-, -, hexpired, -⟩ := s.localCalls.expire_spec env.now
    have hmem : r ∈ (s.localCalls.expire env.now).1 := by
      rw [hexpired]
      exact List.mem_filter.mpr ⟨hr, hstale⟩
    obtain ⟨result, hentry, hstatus⟩ := s.refused_of_mem_expire cx hmem
    have hnoted : (env.now, Entry.refused r result) ∈ u.log :=
      List.mem_append_right _ (List.mem_map_of_mem hentry)
    exact ⟨result, hlog ▸ List.mem_append_left _ hnoted, hstatus⟩
  · intro r hr
    have hsub := (LocalSteps.queued_subset hquiet.calls rfl).2 hr
    exact fresh_of_mem_expire htimeout hsub

end

/-- A limit that waits for a Call in flight until the tick gives it up. -/
def givenUp : List Event :=
  let request (id : String) (command : ProxyCommand) : CommandRequest := .new 0 id command .mqtt
  [.at 1 .connected, .at 1 (.command (some (request "a" (.getConfiguration [])))),
    .at 2 (.command (some (request "b" (.setCurrentLimit 16)))), .at 30 .commandTick]

/-- A limit dispatched while the Central System is away, and read when it is back. -/
def readAfterOutage : List Event :=
  let request : CommandRequest := .new (Duration.fromSecs 5) "a" (.setCurrentLimit 16) .mqtt
  [.at 1 .connected, .at 2 (.central .close), .at 10 .timer, .at 40 .connected,
    .at 40 (.command (some request))]

end Session

end OcppProxy

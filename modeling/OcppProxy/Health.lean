import OcppProxy.CommandProvenance
import OcppProxy.Library.Totals
import OcppProxy.MessageCounts
import OcppProxy.SessionStatus

/-!
# The health endpoint

`health.rs` over the manager that all tasks share: what `/health` says in any reachable state of the
process, and what its counters count.
-/

namespace OcppProxy

structure MessageCounters where
  chargerToCentralForwarded : Nat
  chargerToCentralDropped : Nat
  centralToChargerForwarded : Nat
  centralToChargerDropped : Nat
  deriving DecidableEq, Repr

structure HealthResponse where
  status : HealthStatus
  upstream : ConnectionState
  downstream : ConnectionState
  mqtt : ConnectionState
  /-- Whether the charger-facing listener is bound and accepting connections. -/
  listening : Bool
  uptimeSeconds : Nat
  messages : MessageCounters
  deriving DecidableEq, Repr

inductive StatusCode where
  | ok
  | serviceUnavailable
  deriving DecidableEq, Repr

def healthStatusStr : HealthStatus → String
  | .healthy => "healthy"
  | .idle => "idle"
  | .degraded => "degraded"
  | .unhealthy => "unhealthy"

def HealthResponse.toJson (r : HealthResponse) : Json :=
  .object [("status", .string (healthStatusStr r.status)),
    ("upstream", .string (connectionStateStr r.upstream)),
    ("downstream", .string (connectionStateStr r.downstream)),
    ("mqtt", .string (connectionStateStr r.mqtt)), ("listening", .bool r.listening),
    ("uptime_seconds", .ofNat r.uptimeSeconds),
    ("messages", .object
      [("charger_to_central_forwarded", .ofNat r.messages.chargerToCentralForwarded),
        ("charger_to_central_dropped", .ofNat r.messages.chargerToCentralDropped),
        ("central_to_charger_forwarded", .ofNat r.messages.centralToChargerForwarded),
        ("central_to_charger_dropped", .ofNat r.messages.centralToChargerDropped)])]

def healthHandler (manager : ConnectionStateManager) (uptimeSeconds : Nat) :
    StatusCode × HealthResponse :=
  let status := manager.healthStatus
  let metrics := manager.metrics
  let response : HealthResponse :=
    { status
      upstream := manager.upstreamState
      downstream := manager.downstreamState
      mqtt := manager.mqttState
      listening := manager.listenerBound
      uptimeSeconds
      messages :=
        { chargerToCentralForwarded := metrics.chargerToCentralForwarded
          chargerToCentralDropped := metrics.chargerToCentralDropped
          centralToChargerForwarded := metrics.centralToChargerForwarded
          centralToChargerDropped := metrics.centralToChargerDropped } }
  -- no charger connected is the resting state, not a fault
  let httpStatus := match status with
    | .healthy | .idle | .degraded => .ok
    | .unhealthy => .serviceUnavailable
  (httpStatus, response)

theorem healthStatus_eq_unhealthy {m : ConnectionStateManager} : m.healthStatus = .unhealthy ↔
    m.listenerBound = false ∨ m.downstreamState = .connected ∧ m.upstreamState = .disconnected := by
  obtain ⟨upstream, downstream, mqtt, bound, metrics⟩ := m
  cases bound <;> cases downstream <;> cases upstream <;> cases mqtt <;>
    simp [ConnectionStateManager.healthStatus]

theorem healthStatus_eq_healthy {m : ConnectionStateManager} : m.healthStatus = .healthy ↔
    m.listenerBound = true ∧ m.downstreamState = .connected ∧ m.upstreamState = .connected ∧
      m.mqttState = .connected := by
  obtain ⟨upstream, downstream, mqtt, bound, metrics⟩ := m
  cases bound <;> cases downstream <;> cases upstream <;> cases mqtt <;>
    simp [ConnectionStateManager.healthStatus]

theorem healthHandler_unavailable {m : ConnectionStateManager} {uptime : Nat} :
    (healthHandler m uptime).1 = .serviceUnavailable ↔ m.healthStatus = .unhealthy := by
  unfold healthHandler
  cases m.healthStatus <;> simp

namespace MqttPublisher

/-- How far a step brings a publisher that is not stopped by its own channel. -/
theorem stages_of_stepped {crates : Crates} {now : Time} {p q : MqttPublisher}
    {input : PublisherInput} (h : Stepped crates now p input q) (hopen : input ≠ .event none)
    (hworld : ∀ router inboxes manager, input ≠ .world router inboxes manager)
    (henqueue : ∀ message, input ≠ .enqueue message) :
    p.stage = .built ∧ q.stage = .starting ∧ q.state = .connecting ∨
      p.stage = .starting ∧ q.stage = .starting ∧ q.state = p.state ∨
      (p.stage = .starting ∨ p.stage = .running) ∧ q.stage = .running := by
  cases h with
  | world router inboxes manager => exact absurd rfl (hworld router inboxes manager)
  | enqueue message => exact absurd rfl (henqueue message)
  | startup hstage => exact .inl ⟨hstage, rfl, rfl⟩
  | startupTimeout hstage => exact .inr (.inr ⟨.inl hstage, rfl⟩)
  | started taken hstage => exact .inr (.inr ⟨.inl hstage, rfl⟩)
  | waited taken event backoff hstage => exact .inr (.inl ⟨hstage, hstage, rfl⟩)
  | polled taken event hstage =>
    exact .inr (.inr ⟨.inr hstage, (onPolled_stage now event _).trans hstage⟩)
  | handled event hstage =>
    have hnames : NamesIn (fun _ => True) event := by cases event <;> simp [NamesIn]
    exact .inr (.inr ⟨.inr hstage,
      (works_handleEvent crates now nameClass_true hnames).fields.1.trans hstage⟩)
  | stopped => exact absurd rfl hopen

end MqttPublisher

namespace Session

variable {cx : SessionContext} {s t : Session} {now : Time} {p : ConnectionState → Prop}

theorem setUpstreamState_upstreamState (newState : ConnectionState) :
    (s.setUpstreamState cx now newState).manager.upstreamState = newState := by
  unfold setUpstreamState
  split
  · assumption
  · rfl

/-- What a new session does to the manager. -/
theorem start_manager (cx : SessionContext) (now : Time) (manager : ConnectionStateManager) :
    manager.SameOutside (start cx now manager).manager ∧
      (start cx now manager).manager.metrics = manager.metrics ∧
      (start cx now manager).manager.upstreamState = .connecting := by
  obtain ⟨hsame, hmetrics⟩ := @setUpstreamState_manager cx _ now .connecting
  exact ⟨hsame, hmetrics, setUpstreamState_upstreamState .connecting⟩

/-- A session that sets a state at all sets one that `p` holds of. -/
theorem StatusMoves.upstreamState (h : StatusMoves cx p s t) :
    t.manager.upstreamState = s.manager.upstreamState ∨ p t.manager.upstreamState := by
  induction h with
  | refl => exact .inl rfl
  | tail _ hmove ih =>
    cases hmove with
    | plain hplain =>
      rw [hplain.upstream]
      exact ih
    | set hp =>
      rw [setUpstreamState_upstreamState]
      exact .inr hp

/-- A session that goes on leaves the upstream state alone or sets it to one of a live session. -/
theorem upstreamState_of_step {ev : Event} (h : step cx s ev = some t)
    (hmanager : ∀ manager, ev.input ≠ .manager manager) :
    t.phase = .ended ∨ t.manager.upstreamState ≠ .disconnected ∨
      t.manager.upstreamState = s.manager.upstreamState := by
  rcases moves_of_handle (step_eq_some.mp h).2 hmanager with ⟨hmoves, -⟩ | rfl
  · exact .inr ((hmoves.upstreamState).symm.imp_right id)
  · exact .inl rfl

/-- A session that has ended takes no more steps of its own. -/
theorem not_ended_of_step {ev : Event} (h : step cx s ev = some t)
    (hmanager : ∀ manager, ev.input ≠ .manager manager) : s.phase ≠ .ended := by
  intro hended
  have hhandle := (step_eq_some.mp h).2
  have hnone : handle cx ev.env ev.input { s with clock := ev.env.now } = none := by
    unfold handle
    split <;> simp_all
  rw [hnone] at hhandle
  cases hhandle

end Session

/-! ## What a task does to the manager -/

/-- Only the downstream state differs. -/
structure ConnectionStateManager.SameBeside (m m' : ConnectionStateManager) : Prop where
  upstreamState : m'.upstreamState = m.upstreamState
  mqttState : m'.mqttState = m.mqttState
  listenerBound : m'.listenerBound = m.listenerBound
  metrics : m'.metrics = m.metrics

theorem ConnectionStateManager.SameBeside.refl (m : ConnectionStateManager) : m.SameBeside m :=
  ⟨rfl, rfl, rfl, rfl⟩

namespace DownstreamState

inductive ManagerMove (cx : ProxyContext) (ev : ProxyEvent) (d d' : DownstreamState) : Prop
  | idle (hev : ∀ n e, ev ≠ .session n e) (hmanager : d.stateManager.SameBeside d'.stateManager)
      (hsessions : d'.sessionOf = d.sessionOf)
  | started {n : Nat} {id : String} {now : Time} (hev : ∀ n e, ev ≠ .session n e)
      (hnone : d.sessionOf n = none)
      (hsessions : d'.sessionOf = Function.update d.sessionOf n
        (some (id, .start (cx.session id) now d.stateManager)))
      (hmanager : d'.stateManager = (Session.start (cx.session id) now d.stateManager).manager)
  | stepped {n : Nat} {id : String} {s t : Session} {e : Event} (hev : ev = .session n e)
      (hsession : d.sessionOf n = some (id, s)) (hown : ∀ manager, e.input ≠ .manager manager)
      (hstep : Session.step (cx.session id) { s with manager := d.stateManager } e = some t)
      (hsessions : d'.sessionOf = Function.update d.sessionOf n (some (id, t)))
      (hmanager : d'.stateManager = t.manager)

section
variable {cx : ProxyContext} {d d' : DownstreamState} {ev : ProxyEvent} {n : Nat}
  {task : ConnectionTask}

theorem sameBeside_registerConnection (n : Nat) (task : ConnectionTask) :
    d.stateManager.SameBeside (d.registerConnection n task).stateManager := by
  unfold registerConnection
  dsimp only
  split <;> exact .refl _

theorem sameBeside_deregisterConnection (id : String) (generation : Nat) :
    d.stateManager.SameBeside (d.deregisterConnection id generation).2.stateManager := by
  unfold deregisterConnection
  split
  · split <;> exact .refl _
  · exact .refl _

theorem managerMove_of_advance {now : Time} (htask : d.tasks n = some task)
    (hearly : task.stage.isEarly = true → task.session = none)
    (h : d.advance cx now n task = some d') : ManagerMove cx (.advance n now) d d' := by
  have hsame {d₁ : DownstreamState} {stage : ConnectionStage}
      (hmanager : d.stateManager.SameBeside d₁.stateManager)
      (hsessions : d₁.sessionOf = d.sessionOf) :
      ManagerMove cx (.advance n now) d (d₁.setStage n stage) :=
    .idle (fun _ _ h => by cases h) hmanager ((sessionOf_setStage n stage).trans hsessions)
  unfold advance at h
  split at h
  · cases h
    exact .idle (fun _ _ h => by cases h) (.refl _) (sessionOf_modifyTask n fun _ => ⟨rfl, rfl⟩)
  · cases h
    exact hsame (sameBeside_registerConnection n task) (sessionOf_registerConnection n)
  · cases h
    exact hsame (.refl _) rfl
  · cases h
    exact hsame ⟨rfl, rfl, rfl, rfl⟩ rfl
  · cases h
    exact hsame (.refl _) rfl
  · rename_i hannounced
    cases h
    have hnone : d.sessionOf n = none := by
      simp [sessionOf, htask, hearly (by rw [hannounced]; rfl)]
    exact .started (fun _ _ h => by cases h) hnone
      ((sessionOf_setStage n _).trans (sessionOf_putSession htask 0)) rfl
  · split at h
    · cases h
      exact hsame (.refl _) rfl
    · cases h
  · cases h
    exact hsame (.refl _) rfl
  · cases h
    exact hsame (sameBeside_deregisterConnection task.chargePointId task.generation)
      (deregisterConnection_sessions task.chargePointId task.generation).1
  · cases h
    exact hsame ⟨rfl, rfl, rfl, rfl⟩ rfl
  · cases h
    exact hsame (.refl _) rfl
  · cases h
    exact hsame (.refl _) rfl
  · cases h

theorem managerMove_of_step (hd : d.Routed) (h : step cx d ev = some d') :
    ManagerMove cx ev d d' := by
  cases ev with
  | upgrade chargePointId protocolHeader =>
    cases h
    unfold wsUpgradeHandler
    split
    · refine .idle (fun _ _ h => by cases h) ⟨rfl, rfl, rfl, rfl⟩ ?_
      funext k
      by_cases hk : k = d.opened
      · subst hk
        simp [sessionOf, hd.fresh d.opened le_rfl]
      · simp [sessionOf, hk]
    · exact .idle (fun _ _ h => by cases h) (.refl _) rfl
  | abandon m =>
    obtain ⟨task, -, h⟩ := Option.bind_eq_some_iff.mp h
    split at h
    · cases h
      exact .idle (fun _ _ h => by cases h) (.refl _) (sessionOf_setStage m _)
    · cases h
  | advance m now =>
    obtain ⟨task, htask, h⟩ := Option.bind_eq_some_iff.mp h
    refine managerMove_of_advance htask (fun hearly => ?_) h
    exact (hd.accounted m).early task.stage task.session (by simp [view, htask]) hearly
  | session m e =>
    obtain ⟨task, htask, h⟩ := Option.bind_eq_some_iff.mp h
    obtain ⟨s, hs, h⟩ := Option.bind_eq_some_iff.mp h
    unfold sessionStep at h
    split at h
    · rename_i hadmits
      obtain ⟨t, ht, rfl⟩ := Option.map_eq_some_iff.mp h
      refine .stepped rfl (by simp [sessionOf, htask, hs]) (fun manager hm => ?_) ht
        (sessionOf_putSession htask s.log.length) rfl
      rw [hm] at hadmits
      cases hadmits
    · cases h
  | dispatch chargePointId request =>
    simp only [step] at h
    split at h <;> (cases h; exact .idle (fun _ _ h => by cases h) (.refl _) rfl)
  | shutdown =>
    cases h
    exact .idle (fun _ _ h => by cases h) (.refl _) rfl

end

/-! ### Totals over the sessions -/

def total {M : Type} [AddCommMonoid M] (weight : String → Session → M) (d : DownstreamState) : M :=
  tableTotal (fun s => weight s.1 s.2) d.sessionOf d.opened

section
variable {M : Type} [AddCommMonoid M] {d d' : DownstreamState} {weight : String → Session → M}

theorem Routed.sessionOf_none (h : d.Routed) (n : Nat) (hn : d.opened ≤ n) :
    d.sessionOf n = none := by
  simp [sessionOf, h.fresh n hn]

theorem Routed.total_eq (h : d.Routed) {size : Nat} (hsize : d.opened ≤ size) :
    d.total weight = tableTotal (fun s => weight s.1 s.2) d.sessionOf size :=
  (tableTotal_grow h.sessionOf_none hsize).symm

theorem total_of_same (h : d.Routed) (h' : d'.Routed) (hsessions : d'.sessionOf = d.sessionOf) :
    d'.total weight = d.total weight := by
  rw [h.total_eq (Nat.le_max_left d.opened d'.opened),
    h'.total_eq (Nat.le_max_right d.opened d'.opened), hsessions]

variable (weight) in
/-- The session of one task changes. -/
theorem total_of_update (h : d.Routed) (h' : d'.Routed) {n : Nat} {new : String × Session}
    (hsessions : d'.sessionOf = Function.update d.sessionOf n (some new)) :
    d'.total weight + (d.sessionOf n).elim 0 (fun s => weight s.1 s.2) =
      d.total weight + weight new.1 new.2 := by
  have hn : n < d'.opened := by
    by_contra hn
    have hnone := h'.sessionOf_none n (Nat.le_of_not_lt hn)
    rw [hsessions, Function.update_self] at hnone
    cases hnone
  rw [h.total_eq (Nat.le_max_left d.opened d'.opened),
    h'.total_eq (Nat.le_max_right d.opened d'.opened), hsessions]
  exact tableTotal_update (hn.trans_le (Nat.le_max_right ..)) new

end

end DownstreamState

namespace Process

def bySession {α : Type} (cx : ProxyContext) (f : SessionContext → Session → Event → List α)
    (x : Process) : ProcessEvent → List α
  | .task (.session n e) =>
    (x.downstream.sessionOf n).elim [] fun s => f (cx.session s.1) s.2 e
  | _ => []

section
variable {cx : ProxyContext} {x y : Process} {ev : ProcessEvent}

/-- A step is a task's, or leaves the sessions and what they share with the manager alone. -/
theorem task_or_quiet_of_moved (h : Moved cx x ev y) :
    (∃ e, ev = .task e ∧ DownstreamState.step cx x.downstream e = some y.downstream) ∨
      (∀ e, ev ≠ .task e) ∧ x.downstream.stateManager.SameInside y.downstream.stateManager ∧
        y.downstream.sessionOf = x.downstream.sessionOf := by
  have hsame {now : Time} {input : PublisherInput} {p : MqttPublisher}
      (hp : MqttPublisher.step cx.crates x.seen ⟨now, input⟩ = some p)
      (hworld : ∀ router inboxes manager, input ≠ .world router inboxes manager) :
      x.downstream.stateManager.SameInside (x.putPublisher p).downstream.stateManager :=
    sameInside_putPublisher (MqttPublisher.routes_of_stepped (MqttPublisher.stepped_of_step hp)
      hworld).2
  have hquiet : x.downstream.stateManager.SameInside x.downstream.stateManager := ⟨rfl, rfl, rfl⟩
  cases h with
  | task hev hd => exact .inl ⟨_, rfl, hd⟩
  | publisher hbroker hp =>
    refine .inr ⟨(fun _ h => by cases h), hsame hp fun router inboxes manager hinput => ?_, rfl⟩
    rw [hinput] at hbroker
    cases hbroker
  | received hevents hp =>
    exact .inr ⟨(fun _ h => by cases h), hsame hp (fun _ _ _ h => by cases h), rfl⟩
  | mqttStopped => exact .inr ⟨(fun _ h => by cases h), ⟨rfl, rfl, rfl⟩, rfl⟩
  | bound => exact .inr ⟨(fun _ h => by cases h), ⟨rfl, rfl, rfl⟩, rfl⟩
  | drainBegun => exact .inr ⟨(fun _ h => by cases h), ⟨rfl, rfl, rfl⟩, rfl⟩
  | accepted => exact .inr ⟨(fun _ h => by cases h), hquiet, rfl⟩
  | refused => exact .inr ⟨(fun _ h => by cases h), hquiet, rfl⟩
  | mqttUnavailable => exact .inr ⟨(fun _ h => by cases h), hquiet, rfl⟩
  | mqttAbandoned => exact .inr ⟨(fun _ h => by cases h), hquiet, rfl⟩
  | signalled => exact .inr ⟨(fun _ h => by cases h), hquiet, rfl⟩
  | slept => exact .inr ⟨(fun _ h => by cases h), hquiet, rfl⟩
  | drained => exact .inr ⟨(fun _ h => by cases h), hquiet, rfl⟩
  | joined => exact .inr ⟨(fun _ h => by cases h), hquiet, rfl⟩

end

structure Slim (x : Process) : Prop where
  delivered : x.Delivered
  sessions : ∀ n id s, x.downstream.sessionOf n = some (id, s) →
    s.Replayed ∧ s.forwarder.upstreamBuffer.length ≤ 1 ∧ s.trace Entry.evicted? = []

section
variable {cx : ProxyContext} {config : ProxyConfig} {file : SnapshotMap}
  {events : List ProcessEvent} {x y : Process} {ev : ProcessEvent}

theorem Slim.step (h : x.Slim) (hstep : Process.step cx x ev = some y) : y.Slim := by
  obtain ⟨sent, hmove, -⟩ := downstreamMove_of_moved (moved_of_step hstep).2
  refine ⟨h.delivered.step hstep, DownstreamState.forall_sessions_of_move
    (P := fun _ s => s.Replayed ∧ s.forwarder.upstreamBuffer.length ≤ 1 ∧
      s.trace Entry.evicted? = []) h.delivered.routed hmove (fun id now manager => ?_) ?_ h.sessions⟩
  · refine ⟨Session.start_replayed now manager, ?_, Session.start_trace _ now manager _ fun _ => rfl⟩
    rw [Session.start_forwarder]
    exact Nat.zero_le 1
  · rintro id s t manager e ⟨hreplayed, hbuffered⟩ hstep
    have hframe := Session.frameStep_of_step hstep []
    exact ⟨hframe.replayed hreplayed, Session.buffered_of_frameStep hframe hreplayed hbuffered⟩

theorem slim_start : (start config file).Slim :=
  ⟨delivered_start, by simp [start, DownstreamState.new, DownstreamState.sessionOf]⟩

/-- A sum over the sessions keeps pace with a counter of the manager, but for what the steps of the
sessions give out. -/
theorem account_of_run (weight : Session → Nat) (count : ConnectionMetrics → Nat)
    {f : SessionContext → Session → Event → List String}
    (hstart : ∀ cx now manager, weight (.start cx now manager) = 0)
    (hstep : ∀ cx (s t : Session) manager e, s.forwarder.upstreamBuffer.length ≤ 1 →
      (∀ manager, e.input ≠ .manager manager) →
      Session.step cx { s with manager } e = some t →
      weight t + count manager.metrics = weight s + count t.manager.metrics + (f cx s e).length)
    (hzero : count {} = 0) (hrun : (step cx).run (start config file) events = some x) :
    x.downstream.total (fun _ => weight) = count x.downstream.stateManager.metrics +
      ((step cx).outputs (bySession cx f) (start config file) events).length := by
  have hkept := (step cx).meets_of_invariant (P := Slim) (fun _ _ _ _ hs h => h.step hs)
    ((step cx).meets_true (start config file) events) slim_start
  have haccount := (step cx).outputs_length (bySession cx f)
    (d := fun x => x.downstream.total fun _ => weight)
    (e := fun x => count x.downstream.stateManager.metrics) ?_ hrun hkept
  · have hfirst : (start config file).downstream.total (fun _ => weight) = 0 :=
      tableTotal_none fun _ => rfl
    have hfirst' : count (start config file).downstream.stateManager.metrics = 0 := hzero
    omega
  rintro x ev y hslim hs
  have hrouted := hslim.delivered.routed
  have hrouted' := (hslim.step hs).delivered.routed
  rcases task_or_quiet_of_moved (moved_of_step hs).2 with ⟨e, rfl, hd⟩ | ⟨hev, hsame, hsessions⟩
  · cases DownstreamState.managerMove_of_step hrouted hd with
    | idle hev hmanager hsessions =>
      have hnone : bySession cx f x (.task e) = [] := by
        cases e <;> first | rfl | exact absurd rfl (hev _ _)
      rw [DownstreamState.total_of_same hrouted hrouted' hsessions, hmanager.metrics, hnone]
      rfl
    | started hev hnone hsessions hmanager =>
      have hout : bySession cx f x (.task e) = [] := by
        cases e <;> first | rfl | exact absurd rfl (hev _ _)
      have htotal := DownstreamState.total_of_update (fun _ => weight) hrouted hrouted' hsessions
      have hmetrics : y.downstream.stateManager.metrics = x.downstream.stateManager.metrics := by
        rw [hmanager]
        exact (Session.start_manager _ _ _).2.1
      simp only [hnone, Option.elim_none, hstart, Nat.add_zero] at htotal
      rw [htotal, hmetrics, hout]
      rfl
    | @stepped n id s t e' hev hsession hown hstep' hsessions hmanager =>
      subst hev
      have htotal := DownstreamState.total_of_update (fun _ => weight) hrouted hrouted' hsessions
      have hout : bySession cx f x (.task (.session n e')) = f (cx.session id) s e' := by
        simp only [bySession, hsession, Option.elim_some]
      have hcount := hstep _ s t _ e' (hslim.sessions n id s hsession).2.1 hown hstep'
      simp only [hsession, Option.elim_some] at htotal
      rw [hmanager, hout]
      omega
  · have hout : bySession cx f x ev = [] := by
      cases ev <;> first | rfl | exact absurd rfl (hev _)
    rw [DownstreamState.total_of_same hrouted hrouted' hsessions, hsame.metrics, hout]
    rfl

/-- The counters of `/health` are exact across any number of sessions: what is counted as forwarded
is what was sent on, but for the texts that are no OCPP message, and what is counted as dropped is
what the ended sessions had left in their buffers. -/
theorem counters_of_run (hrun : (step cx).run (start config file) events = some x) :
    x.downstream.total (fun _ s => (s.trace Entry.toCentral?).length) =
        x.downstream.stateManager.metrics.chargerToCentralForwarded + ((step cx).outputs
          (bySession cx fun cx s e => s.relayedTexts cx e) (start config file) events).length ∧
      x.downstream.total (fun _ s => (s.trace Entry.toCharger?).length) =
        x.downstream.stateManager.metrics.centralToChargerForwarded + ((step cx).outputs
          (bySession cx fun cx s e => s.passedTexts cx e) (start config file) events).length ∧
      x.downstream.stateManager.metrics.chargerToCentralDropped =
        x.downstream.total (fun _ => Session.leftBehind) := by
  refine ⟨account_of_run (fun s => (s.trace Entry.toCentral?).length) (·.chargerToCentralForwarded)
      ?_ ?_ rfl hrun,
    account_of_run (fun s => (s.trace Entry.toCharger?).length) (·.centralToChargerForwarded)
      ?_ ?_ rfl hrun, ?_⟩
  · intro cx now manager
    rw [Session.start_trace cx now manager _ fun _ => rfl]
    rfl
  · intro cx s t manager e hbuffered hown hstep
    have hcount := (Session.tally_of_step hstep hown).forwardedUp
    have hlength := Session.toCentral_of_step_buffered hstep hbuffered
    have hsame : ({ s with manager } : Session).relayedTexts cx e = s.relayedTexts cx e := rfl
    have hread : ({ s with manager } : Session).trace Entry.toCentral? = s.trace Entry.toCentral? :=
      rfl
    rw [hsame, hread] at hlength
    dsimp only at hcount ⊢
    omega
  · intro cx now manager
    rw [Session.start_trace cx now manager _ fun _ => rfl]
    rfl
  · intro cx s t manager e hbuffered hown hstep
    have hcount := (Session.tally_of_step hstep hown).forwardedDown
    have hlength := Session.toCharger_of_step hstep
    have hsame : ({ s with manager } : Session).passedTexts cx e = s.passedTexts cx e := rfl
    have hread : ({ s with manager } : Session).trace Entry.toCharger? = s.trace Entry.toCharger? :=
      rfl
    rw [hsame, hread] at hlength
    dsimp only at hcount ⊢
    omega
  · -- what was left behind is counted whole: no step has an uncounted part
    have hdropped := account_of_run Session.leftBehind (·.chargerToCentralDropped)
      (f := fun _ _ _ => []) ?_ ?_ rfl hrun
    · have hnone : (step cx).outputs (bySession cx fun _ _ _ => ([] : List String))
          (start config file) events = [] := by
        refine ((step cx).outputs_eq_nil_iff _ hrun).mpr ?_
        refine ((step cx).meets_true _ _).mono fun x ev _ => ?_
        unfold bySession
        split
        · cases x.downstream.sessionOf _ <;> rfl
        · rfl
      rw [hdropped, hnone]
      rfl
    · intro cx now manager
      exact Session.leftBehind_of_not_ending rfl
    · intro cx s t manager e hbuffered hown hstep
      have hcount := (Session.tally_of_step hstep hown).dropped
      have hsame : ({ s with manager } : Session).leftBehind = s.leftBehind := rfl
      rw [hsame] at hcount
      dsimp only at hcount
      simp only [List.length_nil]
      omega

/-! ## What the endpoint says -/

/-- `main` and the publisher keep what they report in the manager. -/
structure Mirrored (x : Process) : Prop where
  delivered : x.Delivered
  shared : x.publisher.stateManager.isSome = true
  listening : x.downstream.stateManager.listenerBound = decide (x.main = .serving)
  mqtt : x.publisher.stage ≠ .stopped →
    x.downstream.stateManager.mqttState = x.publisher.state
  gone : x.publisher.stage = .stopped → x.downstream.stateManager.mqttState ≠ .connected
  early : x.publisher.stage = .built ∨ x.publisher.stage = .starting →
    x.publisher.state ≠ .connected

theorem Mirrored.task (h : x.Mirrored) {e : ProxyEvent} {d : DownstreamState}
    (hy : ({ x with downstream := d } : Process).Delivered)
    (hd : DownstreamState.step cx x.downstream e = some d) :
    ({ x with downstream := d } : Process).Mirrored := by
  obtain ⟨hmqtt, hlistener⟩ : d.stateManager.mqttState = x.downstream.stateManager.mqttState ∧
      d.stateManager.listenerBound = x.downstream.stateManager.listenerBound := by
    cases DownstreamState.managerMove_of_step h.delivered.routed hd with
    | idle _ hmanager => exact ⟨hmanager.mqttState, hmanager.listenerBound⟩
    | @started n id now _ _ _ hmanager =>
      have hsame := (Session.start_manager (cx.session id) now x.downstream.stateManager).1
      rw [hmanager]
      exact ⟨hsame.mqttState, hsame.listenerBound⟩
    | stepped _ _ hown hstep _ hmanager =>
      have hsame := (Session.tally_of_step hstep hown).outside
      exact hmanager ▸ ⟨hsame.mqttState, hsame.listenerBound⟩
  exact ⟨hy, h.shared, hlistener.trans h.listening, fun hs => hmqtt.trans (h.mqtt hs),
    fun hs => hmqtt ▸ h.gone hs, h.early⟩

/-- The publisher's steps keep its state and the manager's the same. -/
theorem Mirrored.putPublisher (h : x.Mirrored) {now : Time} {input : PublisherInput}
    {p : MqttPublisher} (hy : (x.putPublisher p).Delivered)
    (hp : MqttPublisher.step cx.crates x.seen ⟨now, input⟩ = some p) (hopen : input ≠ .event none)
    (hworld : ∀ router inboxes manager, input ≠ .world router inboxes manager)
    (henqueue : ∀ message, input ≠ .enqueue message) : (x.putPublisher p).Mirrored := by
  have hstepped : MqttPublisher.Stepped cx.crates now x.seen input p :=
    MqttPublisher.stepped_of_step hp
  have hsame := (MqttPublisher.routes_of_stepped hstepped hworld).2
  have hstages := MqttPublisher.stages_of_stepped hstepped hopen hworld henqueue
  have hinside := sameInside_putPublisher hsame
  obtain ⟨m, hm⟩ := Option.isSome_iff_exists.mp h.shared
  have hseen : x.seen.stateManager = some x.downstream.stateManager := by simp [seen, hm]
  have hlive : x.publisher.stage ≠ .stopped := by
    intro hs
    rcases hstages with ⟨h', -⟩ | ⟨h', -⟩ | ⟨h' | h', -⟩ <;> rw [seen, hs] at h' <;> cases h'
  have hmirror : (x.putPublisher p).downstream.stateManager.mqttState = p.state ∧
      (x.putPublisher p).downstream.stateManager.listenerBound =
        x.downstream.stateManager.listenerBound ∧ p.stateManager.isSome = true := by
    unfold Process.putPublisher
    rcases hsame.mirrored with ⟨hstate, hmanager⟩ | hmanager
    · rw [hseen] at hmanager
      rw [hmanager, hstate]
      exact ⟨h.mqtt hlive, rfl, rfl⟩
    · rw [hseen] at hmanager
      rw [hmanager]
      exact ⟨rfl, rfl, rfl⟩
  refine ⟨hy, hmirror.2.2, hmirror.2.1.trans h.listening, fun _ => hmirror.1, fun hs => ?_,
    fun hs => ?_⟩
  · have hs : p.stage = .stopped := hs
    rcases hstages with ⟨-, hstage, -⟩ | ⟨-, hstage, -⟩ | ⟨-, hstage⟩ <;>
      rw [hstage] at hs <;> cases hs
  · have hs : p.stage = .built ∨ p.stage = .starting := hs
    change p.state ≠ .connected
    rcases hstages with ⟨-, -, hstate⟩ | ⟨hbefore, -, hstate⟩ | ⟨-, hstage⟩
    · rw [hstate]
      decide
    · rw [hstate]
      exact h.early (.inr hbefore)
    · rw [hstage] at hs
      rcases hs with hs | hs <;> cases hs

theorem Mirrored.step (h : x.Mirrored) (hstep : Process.step cx x ev = some y) : y.Mirrored := by
  have hy := h.delivered.step hstep
  have hmoved := (moved_of_step hstep).2
  cases hmoved with
  | task hev hd => exact h.task hy hd
  | @publisher ev p hbroker hp =>
    obtain ⟨now, input⟩ := ev
    refine h.putPublisher hy hp ?_ ?_ ?_ <;> intros <;> rintro rfl <;> cases hbroker
  | received hevents hp =>
    have hput := h.putPublisher ⟨hy.routed, hy.accounts⟩ hp (fun hinput => by cases hinput)
      (fun _ _ _ hinput => by cases hinput) (fun _ hinput => by cases hinput)
    exact ⟨hy, hput.shared, hput.listening, hput.mqtt, hput.gone, hput.early⟩
  | mqttUnavailable hstage =>
    refine ⟨hy, h.shared, h.listening, fun hs => absurd rfl hs, fun _ => ?_, fun hs => ?_⟩
    · have hmqtt := h.mqtt (by rw [hstage]; decide)
      exact hmqtt ▸ h.early (.inl hstage)
    · rcases hs with hs | hs <;> cases hs
  | mqttAbandoned _ hstage =>
    refine ⟨hy, h.shared, h.listening, fun hs => absurd rfl hs, fun _ => ?_, fun hs => ?_⟩
    · have hmqtt := h.mqtt (by rcases hstage with hs | hs <;> rw [hs] <;> decide)
      exact hmqtt ▸ h.early hstage
    · rcases hs with hs | hs <;> cases hs
  | mqttStopped _ hstage =>
    refine ⟨hy, h.shared, h.listening, fun hs => absurd rfl hs, fun _ => ?_, fun hs => ?_⟩
    · exact (by decide : ConnectionState.disconnected ≠ .connected)
    · rcases hs with hs | hs <;> cases hs
  | accepted => exact ⟨hy, h.shared, h.listening, h.mqtt, h.gone, h.early⟩
  | refused => exact ⟨hy, h.shared, h.listening, h.mqtt, h.gone, h.early⟩
  | bound => exact ⟨hy, h.shared, rfl, h.mqtt, h.gone, h.early⟩
  | signalled => exact ⟨hy, h.shared, h.listening, h.mqtt, h.gone, h.early⟩
  | drainBegun => exact ⟨hy, h.shared, rfl, h.mqtt, h.gone, h.early⟩
  | slept hmain =>
    refine ⟨hy, h.shared, h.listening.trans ?_, h.mqtt, h.gone, h.early⟩
    simp [hmain]
  | drained hmain =>
    refine ⟨hy, h.shared, h.listening.trans ?_, h.mqtt, h.gone, h.early⟩
    simp [hmain]
  | joined hmain =>
    refine ⟨hy, h.shared, h.listening.trans ?_, h.mqtt, h.gone, h.early⟩
    simp [hmain]

theorem mirrored_start : (start config file).Mirrored where
  delivered := delivered_start
  shared := rfl
  listening := rfl
  mqtt _ := (MqttPublisher.build_fields (config.publisherSetup file)).2.2.2.2.1.symm
  gone _ := (by decide : ConnectionState.disconnected ≠ .connected)
  early _ := by
    have hstate : (start config file).publisher.state = .disconnected :=
      (MqttPublisher.build_fields _).2.2.2.2.1
    rw [hstate]
    decide

/-- The upstream was last written as disconnected by a session that ended with it. -/
def LeftDisconnected (cx : ProxyContext) (x : Process) (events : List ProcessEvent) : Prop :=
  ∃ before n e after u v id s, events = before ++ .task (.session n e) :: after ∧
    (step cx).run x before = some u ∧ step cx u (.task (.session n e)) = some v ∧
    u.downstream.stateManager.upstreamState ≠ .disconnected ∧
    v.downstream.sessionOf n = some (id, s) ∧ s.phase = .ended ∧
    (step cx).Meets (fun w _ => w.downstream.stateManager.upstreamState = .disconnected) v after

theorem leftDisconnected_of_run (hrun : (step cx).run (start config file) events = some x)
    (hdown : x.downstream.stateManager.upstreamState = .disconnected) {n : Nat}
    (hsession : x.downstream.sessionOf n ≠ none) :
    LeftDisconnected cx (start config file) events := by
  let begun (w : Process) : Prop := (∃ n, w.downstream.sessionOf n ≠ none) ∧
    w.downstream.stateManager.upstreamState = .disconnected
  have hnone : ¬ begun (start config file) := fun ⟨⟨n, hn⟩, _⟩ => hn rfl
  rcases (step cx).held_or_became (P := begun) hrun ⟨⟨n, hsession⟩, hdown⟩ with ⟨hstart, -⟩ |
    ⟨before, ev, after, u, v, rfl, hbefore, hstep, hu, ⟨hv, hvdown⟩, hafter⟩
  · exact absurd hstart hnone
  have hrouted : u.downstream.Routed :=
    ((step cx).invariant (P := Delivered) (fun _ _ _ hs h => h.step hs) hbefore
      delivered_start).routed
  have hstays := hafter.mono fun w _ hw => hw.2
  rcases task_or_quiet_of_moved (moved_of_step hstep).2 with ⟨e, rfl, hd⟩ | ⟨-, hsame, hsessions⟩
  · cases DownstreamState.managerMove_of_step hrouted hd with
    | idle _ hmanager hsessions =>
      rw [hsessions] at hv
      exact absurd ⟨hv, hmanager.upstreamState.symm.trans hvdown⟩ hu
    | started _ _ _ hmanager =>
      rw [hmanager, (Session.start_manager _ _ _).2.2] at hvdown
      cases hvdown
    | @stepped k id s t e' hev hsession hown hstep' hsessions hmanager =>
      subst hev
      have hup : u.downstream.stateManager.upstreamState ≠ .disconnected :=
        fun hdown => hu ⟨⟨k, by simp [hsession]⟩, hdown⟩
      rw [hmanager] at hvdown
      rcases Session.upstreamState_of_step hstep' hown with hended | hnot | hsame
      · exact ⟨before, k, e', after, u, v, id, t, rfl, hbefore, hstep, hup,
          by rw [hsessions, Function.update_self], hended, hstays⟩
      · exact absurd hvdown hnot
      · exact absurd (hsame.symm.trans hvdown) hup
  · rw [hsessions] at hv
    exact absurd ⟨hv, hsame.upstreamState.symm.trans hvdown⟩ hu

/-- What `/health` says in every reachable state: it is listening exactly while `main` serves, shows
the publisher's own connection until the MQTT thread stops, is healthy only with a connected
publisher, and is unavailable exactly where `main` does not serve or a charger is connected without
an upstream. While `main` serves, that takes a session that ended and wrote the upstream state last,
or that none has begun. -/
theorem health_of_run (hrun : (step cx).run (start config file) events = some x) (uptime : Nat) :
    (healthHandler x.downstream.stateManager uptime).2.listening = decide (x.main = .serving) ∧
    (x.publisher.stage ≠ .stopped →
      (healthHandler x.downstream.stateManager uptime).2.mqtt = x.publisher.state) ∧
    ((healthHandler x.downstream.stateManager uptime).2.status = .healthy →
      x.main = .serving ∧ x.publisher.stage = .running ∧ x.publisher.state = .connected) ∧
    ((healthHandler x.downstream.stateManager uptime).1 = .serviceUnavailable ↔
      x.main ≠ .serving ∨
        (healthHandler x.downstream.stateManager uptime).2.downstream = .connected ∧
          (healthHandler x.downstream.stateManager uptime).2.upstream = .disconnected) ∧
    (x.main = .serving →
      (healthHandler x.downstream.stateManager uptime).1 = .serviceUnavailable →
        (∀ n, x.downstream.sessionOf n = none) ∨
          LeftDisconnected cx (start config file) events) := by
  have h : x.Mirrored :=
    (step cx).invariant (P := Mirrored) (fun _ _ _ hs h => h.step hs) hrun mirrored_start
  have hcode := (@healthHandler_unavailable x.downstream.stateManager uptime).trans
    healthStatus_eq_unhealthy
  rw [h.listening, decide_eq_false_iff_not] at hcode
  refine ⟨h.listening, h.mqtt, fun hhealthy => ?_, hcode, fun hserving hcode' => ?_⟩
  · -- a publisher that reports Connected has not stopped, and left its startup with a ConnAck
    obtain ⟨hbound, -, -, hmqtt⟩ := healthStatus_eq_healthy.mp hhealthy
    rw [h.listening, decide_eq_true_eq] at hbound
    have hopen : x.publisher.stage ≠ .stopped := fun hs => h.gone hs hmqtt
    have hstate : x.publisher.state = .connected := (h.mqtt hopen).symm.trans hmqtt
    refine ⟨hbound, ?_, hstate⟩
    cases hstage : x.publisher.stage with
    | built => exact absurd hstate (h.early (.inl hstage))
    | starting => exact absurd hstate (h.early (.inr hstage))
    | running => rfl
    | stopped => exact absurd hstage hopen
  · obtain hnot | ⟨-, hdown⟩ := hcode.mp hcode'
    · exact absurd hserving hnot
    · -- a session that began has set the upstream state, so it was set Disconnected since
      by_cases hnone : ∀ n, x.downstream.sessionOf n = none
      · exact .inl hnone
      · obtain ⟨n, hsession⟩ := not_forall.mp hnone
        exact .inr (leftDisconnected_of_run hrun hdown hsession)

end

theorem relayEvents_counted :
    ((step commandedContext).run (start relayConfig ∅) relayEvents).map (fun x =>
      (x.downstream.stateManager.metrics.chargerToCentralForwarded,
        decide (((healthHandler x.downstream.stateManager 60).2.status) = .healthy))) =
          some (1, true) := by
  decide +kernel

theorem counters_of_run_relay : ∃ x,
    (step commandedContext).run (start relayConfig ∅) relayEvents = some x ∧
      x.downstream.stateManager.metrics.chargerToCentralForwarded = 1 ∧
      x.downstream.total (fun _ s => (s.trace Entry.toCentral?).length) =
        1 + ((step commandedContext).outputs (bySession commandedContext
          fun cx s e => s.relayedTexts cx e) (start relayConfig ∅) relayEvents).length := by
  obtain ⟨x, hrun, hx⟩ := Option.map_eq_some_iff.mp relayEvents_counted
  obtain ⟨hcount, -⟩ := Prod.mk.inj hx
  exact ⟨x, hrun, hcount, hcount ▸ (counters_of_run hrun).1⟩

theorem health_of_run_relay : ∃ x,
    (step commandedContext).run (start relayConfig ∅) relayEvents = some x ∧
      (healthHandler x.downstream.stateManager 60).2.status = .healthy ∧
      x.main = .serving ∧ x.publisher.stage = .running ∧ x.publisher.state = .connected := by
  obtain ⟨x, hrun, hx⟩ := Option.map_eq_some_iff.mp relayEvents_counted
  have hhealthy := of_decide_eq_true (Prod.mk.inj hx).2
  exact ⟨x, hrun, hhealthy, (health_of_run hrun 60).2.2.1 hhealthy⟩

end Process

end OcppProxy

import OcppProxy.Answers
import OcppProxy.LimitDispatch
import OcppProxy.SessionStatus
import OcppProxy.Teardown
import Mathlib.Data.Fintype.EquivFin

/-!
# The limits the chargers accepted

The publisher next to the connection tasks: it reads what their sessions hand over and folds it into
its snapshots. A limit enters a snapshot as the one the charger accepted, and leaves it with a clear.
-/

namespace OcppProxy

/-- The proxy: the connection tasks, the publisher and the events between them. Any dispatch may
reach a session, and the publisher may find any router. -/
structure Proxy where
  downstream : DownstreamState
  publisher : MqttPublisher
  /-- What `event_rx` has not yielded yet. -/
  events : List MqttEvent

inductive ProxyMove where
  | downstream (ev : ProxyEvent)
  /-- Any input of the publisher but an event. -/
  | publisher (ev : PublisherEvent)
  /-- The publisher takes the next event. -/
  | handle (now : Time)
  /-- A full channel has not taken the `n`th event. -/
  | lose (n : Nat)

namespace Session

section
variable {cx : SessionContext} {s t : Session} {id id' : String} {result : CommandResult}

/-- A result that a session hands over is that of one of its local calls. -/
theorem Reports.handed (h : Reports cx s t)
    (hmem : .commandResult id result ∈ t.handedSince id' s.log.length) :
    id = id' ∧ ∃ now e, (now, e) ∈ t.log ∧ e.isLocal = true ∧
      e.mqttEvent? id = some (.commandResult id result) := by
  obtain ⟨es, hlog, hes⟩ := h
  rw [handedSince, hlog, List.drop_left] at hmem
  obtain ⟨⟨now, e⟩, he, hevent⟩ := List.mem_filterMap.mp hmem
  have hlocal : e.isLocal = true ∧ id = id' := by
    rcases hes _ he with hplain | ⟨upstream, downstream, hchange⟩
    · cases e with
      | event event =>
        cases event with
        | commandResult => cases hplain
        | _ => cases hevent
      | displaced | refused | settled =>
        cases hevent
        exact ⟨rfl, rfl⟩
      | _ => cases hevent
    · dsimp only at hchange hevent
      rw [hchange] at hevent
      cases hevent
  obtain ⟨hlocal, rfl⟩ := hlocal
  exact ⟨rfl, now, e, hlog ▸ List.mem_append_right _ he, hlocal, hevent⟩

theorem start_reports (now : Time) (manager : ConnectionStateManager) :
    ∃ s, s.log = [] ∧ Reports cx s (start cx now manager) := by
  unfold start enterConnecting
  exact ⟨_, rfl, (reports_setUpstreamState .connecting _).trans (.of_log rfl)⟩

end

end Session

namespace DownstreamState

def sessionOf (d : DownstreamState) (n : Nat) : Option (String × Session) :=
  (d.tasks n).bind fun task => task.session.map fun s => (task.chargePointId, s)

inductive SessionMove (cx : ProxyContext) (ev : ProxyEvent) (d d' : DownstreamState) : Prop
  | idle {new : List MqttEvent} (hsessions : d'.sessionOf = d.sessionOf)
      (hhanded : d'.mqttTx = d.mqttTx ++ new) (hnone : ∀ id r, .commandResult id r ∉ new)
  | started {n : Nat} {id : String} {now : Time} {manager : ConnectionStateManager}
      (hnone : d.sessionOf n = none)
      (hsessions : d'.sessionOf = Function.update d.sessionOf n
        (some (id, .start (cx.session id) now manager)))
      (hhanded : d'.mqttTx = d.mqttTx ++
        (Session.start (cx.session id) now manager).handedSince id 0)
  | stepped {n : Nat} {id : String} {s t : Session} {manager : ConnectionStateManager} {e : Event}
      (hev : ev = .session n e) (hsession : d.sessionOf n = some (id, s))
      (hstep : Session.step (cx.session id) { s with manager } e = some t)
      (hsessions : d'.sessionOf = Function.update d.sessionOf n (some (id, t)))
      (hhanded : d'.mqttTx = d.mqttTx ++ t.handedSince id s.log.length)

section
variable {cx : ProxyContext} {d d' : DownstreamState} {ev : ProxyEvent} {n : Nat}
  {task : ConnectionTask} {s : Session}

theorem sessionOf_modifyTask {f : ConnectionTask → ConnectionTask} (m : Nat)
    (hf : ∀ task, (f task).chargePointId = task.chargePointId ∧ (f task).session = task.session) :
    (d.modifyTask m f).sessionOf = d.sessionOf := by
  funext k
  unfold sessionOf modifyTask
  by_cases hk : k = m
  · subst hk
    cases d.tasks k <;> simp [hf]
  · simp [hk]

theorem sessionOf_setStage (m : Nat) (stage : ConnectionStage) :
    (d.setStage m stage).sessionOf = d.sessionOf :=
  sessionOf_modifyTask m fun _ => ⟨rfl, rfl⟩

theorem sessionOf_registerConnection (m : Nat) :
    (d.registerConnection m task).sessionOf = d.sessionOf := by
  unfold registerConnection
  dsimp only
  split
  · exact sessionOf_modifyTask _ fun _ => ⟨rfl, rfl⟩
  · rfl

theorem sessionOf_putSession (htask : d.tasks n = some task) (logged : Nat) :
    (d.putSession n task.chargePointId logged s).sessionOf =
      Function.update d.sessionOf n (some (task.chargePointId, s)) := by
  funext k
  unfold sessionOf putSession modifyTask
  by_cases hk : k = n
  · subst hk
    simp [htask]
  · simp [hk]

theorem mqttTx_registerConnection (m : Nat) :
    (d.registerConnection m task).mqttTx = d.mqttTx := by
  unfold registerConnection
  dsimp only
  split <;> rfl

theorem deregisterConnection_sessions (id : String) (generation : Nat) :
    (d.deregisterConnection id generation).2.sessionOf = d.sessionOf ∧
      (d.deregisterConnection id generation).2.mqttTx = d.mqttTx := by
  unfold deregisterConnection
  split
  · split <;> exact ⟨rfl, rfl⟩
  · exact ⟨rfl, rfl⟩

/-- A step that neither runs a session nor reports. -/
theorem SessionMove.of_same (hsessions : d'.sessionOf = d.sessionOf)
    (hhanded : d'.mqttTx = d.mqttTx) : SessionMove cx ev d d' :=
  @SessionMove.idle cx ev d d' [] hsessions (by rw [hhanded, List.append_nil]) (by simp)

theorem sessionMove_advance {m : Nat} {now : Time} (htask : d.tasks m = some task)
    (hearly : task.stage.isEarly = true → task.session = none)
    (h : d.advance cx now m task = some d') : SessionMove cx ev d d' := by
  have hstage {d₁ : DownstreamState} {stage : ConnectionStage} (hsessions : d₁.sessionOf = d.sessionOf)
      (hhanded : d₁.mqttTx = d.mqttTx) : SessionMove cx ev d (d₁.setStage m stage) :=
    .of_same ((sessionOf_setStage m stage).trans hsessions) hhanded
  have hstatus {d₁ : DownstreamState} {stage : ConnectionStage} {upstream downstream}
      (hsessions : d₁.sessionOf = d.sessionOf)
      (hhanded : d₁.mqttTx = d.mqttTx ++ [.stateChange task.chargePointId upstream downstream]) :
      SessionMove cx ev d (d₁.setStage m stage) :=
    .idle ((sessionOf_setStage m stage).trans hsessions) hhanded (by simp)
  unfold advance at h
  split at h
  · cases h
    exact .of_same (sessionOf_modifyTask m fun _ => ⟨rfl, rfl⟩) rfl
  · cases h
    exact hstage (sessionOf_registerConnection m) (mqttTx_registerConnection m)
  · cases h
    exact hstage rfl rfl
  · cases h
    exact hstage rfl rfl
  · cases h
    exact hstatus rfl rfl
  · rename_i hannounced
    cases h
    have hnone : d.sessionOf m = none := by
      simp [sessionOf, htask, hearly (by rw [hannounced]; rfl)]
    exact .started hnone ((sessionOf_setStage m _).trans (sessionOf_putSession htask 0)) rfl
  · split at h
    · cases h
      exact hstage rfl rfl
    · cases h
  · cases h
    exact hstage rfl rfl
  · cases h
    obtain ⟨hsessions, hhanded⟩ := @deregisterConnection_sessions d task.chargePointId
      task.generation
    exact hstage hsessions hhanded
  · cases h
    exact hstage rfl rfl
  · cases h
    exact hstage rfl rfl
  · cases h
    exact hstatus rfl rfl
  · cases h

theorem sessionMove_of_step (hfresh : d.Fresh) (haccounted : ∀ n, (d.view n).Accounted)
    (h : step cx d ev = some d') : SessionMove cx ev d d' := by
  cases ev with
  | upgrade chargePointId protocolHeader =>
    cases h
    unfold wsUpgradeHandler
    split
    · refine .of_same ?_ rfl
      funext k
      by_cases hk : k = d.opened
      · subst hk
        simp [sessionOf, hfresh d.opened le_rfl]
      · simp [sessionOf, hk]
    · exact .of_same rfl rfl
  | abandon m =>
    obtain ⟨task, -, h⟩ := Option.bind_eq_some_iff.mp h
    split at h
    · cases h
      exact .of_same (sessionOf_setStage m _) rfl
    · cases h
  | advance m now =>
    obtain ⟨task, htask, h⟩ := Option.bind_eq_some_iff.mp h
    refine sessionMove_advance htask (fun hearly => ?_) h
    exact (haccounted m).early task.stage task.session (by simp [view, htask]) hearly
  | session m e =>
    obtain ⟨task, htask, h⟩ := Option.bind_eq_some_iff.mp h
    obtain ⟨s, hs, h⟩ := Option.bind_eq_some_iff.mp h
    unfold sessionStep at h
    split at h
    · obtain ⟨t, ht, rfl⟩ := Option.map_eq_some_iff.mp h
      have hsession : d.sessionOf m = some (task.chargePointId, s) := by
        simp [sessionOf, htask, hs]
      exact .stepped rfl hsession ht (sessionOf_putSession htask s.log.length) rfl
    · cases h
  | dispatch chargePointId request =>
    simp only [step] at h
    split at h <;> (cases h; exact .of_same rfl rfl)
  | shutdown =>
    cases h
    exact .of_same rfl rfl

/-- The sessions' results are what the chargers said, and the results handed over are those. -/
structure Genuine (cx : ProxyContext) (d : DownstreamState) : Prop where
  sessions : ∀ n id s, d.sessionOf n = some (id, s) → s.Genuine (cx.session id)
  results : ∀ id result, .commandResult id result ∈ d.mqttTx → ∃ n s now e,
    d.sessionOf n = some (id, s) ∧ (now, e) ∈ s.log ∧ e.isLocal = true ∧
      e.mqttEvent? id = some (.commandResult id result)

/-- A session that is new, or whose log has grown, keeps what was handed over before. -/
theorem Genuine.update (h : d.Genuine cx) {id : String} {t : Session} {logged : Nat}
    (hgenuine : t.Genuine (cx.session id))
    (hlog : ∀ s, d.sessionOf n = some (id, s) → s.log <+: t.log)
    (hid : ∀ id' s, d.sessionOf n = some (id', s) → id' = id)
    (hresult : ∀ id' result, .commandResult id' result ∈ t.handedSince id logged → id' = id ∧
      ∃ now e, (now, e) ∈ t.log ∧ e.isLocal = true ∧
        e.mqttEvent? id' = some (.commandResult id' result))
    (hsessions : d'.sessionOf = Function.update d.sessionOf n (some (id, t)))
    (hhanded : d'.mqttTx = d.mqttTx ++ t.handedSince id logged) : d'.Genuine cx := by
  constructor
  · intro k id' s hs
    rw [hsessions] at hs
    by_cases hk : k = n
    · subst hk
      rw [Function.update_self] at hs
      obtain ⟨rfl, rfl⟩ := Prod.mk.inj (Option.some.inj hs)
      exact hgenuine
    · rw [Function.update_of_ne hk] at hs
      exact h.sessions k id' s hs
  · intro id' result hmem
    rw [hhanded] at hmem
    rw [hsessions]
    rcases List.mem_append.mp hmem with hold | hnew
    · obtain ⟨k, s, now, e, hs, he, hlocal, hevent⟩ := h.results id' result hold
      by_cases hk : k = n
      · subst hk
        obtain rfl := hid id' s hs
        exact ⟨k, t, now, e, Function.update_self .., (hlog s hs).subset he, hlocal, hevent⟩
      · exact ⟨k, s, now, e, by rw [Function.update_of_ne hk, hs], he, hlocal, hevent⟩
    · obtain ⟨rfl, now, e, he, hlocal, hevent⟩ := hresult id' result hnew
      exact ⟨n, t, now, e, Function.update_self .., he, hlocal, hevent⟩

def statusGiven (cx : ProxyContext) (d : DownstreamState) : ProxyEvent → Bool
  | .session n e => (d.sessionOf n).all fun (id, s) => s.statusGiven (cx.session id) e
  | _ => true

theorem Genuine.move (h : d.Genuine cx) (hgiven : d.statusGiven cx ev = true)
    (hmove : SessionMove cx ev d d') : d'.Genuine cx := by
  cases hmove with
  | idle hsessions hhanded hnone =>
    refine ⟨fun n id s hs => h.sessions n id s (hsessions ▸ hs), fun id result hmem => ?_⟩
    rw [hhanded] at hmem
    rw [hsessions]
    exact h.results id result ((List.mem_append.mp hmem).resolve_right (hnone id result))
  | @started n id now manager hnone hsessions hhanded =>
    obtain ⟨s, hs, hreports⟩ := @Session.start_reports (cx.session id) now manager
    refine h.update (Session.genuine_start now manager) ?_ ?_ ?_ hsessions hhanded
    · simp [hnone]
    · simp [hnone]
    · intro id' result hmem
      refine hreports.handed ?_
      rw [hs]
      exact hmem
  | @stepped n id s t manager e hev hsession hstep hsessions hhanded =>
    have hs := h.sessions n id s hsession
    have hstatus : s.statusGiven (cx.session id) e = true := by
      simpa [statusGiven, hev, hsession] using hgiven
    have ht : t.Genuine (cx.session id) :=
      Session.Genuine.step (s := { s with manager }) hstep hstatus ⟨hs.sourced, hs.answered⟩
    have hreports : Session.Reports (cx.session id) { s with manager } t :=
      Session.reports_of_step hstep
    refine h.update ht ?_ ?_ (fun id' result => hreports.handed) hsessions hhanded
    · intro s' hs'
      obtain ⟨-, rfl⟩ := Prod.mk.inj (Option.some.inj (hsession.symm.trans hs'))
      obtain ⟨es, hlog, -⟩ := hreports
      exact ⟨es, hlog.symm⟩
    · intro id' s' hs'
      exact (Prod.mk.inj (Option.some.inj (hsession.symm.trans hs'))).1.symm

theorem SessionMove.handed (h : SessionMove cx ev d d') : ∃ new, d'.mqttTx = d.mqttTx ++ new := by
  cases h with
  | idle _ hhanded _ => exact ⟨_, hhanded⟩
  | started _ _ hhanded => exact ⟨_, hhanded⟩
  | stepped _ _ _ _ hhanded => exact ⟨_, hhanded⟩

end

end DownstreamState

/-! ## The publisher -/

namespace MqttPublisher

def limitOf (id : String) (p : MqttPublisher) : Option F64 := (p.snapshotOf id).currentLimitA

section
variable {crates : Crates} {now : Time} {input : PublisherInput} {p q : MqttPublisher}
  {id : String} {tx : Nat} {request : CommandRequest}

/-- There is always a channel that no registration leads to. -/
theorem exists_routed (id : String) (p : MqttPublisher) : ∃ tx, p.Routed id tx := by
  cases hrouter : p.commandRouter with
  | none => exact ⟨0, by simp [Routed, hrouter]⟩
  | some router =>
    obtain ⟨tx, htx⟩ := Infinite.exists_notMem_finset
      (router.registrations.entries.map (·.2.tx)).toFinset
    refine ⟨tx, fun router' hmem => ?_⟩
    obtain rfl : router = router' := by simpa [hrouter] using hmem
    refine List.all_eq_true.mpr fun e he => ?_
    have hne : e.2.tx ≠ tx := by
      rintro rfl
      exact htx (List.mem_toFinset.mpr (List.mem_map_of_mem he))
    simp [hne]

theorem Dispatches.limitOf (h : Dispatches id tx request p q) : q.limitOf id = p.limitOf id := by
  cases h with
  | nothing h => exact congrArg LimitView.limit h
  | refused _ h => exact congrArg LimitView.limit h
  | put _ h => exact congrArg LimitView.limit h

/-- The publisher's own inputs change no limit. -/
theorem limitOf_of_stepped (h : Stepped crates now p input q)
    (hinput : ∀ event, input ≠ .event (some event)) : q.limitOf id = p.limitOf id := by
  cases hown : input.isOwn with
  | true =>
    obtain ⟨tx, hrouted⟩ := exists_routed id p
    rcases (commands_of_stepped h hown hrouted).limit with ⟨request, -, hdispatches⟩ | hsame
    · exact hdispatches.limitOf
    · exact congrArg LimitView.limit hsame
  | false =>
    cases h with
    | world => rfl
    | handled event => exact absurd rfl (hinput event)
    | _ => cases hown

/-- An event changes a limit only by bringing an accepted result of a limit command. -/
theorem limitOf_handleEvent {event : MqttEvent}
    (h : (p.handleEvent crates now event).limitOf id ≠ p.limitOf id) : ∃ result,
      event = .commandResult id result ∧ result.isLimitResult = true ∧
      result.status = .accepted ∧ (p.handleEvent crates now event).limitOf id =
        if result.action = some "SetChargingProfile" then result.appliedLimitA else none := by
  obtain ⟨tx, hrouted⟩ := exists_routed id p
  cases event with
  | messageForwarded id' frame direction action =>
    exact absurd (congrArg LimitView.limit
      (@limitView_messageForwarded crates now p id id' tx frame direction action)) h
  | stateChange id' upstream downstream =>
    rcases @limitView_stateChange crates now p id id' tx hrouted upstream downstream with
      ⟨limitA, -, hdispatches⟩ | hsame
    · exact absurd hdispatches.limitOf h
    · exact absurd (congrArg LimitView.limit hsame) h
  | commandResult id' result =>
    have hview := @limitView_publishCommandResult crates now p id id' tx result
    by_cases hlimit : id = id' ∧ result.isLimitResult = true
    · rw [if_pos hlimit] at hview
      have hfolded : (p.handleEvent crates now (.commandResult id' result)).limitOf id =
          standingLimit (p.limitOf id) [result] := congrArg LimitView.limit hview
      have hstanding := standingLimit_concat (p.limitOf id) [] result
      rw [List.nil_append] at hstanding
      rw [hstanding] at hfolded
      obtain ⟨rfl, hkind⟩ := hlimit
      by_cases haccepted : result.status = .accepted
      · rw [if_pos haccepted] at hfolded
        exact ⟨result, rfl, hkind, haccepted, hfolded⟩
      · rw [if_neg haccepted] at hfolded
        exact absurd hfolded h
    · rw [if_neg hlimit] at hview
      exact absurd (congrArg LimitView.limit hview) h

end

end MqttPublisher

/-! ## The whole proxy -/

namespace Proxy

def start (manager : ConnectionStateManager) (setup : PublisherSetup) : Proxy where
  downstream := .new manager
  publisher := .build setup
  events := []

def step (cx : ProxyContext) : Machine Proxy ProxyMove := fun x move =>
  match move with
  | .downstream ev => (DownstreamState.step cx x.downstream ev).map fun downstream =>
    { x with
      downstream
      events := x.events ++ downstream.mqttTx.drop x.downstream.mqttTx.length }
  | .publisher ev =>
    match ev.input with
    | .event (some _) => none
    | _ => (MqttPublisher.step cx.crates x.publisher ev).map fun publisher => { x with publisher }
  | .handle now =>
    match x.events with
    | [] => none
    | event :: events =>
      (MqttPublisher.step cx.crates x.publisher ⟨now, .event (some event)⟩).map fun publisher =>
        { x with publisher, events }
  | .lose n => some { x with events := x.events.eraseIdx n }

/-- Every answer to a limit command in flight has a status. -/
def StatusGiven (cx : ProxyContext) (x : Proxy) : ProxyMove → Prop
  | .downstream ev => x.downstream.statusGiven cx ev = true
  | _ => True

instance (cx : ProxyContext) (x : Proxy) : ∀ move, Decidable (x.StatusGiven cx move)
  | .downstream ev => inferInstanceAs (Decidable (x.downstream.statusGiven cx ev = true))
  | .publisher _ | .handle _ | .lose _ => inferInstanceAs (Decidable True)

/-- The result is that of a Call of this action which a session of the charge point sent with this
limit, and which the charger answered with one of the statuses that accept it. -/
def Accepted (cx : ProxyContext) (x : Proxy) (id : String) (result : CommandResult)
    (action : String) (limitA : Option F64) : Prop :=
  ∃ n s f status, x.downstream.sessionOf n = some (id, s) ∧ f.IsPrepared (cx.session id) ∧
    f.prepared.action = action ∧ f.prepared.appliedLimitA = limitA ∧
    status ∈ acceptedStatuses action ∧ WasAnswered cx.crates s.log f result status

/-- A limit changes in a snapshot only by folding an accepted result: the one of a Set puts in the
limit that was sent, the one of a clear takes it out. -/
def ShowsAccepted (cx : ProxyContext) (x y : Proxy) (move : ProxyMove) : Prop :=
  ∀ id, y.publisher.limitOf id ≠ x.publisher.limitOf id → ∃ now result events,
    move = .handle now ∧ x.events = .commandResult id result :: events ∧
      match y.publisher.limitOf id with
      | some limitA => x.Accepted cx id result "SetChargingProfile" (some limitA)
      | none => x.Accepted cx id result "ClearChargingProfile" none

/-- The publisher reads nothing but what the sessions have handed over. -/
structure Consistent (x : Proxy) : Prop where
  fresh : x.downstream.Fresh
  accounted : ∀ n, (x.downstream.view n).Accounted
  handed : ∀ event ∈ x.events, event ∈ x.downstream.mqttTx

section
variable {cx : ProxyContext} {x y : Proxy} {move : ProxyMove} {moves : List ProxyMove}
  {manager : ConnectionStateManager} {setup : PublisherSetup}

inductive Moved (cx : ProxyContext) (x : Proxy) : ProxyMove → Proxy → Prop
  | downstream {ev : ProxyEvent} {d : DownstreamState}
      (hd : DownstreamState.step cx x.downstream ev = some d) :
      Moved cx x (.downstream ev) { x with
        downstream := d
        events := x.events ++ d.mqttTx.drop x.downstream.mqttTx.length }
  | publisher {ev : PublisherEvent} {q : MqttPublisher}
      (hinput : ∀ event, ev.input ≠ .event (some event))
      (hq : MqttPublisher.step cx.crates x.publisher ev = some q) :
      Moved cx x (.publisher ev) { x with publisher := q }
  | handle {now : Time} {event : MqttEvent} {events : List MqttEvent} {q : MqttPublisher}
      (hevents : x.events = event :: events)
      (hq : MqttPublisher.step cx.crates x.publisher ⟨now, .event (some event)⟩ = some q) :
      Moved cx x (.handle now) { x with publisher := q, events }
  | lose (n : Nat) : Moved cx x (.lose n) { x with events := x.events.eraseIdx n }

theorem moved_of_step (hstep : step cx x move = some y) : Moved cx x move y := by
  cases move with
  | downstream ev =>
    obtain ⟨d, hd, rfl⟩ := Option.map_eq_some_iff.mp hstep
    exact .downstream hd
  | publisher ev =>
    simp only [step] at hstep
    split at hstep
    · cases hstep
    · rename_i hinput
      obtain ⟨publisher, hq, rfl⟩ := Option.map_eq_some_iff.mp hstep
      exact .publisher hinput hq
  | handle now =>
    simp only [step] at hstep
    split at hstep
    · cases hstep
    · rename_i hevents
      obtain ⟨publisher, hq, rfl⟩ := Option.map_eq_some_iff.mp hstep
      exact .handle hevents hq
  | lose n =>
    cases hstep
    exact .lose n

theorem Consistent.step (h : x.Consistent) (hstep : Proxy.step cx x move = some y) :
    y.Consistent := by
  cases moved_of_step hstep with
  | downstream hd =>
    refine ⟨h.fresh.step hd, fun n => ?_, fun event he => ?_⟩
    · exact (h.accounted n).step (DownstreamState.connectionStep_of_step n h.fresh hd)
    · obtain ⟨new, hhanded⟩ := (DownstreamState.sessionMove_of_step h.fresh h.accounted hd).handed
      dsimp only at he ⊢
      rw [hhanded, List.drop_left] at he
      rw [hhanded]
      exact (List.mem_append.mp he).elim (fun he => List.mem_append_left _ (h.handed event he))
        (List.mem_append_right _)
  | publisher => exact ⟨h.fresh, h.accounted, h.handed⟩
  | handle hevents =>
    refine ⟨h.fresh, h.accounted, fun e he => h.handed e ?_⟩
    rw [hevents]
    exact List.mem_cons_of_mem _ he
  | lose n =>
    exact ⟨h.fresh, h.accounted, fun e he => h.handed e ((List.eraseIdx_sublist _ n).subset he)⟩

theorem consistent_start : (start manager setup).Consistent where
  fresh := DownstreamState.fresh_new manager
  accounted := DownstreamState.accounted_new manager
  handed := by simp [start]

theorem consistent_of_run (hrun : (step cx).run (start manager setup) moves = some x) :
    x.Consistent :=
  (step cx).invariant (fun _ _ _ hs h => h.step hs) hrun consistent_start

structure Genuine (cx : ProxyContext) (x : Proxy) : Prop where
  consistent : x.Consistent
  downstream : x.downstream.Genuine cx

theorem Genuine.step (h : x.Genuine cx) (hgiven : x.StatusGiven cx move)
    (hstep : Proxy.step cx x move = some y) : y.Genuine cx := by
  refine ⟨h.consistent.step hstep, ?_⟩
  cases moved_of_step hstep with
  | downstream hd =>
    have hmove := DownstreamState.sessionMove_of_step h.consistent.fresh h.consistent.accounted hd
    exact h.downstream.move hgiven hmove
  | publisher => exact h.downstream
  | handle => exact h.downstream
  | lose => exact h.downstream

theorem genuine_start : (start manager setup).Genuine cx where
  consistent := consistent_start
  downstream := ⟨by simp [start, DownstreamState.new, DownstreamState.sessionOf],
    by simp [start, DownstreamState.new]⟩

/-- An accepted limit result that was handed over is about a Call the charger accepted. -/
theorem Genuine.accepted (h : x.Genuine cx) {id : String} {result : CommandResult}
    (hmem : .commandResult id result ∈ x.events) (hkind : result.isLimitResult = true)
    (haccepted : result.status = .accepted) :
    ∃ action, result.action = some action ∧
      x.Accepted cx id result action result.appliedLimitA := by
  obtain ⟨n, s, now, e, hs, he, hlocal, hevent⟩ := h.downstream.results id result
    (h.consistent.handed _ hmem)
  obtain ⟨f, status, hprepared, haction, happlied, hstatus, hanswered⟩ :=
    (h.downstream.sessions n id s hs).accepted he hlocal hevent haccepted hkind
  exact ⟨f.prepared.action, haction, n, s, f, status, hs, hprepared, rfl, happlied.symm, hstatus,
    hanswered⟩

/-- A Set sends a limit, a clear none. -/
theorem Accepted.action_cases {id action : String} {result : CommandResult} {limitA : Option F64}
    (h : x.Accepted cx id result action limitA)
    (haction : action = "SetChargingProfile" ∨ action = "ClearChargingProfile") :
    (action = "SetChargingProfile" ∧ ∃ a, limitA = some a) ∨
      (action = "ClearChargingProfile" ∧ limitA = none) := by
  obtain ⟨n, s, f, status, -, hprepared, rfl, rfl, -⟩ := h
  rcases haction with hset | hclear
  · exact .inl ⟨hset, hprepared.appliedLimitA hset⟩
  · obtain ⟨uniqueId, now, hok⟩ := hprepared
    exact .inr ⟨hclear, prepareCall_appliedLimitA hok (by simp [hclear])⟩

theorem Genuine.showsAccepted (h : x.Genuine cx) (hstep : Proxy.step cx x move = some y) :
    x.ShowsAccepted cx y move := by
  intro id hchanged
  cases moved_of_step hstep with
  | downstream => exact absurd rfl hchanged
  | publisher hinput hq =>
    exact absurd (MqttPublisher.limitOf_of_stepped (MqttPublisher.stepped_of_step hq) hinput)
      hchanged
  | @handle now event events q hevents hq =>
    cases MqttPublisher.stepped_of_step hq
    obtain ⟨result, rfl, hkind, haccepted, hlimit⟩ := MqttPublisher.limitOf_handleEvent hchanged
    refine ⟨now, result, events, rfl, hevents, ?_⟩
    have hread : .commandResult id result ∈ x.events := by
      rw [hevents]
      exact List.mem_cons_self
    obtain ⟨action, haction, hsent⟩ := h.accepted hread hkind haccepted
    rw [hlimit]
    rcases hsent.action_cases (by simpa [CommandResult.isLimitResult, haction] using hkind) with
      ⟨rfl, limitA, happlied⟩ | ⟨rfl, happlied⟩
    · rw [happlied] at hsent
      rw [if_pos haction, happlied]
      exact hsent
    · rw [happlied] at hsent
      rw [if_neg (by simp [haction])]
      exact hsent
  | lose => exact absurd rfl hchanged

/-- In every run in which each CallResult to a limit command in flight has a status, the snapshots
show only limits that the chargers accepted. -/
theorem shows_accepted_limits (hrun : (step cx).run (start manager setup) moves = some x)
    (hgiven : (step cx).Meets (StatusGiven cx) (start manager setup) moves)
    (hstep : step cx x move = some y) : x.ShowsAccepted cx y move := by
  have hgenuine : x.Genuine cx :=
    (step cx).invariant_of_meets (fun _ _ _ hC hs h => h.step hC hs) hrun hgiven genuine_start
  exact hgenuine.showsAccepted hstep

end

/-! ### A limit of 10 A -/

def tenAmps : CommandRequest := .new 0 "limit-0" (.setCurrentLimit 10) .mqtt

def answerWithoutStatus : String × Json :=
  ("[3,\"proxy-1000-1\",\x7b\x7d]", .array [.ofNat 3, .string "proxy-1000-1", .ofFields []])

def answeringContext : ProxyContext where
  crates := .ofTable [Session.acceptance, answerWithoutStatus]
  sessionConfig := {}

def limitAnswered (answer : String × Json) : List ProxyEvent :=
  [.upgrade "CP01" (some "ocpp1.6")] ++ List.replicate 6 (.advance 0 0) ++
    [.session 0 (.at 1 .connected), .dispatch "CP01" tenAmps,
      .session 0 (.at 1 (.command (some tenAmps))),
      .session 0 (.at 1 (.charger (.text answer.1)))]

/-- The publisher has read everything but the result. -/
def limitReported (answer : String × Json) : List ProxyMove :=
  (limitAnswered answer).map .downstream ++
    [.publisher ⟨0, .startup⟩, .publisher ⟨0, .poll 0 .connAck⟩, .handle 0, .handle 0, .handle 0]

theorem shows_accepted_limits_tenAmps : ∃ x y,
    (step answeringContext).run (start {} {}) (limitReported Session.acceptance) = some x ∧
    step answeringContext x (.handle 0) = some y ∧ x.publisher.limitOf "CP01" = none ∧
    y.publisher.limitOf "CP01" = some 10 ∧ x.ShowsAccepted answeringContext y (.handle 0) := by
  have hseen : ((step answeringContext).run (start {} {})
      (limitReported Session.acceptance)).bind (fun x => (step answeringContext x (.handle 0)).map
        fun y => (x.publisher.limitOf "CP01", y.publisher.limitOf "CP01")) =
          some (none, some 10) := by
    decide +kernel
  obtain ⟨x, hrun, hx⟩ := Option.bind_eq_some_iff.mp hseen
  obtain ⟨y, hstep, hlimits⟩ := Option.map_eq_some_iff.mp hx
  obtain ⟨hbefore, hafter⟩ := Prod.mk.inj hlimits
  exact ⟨x, y, hrun, hstep, hbefore, hafter,
    shows_accepted_limits hrun (by decide +kernel) hstep⟩

/-- An answer without a status puts the limit into the snapshot. -/
theorem not_shows_accepted_limits : ¬ ∀ (cx : ProxyContext) (manager : ConnectionStateManager)
    (setup : PublisherSetup) (moves : List ProxyMove) (move : ProxyMove) (x y : Proxy),
    (step cx).run (start manager setup) moves = some x → step cx x move = some y →
      x.ShowsAccepted cx y move := by
  intro h
  have hseen : ((step answeringContext).run (start {} {})
      (limitReported answerWithoutStatus)).bind (fun x => (step answeringContext x (.handle 0)).map
        fun y => (x.downstream.opened,
          (x.downstream.sessionOf 0).map fun p => p.2.trace Entry.readCharger?,
          x.publisher.limitOf "CP01", y.publisher.limitOf "CP01")) =
            some (1, some [answerWithoutStatus.1], none, some 10) := by
    decide +kernel
  obtain ⟨x, hrun, hx⟩ := Option.bind_eq_some_iff.mp hseen
  obtain ⟨y, hstep, hvalues⟩ := Option.map_eq_some_iff.mp hx
  simp only [Prod.mk.injEq] at hvalues
  obtain ⟨hopened, hread, hbefore, hafter⟩ := hvalues
  obtain ⟨now, result, events, -, -, haccepted⟩ := h _ _ _ _ _ x y hrun hstep "CP01"
    (by simp [hbefore, hafter])
  rw [hafter] at haccepted
  obtain ⟨n, s, f, status, hs, -, -, -, -, before, after, at', text, frame, hlog, -, -, -, -, -,
    hstatus⟩ := haccepted
  -- only the first task has a session, and it has read one text
  have hn : n < x.downstream.opened := by
    by_contra hlt
    have hnone := (consistent_of_run hrun).fresh n (by omega)
    simp [DownstreamState.sessionOf, hnone] at hs
  obtain rfl : n = 0 := by omega
  have htexts : s.trace Entry.readCharger? = [answerWithoutStatus.1] := by
    simpa [hs] using hread
  have hmem : text ∈ s.trace Entry.readCharger? :=
    List.mem_filterMap.mpr ⟨(at', .readCharger text), by simp [hlog], rfl⟩
  obtain rfl : text = answerWithoutStatus.1 := by simpa [htexts] using hmem
  have hnone : responseStatus answeringContext.crates answerWithoutStatus.1 = none := by
    decide +kernel
  cases hnone.symm.trans hstatus

end Proxy

end OcppProxy

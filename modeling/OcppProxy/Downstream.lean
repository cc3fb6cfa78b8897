import OcppProxy.CommandRouter
import OcppProxy.Payload
import OcppProxy.Session

/-!
# The chargers' connections

`downstream.rs`: every charger connection is a task that registers itself, runs its session and
cleans up behind it. The tasks share the connections map, the command router, the state manager and
the MQTT channel. A step is what one task does between two points where another can interleave, or
one `dispatch` of the MQTT thread.
-/

namespace OcppProxy

def ocpp16Subprotocol : String := "ocpp1.6"

def validateSubprotocol (protocols : List String) : Bool :=
  protocols.any (· == ocpp16Subprotocol)

def parseSubprotocolHeader (headerValue : String) : List String :=
  ((headerValue.toList.splitOn ',').map fun part => trim (.ofList part)).filter (!·.isEmpty)

structure ActiveConnection where
  generation : Nat
  cancel : Nat
  deriving DecidableEq, Repr

/-- How far `handle_connection` has come. -/
inductive ConnectionStage where
  /-- The upgrade was answered, the socket is not there yet. -/
  | upgrading
  /-- `register_connection` has taken its generation. -/
  | numbered
  | registered
  | routed
  /-- The downstream state is set and the pair not yet published. -/
  | connected (upstream downstream : ConnectionState)
  | announced
  | running
  /-- `run_session` has returned and its receiver is dropped. -/
  | returned
  | unrouted
  | deregistered (stillCurrent : Bool)
  /-- The downstream state is reset and the pair not yet published. -/
  | disconnected (upstream downstream : ConnectionState)
  | finished
  deriving DecidableEq, Repr

def ConnectionStage.isEarly : ConnectionStage → Bool
  | upgrading | numbered | registered | routed | connected _ _ | announced => true
  | _ => false

/-- The task of one connection. Its session is kept after it ended. -/
structure ConnectionTask where
  chargePointId : String
  stage : ConnectionStage := .upgrading
  generation : Nat := 0
  cancelled : Bool := false
  session : Option Session := none

structure ProxyContext where
  crates : Crates
  sessionConfig : SessionConfig

def ProxyContext.session (cx : ProxyContext) (chargePointId : String) : SessionContext :=
  { crates := cx.crates, config := cx.sessionConfig, chargePointId }

structure DownstreamState where
  connections : AList fun _ : String => ActiveConnection
  stateManager : ConnectionStateManager
  /-- What the tasks handed to the MQTT channel, in order. -/
  mqttTx : List MqttEvent
  shutdown : Bool
  generation : Nat
  commandRouter : CommandRouter
  inboxes : Inboxes
  tasks : Nat → Option ConnectionTask
  opened : Nat

/-- What stands in a table of tasks after one of them is set. -/
theorem eq_of_update {α : Type} {f : Nat → Option α} {a u : α} {k n : Nat}
    (h : Function.update f n (some a) k = some u) : k = n ∧ u = a ∨ k ≠ n ∧ f k = some u := by
  rw [Function.update_apply] at h
  by_cases hk : k = n
  · rw [if_pos hk, Option.some.injEq] at h
    exact .inl ⟨hk, h.symm⟩
  · rw [if_neg hk] at h
    exact .inr ⟨hk, h⟩

namespace DownstreamState

def new (stateManager : ConnectionStateManager) : DownstreamState :=
  { connections := ∅
    stateManager
    mqttTx := []
    shutdown := false
    generation := 1
    commandRouter := .empty
    inboxes := fun _ => {}
    tasks := fun _ => none
    opened := 0 }

def modifyTask (n : Nat) (f : ConnectionTask → ConnectionTask) (d : DownstreamState) :
    DownstreamState :=
  { d with tasks := Function.update d.tasks n ((d.tasks n).map f) }

def setStage (n : Nat) (stage : ConnectionStage) (d : DownstreamState) : DownstreamState :=
  d.modifyTask n ({ · with stage })

/-- `ws_upgrade_handler`; without the subprotocol it answers 400 and nothing happens. -/
def wsUpgradeHandler (chargePointId : String) (protocolHeader : Option String)
    (d : DownstreamState) : DownstreamState :=
  if protocolHeader.any fun header => validateSubprotocol (parseSubprotocolHeader header) then
    { d with
      stateManager := d.stateManager.transition .downstream .connecting
      tasks := Function.update d.tasks d.opened (some { chargePointId })
      opened := d.opened + 1 }
  else d

/-- `register_connection` under the lock: the displaced connection's token is cancelled. -/
def registerConnection (n : Nat) (task : ConnectionTask) (d : DownstreamState) :
    DownstreamState :=
  let active := { generation := task.generation, cancel := n }
  let inserted := { d with connections := d.connections.insert task.chargePointId active }
  match d.connections.lookup task.chargePointId with
  | some existing => inserted.modifyTask existing.cancel ({ · with cancelled := true })
  | none => inserted

/-- Deregister a connection, but only if it is still the current one. -/
def deregisterConnection (chargePointId : String) (generation : Nat) (d : DownstreamState) :
    Bool × DownstreamState :=
  match d.connections.lookup chargePointId with
  | some active =>
    if active.generation = generation then
      (true, { d with connections := d.connections.erase chargePointId })
    else (false, d)
  | none => (false, d)

/-- Set the downstream state; the pair is read under the same lock. -/
def transitionDownstream (newState : ConnectionState) (d : DownstreamState) :
    (ConnectionState × ConnectionState) × DownstreamState :=
  let stateManager := d.stateManager.transition .downstream newState
  ((stateManager.upstreamState, stateManager.downstreamState), { d with stateManager })

def publishStatus (chargePointId : String) (upstream downstream : ConnectionState)
    (d : DownstreamState) : DownstreamState :=
  { d with mqttTx := d.mqttTx ++ [.stateChange chargePointId upstream downstream] }

/-- Put back a session that ran, with what it did to the shared state. -/
def putSession (n : Nat) (chargePointId : String) (logged : Nat) (session : Session)
    (d : DownstreamState) : DownstreamState :=
  ({ d with
    stateManager := session.manager
    mqttTx := d.mqttTx ++ session.handedSince chargePointId logged } : DownstreamState).modifyTask n
      ({ · with session := some session })

/-- `handle_connection` from one shared access to the next. -/
def advance (cx : ProxyContext) (now : Time) (n : Nat) (task : ConnectionTask)
    (d : DownstreamState) : Option DownstreamState :=
  match task.stage with
  | .upgrading =>
    some (({ d with generation := d.generation + 1 } : DownstreamState).modifyTask n
      ({ · with generation := d.generation, stage := .numbered }))
  | .numbered => some ((d.registerConnection n task).setStage n .registered)
  | .registered =>
    some (({ d with
      inboxes := Function.update d.inboxes n {}
      commandRouter := d.commandRouter.register task.chargePointId task.generation n } :
        DownstreamState).setStage n .routed)
  | .routed =>
    let (pair, d) := d.transitionDownstream .connected
    some (d.setStage n (.connected pair.1 pair.2))
  | .connected upstream downstream =>
    some ((d.publishStatus task.chargePointId upstream downstream).setStage n .announced)
  | .announced =>
    let session := Session.start (cx.session task.chargePointId) now d.stateManager
    some ((d.putSession n task.chargePointId 0 session).setStage n .running)
  | .running =>
    if task.session.any (·.phase = .ended) then
      some (({ d with inboxes := Function.update d.inboxes n (d.inboxes n).close } :
        DownstreamState).setStage n .returned)
    else none
  | .returned =>
    some (({ d with commandRouter :=
      (d.commandRouter.deregister task.chargePointId task.generation).2 } :
        DownstreamState).setStage n .unrouted)
  | .unrouted =>
    let (stillCurrent, d) := d.deregisterConnection task.chargePointId task.generation
    some (d.setStage n (.deregistered stillCurrent))
  | .deregistered true =>
    let (pair, d) := d.transitionDownstream .disconnected
    some (d.setStage n (.disconnected pair.1 pair.2))
  | .deregistered false => some (d.setStage n .finished)
  | .disconnected upstream downstream =>
    some ((d.publishStatus task.chargePointId upstream downstream).setStage n .finished)
  | .finished => none

/-- Whether the shared state can wake the session of task `n` so: its token, its channel. -/
def admits (n : Nat) (task : ConnectionTask) (d : DownstreamState) : Input → Bool
  | .cancelled => task.cancelled || d.shutdown
  | .command (some request) | .tryRecv (some request) =>
    (d.inboxes n).queue.head? == some request
  | .tryRecv none => (d.inboxes n).queue.isEmpty
  | .command none => (d.inboxes n).queue.isEmpty &&
    !(d.commandRouter.find? task.chargePointId).any (·.tx == n)
  | .manager _ => false
  | _ => true

def sessionStep (cx : ProxyContext) (n : Nat) (task : ConnectionTask) (session : Session)
    (ev : Event) (d : DownstreamState) : Option DownstreamState :=
  if d.admits n task ev.input then
    (Session.step (cx.session task.chargePointId) { session with manager := d.stateManager } ev).map
      fun session' =>
        ({ d with inboxes := Function.update d.inboxes n ((d.inboxes n).take ev.requests.length) } :
          DownstreamState).putSession n task.chargePointId session.log.length session'
  else none

end DownstreamState

inductive ProxyEvent where
  | upgrade (chargePointId : String) (protocolHeader : Option String)
  /-- The upgrade of a task never completes. -/
  | abandon (n : Nat)
  | advance (n : Nat) (now : Time)
  | session (n : Nat) (ev : Event)
  | dispatch (chargePointId : String) (request : CommandRequest)
  | shutdown
  deriving DecidableEq, Repr

namespace DownstreamState

def step (cx : ProxyContext) : Machine DownstreamState ProxyEvent := fun d ev =>
  match ev with
  | .upgrade chargePointId protocolHeader => some (d.wsUpgradeHandler chargePointId protocolHeader)
  | .abandon n => (d.tasks n).bind fun task =>
    if task.stage = .upgrading then some (d.setStage n .finished) else none
  | .advance n now => (d.tasks n).bind fun task => d.advance cx now n task
  | .session n ev => (d.tasks n).bind fun task => task.session.bind fun session =>
    d.sessionStep cx n task session ev
  | .dispatch chargePointId request =>
    match d.commandRouter.dispatch d.inboxes chargePointId request with
    | .ok inboxes => some { d with inboxes }
    | .error _ => some d
  | .shutdown => some { d with shutdown := true }

/-! ## Task numbers -/

def Fresh (d : DownstreamState) : Prop := ∀ n, d.opened ≤ n → d.tasks n = none

section
variable {cx : ProxyContext} {d d' : DownstreamState} {ev : ProxyEvent} (m : Nat)

def SameTasks (d d' : DownstreamState) : Prop :=
  d'.opened = d.opened ∧ ∀ k, d.tasks k = none → d'.tasks k = none

theorem SameTasks.fresh (h : d.SameTasks d') (hfresh : d.Fresh) : d'.Fresh := by
  intro k hk
  exact h.2 k (hfresh k (h.1 ▸ hk))

theorem sameTasks_modifyTask {d₁ : DownstreamState} (h : d.SameTasks d₁)
    (f : ConnectionTask → ConnectionTask) : d.SameTasks (d₁.modifyTask m f) := by
  refine ⟨h.1, fun k hk => ?_⟩
  unfold modifyTask
  by_cases hkm : k = m
  · subst hkm
    simp [h.2 k hk]
  · simp [hkm, h.2 k hk]

theorem sameTasks_registerConnection (task : ConnectionTask) :
    d.SameTasks (d.registerConnection m task) := by
  unfold registerConnection
  dsimp only
  split
  · exact sameTasks_modifyTask _ ⟨rfl, fun _ => id⟩ _
  · exact ⟨rfl, fun _ => id⟩

theorem sameTasks_deregisterConnection (chargePointId : String) (generation : Nat) :
    d.SameTasks (d.deregisterConnection chargePointId generation).2 := by
  unfold deregisterConnection
  split
  · split <;> exact ⟨rfl, fun _ => id⟩
  · exact ⟨rfl, fun _ => id⟩

theorem sameTasks_advance {now : Time} {task : ConnectionTask}
    (h : d.advance cx now m task = some d') : d.SameTasks d' := by
  have hset {d₁ : DownstreamState} (stage : ConnectionStage) (h₁ : d.SameTasks d₁) :
      d.SameTasks (d₁.setStage m stage) := sameTasks_modifyTask m h₁ _
  have hsame {d₁ : DownstreamState} (htasks : d₁.tasks = d.tasks) (hopened : d₁.opened = d.opened) :
      d.SameTasks d₁ := ⟨hopened, fun k hk => htasks ▸ hk⟩
  unfold advance at h
  split at h
  · cases h
    exact sameTasks_modifyTask m (hsame rfl rfl) _
  · cases h
    exact hset _ (sameTasks_registerConnection m task)
  · cases h
    exact hset _ (hsame rfl rfl)
  · cases h
    exact hset _ (hsame rfl rfl)
  · cases h
    exact hset _ (hsame rfl rfl)
  · cases h
    exact hset _ (sameTasks_modifyTask m (hsame rfl rfl) _)
  · split at h
    · cases h
      exact hset _ (hsame rfl rfl)
    · cases h
  · cases h
    exact hset _ (hsame rfl rfl)
  · cases h
    exact hset _ (sameTasks_deregisterConnection _ _)
  · cases h
    exact hset _ (hsame rfl rfl)
  · cases h
    exact hset _ (hsame rfl rfl)
  · cases h
    exact hset _ (hsame rfl rfl)
  · cases h

theorem Fresh.step (hfresh : d.Fresh) (h : step cx d ev = some d') : d'.Fresh := by
  cases ev with
  | upgrade chargePointId protocolHeader =>
    cases h
    unfold wsUpgradeHandler
    split
    · intro k hk
      have hk : d.opened + 1 ≤ k := hk
      simp only [Function.update_of_ne (show k ≠ d.opened by omega)]
      exact hfresh k (by omega)
    · exact hfresh
  | abandon m =>
    obtain ⟨task, -, h⟩ := Option.bind_eq_some_iff.mp h
    split at h
    · cases h
      exact (sameTasks_modifyTask m ⟨rfl, fun _ => id⟩ _).fresh hfresh
    · cases h
  | advance m now =>
    obtain ⟨task, -, h⟩ := Option.bind_eq_some_iff.mp h
    exact (sameTasks_advance m h).fresh hfresh
  | session m ev =>
    obtain ⟨task, -, h⟩ := Option.bind_eq_some_iff.mp h
    obtain ⟨session, -, h⟩ := Option.bind_eq_some_iff.mp h
    unfold sessionStep at h
    split at h
    · obtain ⟨session', -, rfl⟩ := Option.map_eq_some_iff.mp h
      exact (sameTasks_modifyTask m ⟨rfl, fun _ => id⟩ _).fresh hfresh
    · cases h
  | dispatch chargePointId request =>
    simp only [DownstreamState.step] at h
    split at h <;> (cases h; exact hfresh)
  | shutdown =>
    cases h
    exact hfresh

end

end DownstreamState

end OcppProxy

import OcppProxy.CommandRouter
import OcppProxy.Forwarder
import OcppProxy.Library.Machine
import OcppProxy.Payload
import OcppProxy.Snapshot
import OcppProxy.StateManager

/-!
# The MQTT publisher

`mqtt.rs` as a machine: an input is what wakes the task, and a handler runs to its next await.
Messages go through one buffer in front of the client's request channel. The serial number and the
origin of a buffered message, and the log, are read by no handler; results are stated over them.
-/

namespace OcppProxy

/-! ## Topics and messages -/

def availabilityTopic (chargePointId : String) : String := s!"ocpp/{chargePointId}/availability"

def messageTopic (chargePointId direction action : String) : String :=
  s!"ocpp/{chargePointId}/{direction}/{action}"

def chargePointStateTopic (chargePointId : String) : String := s!"ocpp/{chargePointId}/state"

def statusTopic (chargePointId : String) : String := s!"ocpp/{chargePointId}/status"

def messageTypeStr : OcppMessageType → String
  | .call _ => "Call"
  | .callResult => "CallResult"
  | .callError => "CallError"

def directionStr : Direction → String
  | .chargerToCentral => "charger"
  | .centralToCharger => "central_system"

def connectionStateStr : ConnectionState → String
  | .connected => "connected"
  | .disconnected => "disconnected"
  | .reconnecting => "reconnecting"
  | .connecting => "connecting"

inductive QoS where
  | atMostOnce
  | atLeastOnce
  | exactlyOnce
  deriving DecidableEq, Repr

/-- An MQTT message; the payload is kept as its text. -/
structure MqttMessage where
  topic : String
  payload : String
  qos : QoS
  retain : Bool
  deriving DecidableEq, Repr

/-! ## The client -/

def requestChannelCapacity : Nat := 10

inductive ClientRequest where
  | publish (message : MqttMessage)
  | subscribe (filters : List (String × QoS))
  deriving DecidableEq, Repr

structure AsyncClient where
  requests : List ClientRequest
  length_le : requests.length ≤ requestChannelCapacity
  deriving DecidableEq

/-- Whether a topic has a `+` or a `#`, which no message may be published to. -/
def hasWildcard (topic : String) : Bool := topic.toList.any fun c => c == '+' || c == '#'

namespace AsyncClient

def new : AsyncClient := ⟨[], by simp⟩

def isFull (client : AsyncClient) : Bool :=
  decide (requestChannelCapacity ≤ client.requests.length)

def room (client : AsyncClient) : Nat := requestChannelCapacity - client.requests.length

def trySend (client : AsyncClient) (request : ClientRequest) : Option AsyncClient :=
  if h : client.requests.length < requestChannelCapacity then
    some ⟨client.requests ++ [request], by simpa using Nat.succ_le_of_lt h⟩
  else none

/-- `try_publish`: an error for a topic with a wildcard, and for a full channel. -/
def tryPublish (client : AsyncClient) (message : MqttMessage) : Option AsyncClient :=
  if hasWildcard message.topic then none else client.trySend (.publish message)

def trySubscribeMany (client : AsyncClient) (filters : List (String × QoS)) :
    Option AsyncClient :=
  client.trySend (.subscribe filters)

/-- The event loop takes requests off the channel. -/
def polled (client : AsyncClient) (taken : Nat) : AsyncClient :=
  ⟨client.requests.drop taken, (List.length_drop ▸ Nat.sub_le _ _).trans client.length_le⟩

end AsyncClient

/-! ## The publisher -/

inductive Origin where
  | enqueued
  | online
  deriving DecidableEq, Repr

structure Waiting where
  serial : Nat
  origin : Origin
  message : MqttMessage
  deriving DecidableEq, Repr

inductive PublisherEntry where
  /-- `buffer_message` put it at the back. -/
  | entered (waiting : Waiting)
  /-- `publish_online` put it in front of `backlog`. -/
  | announced (waiting : Waiting) (backlog : List Waiting)
  /-- The client accepted it, in this connection state. -/
  | accepted (waiting : Waiting) (state : ConnectionState)
  /-- `buffer_message` took it off `buffer`. -/
  | evicted (waiting : Waiting) (buffer : List Waiting)
  /-- `dispatch_command` handed it to the router. -/
  | dispatched (chargePointId : String) (request : CommandRequest)
    (outcome : Except DispatchError Unit)
  /-- `publish_command_result` folded it into a snapshot. -/
  | folded (chargePointId : String) (result : CommandResult)

inductive PublisherStage where
  | built
  /-- In `try_connect`. -/
  | starting
  /-- In `run`. -/
  | running
  | stopped
  deriving DecidableEq, Repr

structure MqttPublisher where
  stage : PublisherStage
  client : AsyncClient
  lwtChargePointId : Option String
  buffer : List Waiting
  maxBufferSize : Nat
  state : ConnectionState
  backoff : ExponentialBackoff
  chargePointState : SnapshotMap
  snapshotStore : SnapshotStore
  stateManager : Option ConnectionStateManager
  flushInProgress : Option Nat
  commandRouter : Option CommandRouter
  charging : Option ChargingConfig
  subscribePending : Bool
  linkState : AList fun _ : String => ConnectionState × ConnectionState
  /-- The channels the router's senders lead to. -/
  inboxes : Inboxes
  /-- The next serial number. -/
  nextSerial : Nat
  log : List PublisherEntry

structure PublisherSetup where
  lwtChargePointId : Option String := none
  maxBufferSize : Nat := 500
  snapshotStore : SnapshotStore := { enabled := false, file := ∅ }
  commands : Option (CommandRouter × ChargingConfig) := none
  stateManager : Option ConnectionStateManager := none

namespace MqttPublisher

def new (lwtChargePointId : Option String) (maxBufferSize : Nat) (snapshotStore : SnapshotStore) :
    MqttPublisher where
  stage := .built
  client := .new
  lwtChargePointId
  buffer := []
  maxBufferSize
  state := .disconnected
  backoff := .withDefaults (Duration.fromSecs 1) (Duration.fromSecs 30)
  chargePointState := snapshotStore.load
  snapshotStore
  stateManager := none
  flushInProgress := none
  commandRouter := none
  charging := none
  subscribePending := false
  linkState := ∅
  inboxes := fun _ => {}
  nextSerial := 0
  log := []

def withCommandRouter (p : MqttPublisher) (router : CommandRouter) (charging : ChargingConfig) :
    MqttPublisher :=
  { p with commandRouter := some router, charging := some charging }

def withStateManager (p : MqttPublisher) (manager : ConnectionStateManager) : MqttPublisher :=
  { p with stateManager := some manager }

def build (setup : PublisherSetup) : MqttPublisher :=
  let p := new setup.lwtChargePointId setup.maxBufferSize setup.snapshotStore
  let p := match setup.commands with
    | some (router, charging) => p.withCommandRouter router charging
    | none => p
  match setup.stateManager with
  | some manager => p.withStateManager manager
  | none => p

def note (p : MqttPublisher) (entries : List PublisherEntry) : MqttPublisher :=
  { p with log := p.log ++ entries }

def setState (newState : ConnectionState) (p : MqttPublisher) : MqttPublisher :=
  { p with state := newState, stateManager := p.stateManager.map (·.transition .mqtt newState) }

/-! ### The buffer -/

/-- Hand the front of a buffer to the client until it refuses: what it accepted, what is left. -/
def handOver : AsyncClient → List Waiting → List Waiting × List Waiting × AsyncClient
  | client, [] => ([], [], client)
  | client, waiting :: rest =>
    match client.tryPublish waiting.message with
    | some client =>
      let (accepted, buffer, client) := handOver client rest
      (waiting :: accepted, buffer, client)
    | none => ([], waiting :: rest, client)

def drainBuffer (p : MqttPublisher) : MqttPublisher :=
  let (accepted, buffer, client) := handOver p.client p.buffer
  ({ p with
    client, buffer
    flushInProgress := p.flushInProgress.bind fun published =>
      if buffer.isEmpty then none else some (published + accepted.length) } : MqttPublisher).note
    (accepted.map fun waiting => .accepted waiting p.state)

/-- Buffer a message; a full buffer evicts its oldest. -/
def bufferMessage (message : MqttMessage) (p : MqttPublisher) : MqttPublisher :=
  let waiting : Waiting := { serial := p.nextSerial, origin := .enqueued, message }
  let full := decide (p.maxBufferSize ≤ p.buffer.length)
  let evicted := if full then p.buffer.head?.toList else []
  let kept := if full then p.buffer.tail else p.buffer
  ({ p with buffer := kept ++ [waiting], nextSerial := p.nextSerial + 1 } : MqttPublisher).note
    (evicted.map (fun w => .evicted w p.buffer) ++ [.entered waiting])

def drainIfConnected (p : MqttPublisher) : MqttPublisher :=
  if p.state = .connected then p.drainBuffer else p

def enqueue (message : MqttMessage) (p : MqttPublisher) : MqttPublisher :=
  (p.bufferMessage message).drainIfConnected

def publishOnline (p : MqttPublisher) : MqttPublisher :=
  match p.lwtChargePointId with
  | none => p
  | some id =>
    let waiting : Waiting :=
      { serial := p.nextSerial, origin := .online
        message := { topic := availabilityTopic id, payload := "online", qos := .atLeastOnce
                     retain := true } }
    (({ p with buffer := waiting :: p.buffer, nextSerial := p.nextSerial + 1 } :
      MqttPublisher).note [.announced waiting p.buffer]).drainBuffer

def flushBuffer (p : MqttPublisher) : MqttPublisher :=
  if p.buffer.isEmpty then p else ({ p with flushInProgress := some 0 } : MqttPublisher).drainBuffer

def trySubscribe (p : MqttPublisher) : MqttPublisher :=
  if !p.subscribePending then p
  else match p.client.trySubscribeMany (commandSubscriptions.map fun f => (f, .atLeastOnce)) with
    | some client => { p with client, subscribePending := false }
    | none => p

/-! ### Snapshots and commands -/

section
variable (crates : Crates) (now : Time)

def publishChargePointState (chargePointId : String) (snapshot : ChargePointState)
    (p : MqttPublisher) : MqttPublisher :=
  p.enqueue { topic := chargePointStateTopic chargePointId, payload := crates.toText snapshot.toJson
              qos := .atLeastOnce, retain := true }

def republishSnapshots (p : MqttPublisher) : MqttPublisher :=
  p.chargePointState.entries.foldl (fun p e => p.publishChargePointState crates e.1 e.2) p

def snapshotOf (p : MqttPublisher) (chargePointId : String) : ChargePointState :=
  (p.chargePointState.lookup chargePointId).getD {}

/-- Store a snapshot; if it changed, save the map and publish it. -/
def storeSnapshot (chargePointId : String) (folded : Bool × ChargePointState)
    (p : MqttPublisher) : MqttPublisher :=
  let p := { p with chargePointState := p.chargePointState.insert chargePointId folded.2 }
  if folded.1 then
    ({ p with snapshotStore := p.snapshotStore.save p.chargePointState } :
      MqttPublisher).publishChargePointState crates chargePointId folded.2
  else p

def publishCommandResult (chargePointId : String) (result : CommandResult) (p : MqttPublisher) :
    MqttPublisher :=
  let p := p.enqueue { topic := commandResultTopic chargePointId
                       payload := crates.toText result.toJson, qos := .atLeastOnce
                       retain := false }
  (p.note [.folded chargePointId result]).storeSnapshot crates chargePointId
    ((p.snapshotOf chargePointId).applyCommandResult crates now result)

def refusalOf : DispatchError → CommandStatus × String
  | .notConnected => (.notConnected, "no charger with this id is connected to the proxy")
  | .queueFull => (.rejected, "the session's command queue is full")

def dispatchCommand (chargePointId : String) (request : CommandRequest) (p : MqttPublisher) :
    MqttPublisher :=
  match p.commandRouter with
  | none => p.publishCommandResult crates now chargePointId (.forRequest crates now request
      .rejected (some "charger commands are disabled on this proxy"))
  | some router =>
    match router.dispatch p.inboxes chargePointId request with
    | .ok inboxes =>
      ({ p with inboxes } : MqttPublisher).note [.dispatched chargePointId request (.ok ())]
    | .error e =>
      let (status, detail) := refusalOf e
      (p.note [.dispatched chargePointId request (.error e)]).publishCommandResult crates now
        chargePointId (.forRequest crates now request status (some detail))

/-- The limit `maybe_reapply_limit` finds standing. -/
def limitToReapply (p : MqttPublisher) (chargePointId : String) : Option F64 :=
  if p.charging.any (·.reapplyOnConnect) then
    ((p.chargePointState.lookup chargePointId).filter
      fun st => st.currentLimitStatus == some "accepted").bind (·.currentLimitA)
  else none

def reapplyRequest (limitA : F64) : CommandRequest :=
  .new now (CommandRequest.generatedId now "reapply") (.setCurrentLimit limitA) .reapply

def maybeReapplyLimit (chargePointId : String) (p : MqttPublisher) : MqttPublisher :=
  match p.limitToReapply chargePointId with
  | none => p
  | some limitA => p.dispatchCommand crates now chargePointId (reapplyRequest now limitA)

def handleIncomingPublish (topic : String) (payload : ByteArray) (p : MqttPublisher) :
    MqttPublisher :=
  match parseCommandTopic topic with
  | none => p
  | some (chargePointId, kind) =>
    match parseCommandPayload crates now kind payload with
    | .error reason =>
      p.publishCommandResult crates now chargePointId (.invalidPayload crates now reason)
    | .ok request => p.dispatchCommand crates now chargePointId request

/-! ### Events -/

def onConnack (p : MqttPublisher) : MqttPublisher :=
  let p := p.setState .connected
  let p := { p with backoff := p.backoff.reset }
  let p := (p.publishOnline.flushBuffer).republishSnapshots crates
  ({ p with subscribePending := p.commandRouter.isSome } : MqttPublisher).trySubscribe

/-- The text of a forwarded frame as the payload of its message. -/
def messagePayload (frame : OcppFrame) : Json :=
  let payload := match crates.fromStr frame.raw with
    | .ok value => value
    | .error _ => .string frame.raw
  .object [("timestamp", .string (crates.rfc3339 frame.receivedAt)),
    ("message_type", .string (messageTypeStr frame.messageType)), ("payload", payload)]

def statusPayload (upstream downstream : ConnectionState) : Json :=
  .object [("upstream", .string (connectionStateStr upstream)),
    ("downstream", .string (connectionStateStr downstream))]

/-- Whether the last state change of a charge point had both links up. -/
def wasUp (p : MqttPublisher) (chargePointId : String) : Bool :=
  p.linkState.lookup chargePointId == some (.connected, .connected)

def handleEvent (event : MqttEvent) (p : MqttPublisher) : MqttPublisher :=
  match event with
  | .messageForwarded chargePointId frame direction action =>
    let p := p.enqueue
      { topic := messageTopic chargePointId (directionStr direction) action
        payload := crates.toText (messagePayload crates frame), qos := .atLeastOnce
        retain := false }
    p.storeSnapshot crates chargePointId
      ((p.snapshotOf chargePointId).apply crates now action frame.messageType frame.raw)
  | .stateChange chargePointId upstream downstream =>
    let p := p.enqueue
      { topic := statusTopic chargePointId
        payload := crates.toText (statusPayload upstream downstream), qos := .atLeastOnce
        retain := true }
    let wasUp := p.wasUp chargePointId
    let p := { p with linkState := p.linkState.insert chargePointId (upstream, downstream) }
    if upstream = .connected ∧ downstream = .connected ∧ !wasUp then
      p.maybeReapplyLimit crates now chargePointId
    else p
  | .commandResult chargePointId result => p.publishCommandResult crates now chargePointId result

end

end MqttPublisher

/-! ## The machine -/

inductive Polled where
  | connAck
  | publish (topic : String) (payload : ByteArray)
  | other
  | error

inductive PublisherInput where
  /-- `try_connect` begins. -/
  | startup
  /-- `try_connect` gives up. -/
  | startupTimeout
  /-- A poll that took requests off the channel. -/
  | poll (taken : Nat) (event : Polled)
  /-- What `event_rx` yields. -/
  | event (event : Option MqttEvent)
  /-- A message from a caller outside the module. -/
  | enqueue (message : MqttMessage)
  /-- Other tasks changed what they share with the publisher. -/
  | world (router : CommandRouter) (inboxes : Inboxes) (manager : ConnectionStateManager)

structure PublisherEvent where
  now : Time
  input : PublisherInput

namespace MqttPublisher

/-- What a poll takes off the request channel. Assumed of `rumqttc`: a poll that fails takes all of
it (`EventLoop::clean`), to send it once there is a connection again. -/
def takenOff (taken : Nat) (event : Polled) (p : MqttPublisher) : Nat :=
  match event with
  | .error => p.client.requests.length
  | _ => taken

def afterPoll (taken : Nat) (p : MqttPublisher) : MqttPublisher :=
  { p with client := p.client.polled taken }

def onPollError (p : MqttPublisher) : MqttPublisher :=
  let p := if p.state = .connected then p.setState .reconnecting else p
  { p with backoff := p.backoff.nextDelay.2 }

def onPolled (crates : Crates) (now : Time) (event : Polled) (p : MqttPublisher) : MqttPublisher :=
  match event with
  | .connAck => p.onConnack crates
  | .publish topic payload => (p.handleIncomingPublish crates now topic payload).drainIfConnected
  | .other => if p.state = .connected then p.trySubscribe.drainBuffer else p
  | .error => p.onPollError

def step (crates : Crates) : Machine MqttPublisher PublisherEvent := fun p ev =>
  match p.stage, ev.input with
  | _, .world router inboxes manager => some { p with
      commandRouter := p.commandRouter.map fun _ => router
      inboxes
      stateManager := p.stateManager.map fun _ => manager }
  | _, .enqueue message => some (p.enqueue message)
  | .built, .startup => some { p.setState .connecting with stage := .starting }
  | .starting, .startupTimeout => some { p.setState .reconnecting with stage := .running }
  | .starting, .poll taken .connAck =>
    some { (p.afterPoll taken).onConnack crates with stage := .running }
  | .starting, .poll taken .error =>
    some { p.afterPoll (p.takenOff taken .error) with backoff := p.backoff.nextDelay.2 }
  | .starting, .poll taken event => some (p.afterPoll (p.takenOff taken event))
  | .running, .poll taken event =>
    some ((p.afterPoll (p.takenOff taken event)).onPolled crates ev.now event)
  | .running, .event (some event) => some (p.handleEvent crates ev.now event)
  | .running, .event none => some { p with stage := .stopped }
  | _, _ => none

end MqttPublisher

end OcppProxy

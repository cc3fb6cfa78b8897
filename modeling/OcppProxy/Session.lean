import OcppProxy.Library.Machine
import OcppProxy.Forwarder
import OcppProxy.LocalCallQueue
import OcppProxy.StateManager

/-!
# One charger's session

`run_session` as a machine. A phase is a place where the task awaits; an event is what it is woken
by, with the time and what the two sockets will accept. A handler runs from one await to the next.
The log records what passes the session's boundary, in order.
-/

namespace OcppProxy

def closeNormal : Nat := 1000

def closeGoingAway : Nat := 1001

/-- Where `run_session` awaits. -/
inductive Phase where
  /-- `connect_upstream`. -/
  | connecting
  /-- The select after a failed connect; the sleep ends at `deadline`. -/
  | backingOff (deadline : Time)
  /-- The select of `forward_loop`. -/
  | forwarding
  /-- The select after a lost upstream; the sleep ends at `deadline`. -/
  | upstreamLost (deadline : Time)
  /-- The `try_recv` drain. -/
  | draining
  /-- The close frame, the pause and the writer's end. -/
  | closing
  /-- `run_session` has returned. -/
  | ended
  deriving DecidableEq, Repr

/-- What passes the boundary of a session. -/
inductive Entry where
  /-- A text frame read from the charger. -/
  | readCharger (text : String)
  /-- A text frame read from the Central System. -/
  | readCentral (text : String)
  /-- A text the upstream sink accepted. -/
  | toCentral (text : String)
  /-- A Central System text handed to the charger's writer. -/
  | toCharger (text : String)
  /-- A proxy Call handed to the charger's writer. -/
  | call (request : CommandRequest) (prepared : PreparedCall)
  /-- A charger text kept from the Central System: it answers the Call in flight. -/
  | consumed (text : String)
  /-- A frame evicted from the upstream buffer. -/
  | evicted (frame : OcppFrame)
  /-- A request read from `command_rx`. -/
  | received (request : CommandRequest)
  /-- The result of a request that `newer` displaced from the queue. -/
  | displaced (newer request : CommandRequest) (result : CommandResult)
  /-- The result of a request that was never sent. -/
  | refused (request : CommandRequest) (result : CommandResult)
  /-- The result of a Call that was sent. -/
  | settled (inFlight : InFlight) (result : CommandResult)
  /-- Any other event handed to the MQTT channel. -/
  | event (event : MqttEvent)
  /-- The close frame for the charger. -/
  | close (code : Nat)
  deriving Repr

def Entry.mqttEvent? (chargePointId : String) : Entry → Option MqttEvent
  | .event e => some e
  | .displaced _ _ result | .refused _ result | .settled _ result =>
    some (.commandResult chargePointId result)
  | _ => none

/-- What an event brings besides its kind: the time, how many texts the upstream socket still
accepts and whether the charger's writer is still there. -/
structure Env where
  now : Time
  upstreamRoom : Option Nat := none
  chargerUp : Bool := true
  deriving DecidableEq, Repr

inductive ChargerMessage where
  | text (text : String)
  | binary
  | close
  | other
  | error
  | none
  deriving DecidableEq, Repr

inductive CentralMessage where
  | text (text : String)
  | ping
  | close
  | other
  | error
  | none
  deriving DecidableEq, Repr

inductive Input where
  | connectFailed
  | connected
  | timer
  | cancelled
  | charger (message : ChargerMessage)
  | central (message : CentralMessage)
  | command (request : Option CommandRequest)
  | commandTick
  | housekeeping
  | tryRecv (request : Option CommandRequest)
  | closed
  /-- Another task changed the shared state manager. -/
  | manager (manager : ConnectionStateManager)
  deriving DecidableEq, Repr

def Input.chargerText : Input → Option String
  | charger (.text text) => some text
  | _ => none

def Input.centralText : Input → Option String
  | central (.text text) => some text
  | _ => none

structure Event where
  env : Env
  input : Input
  deriving DecidableEq, Repr

def Event.requests (ev : Event) : List CommandRequest :=
  match ev.input with
  | .command request | .tryRecv request => request.toList
  | _ => []

structure SessionContext where
  crates : Crates
  config : SessionConfig
  chargePointId : String

structure Session where
  phase : Phase
  clock : Time
  forwarder : MessageForwarder
  backoff : ExponentialBackoff
  reconnectingSince : Option Time
  closeCode : Nat
  localCalls : LocalCallQueue
  commandsOpen : Bool
  manager : ConnectionStateManager
  log : List (Time × Entry)

inductive LoopOutcome where
  | chargerGone
  | upstreamLost
  | shutdown
  deriving DecidableEq, Repr

def Env.upstreamSink (env : Env) : WireSink :=
  { room := env.upstreamRoom
    failure := .connectionUpstream "Failed to send to Central System" }

def Env.chargerSink (env : Env) : WireSink :=
  { room := if env.chargerUp then none else some 0
    failure := .forwarding "Charger connection closed" }

namespace Session

def note (s : Session) (now : Time) (entry : Entry) : Session :=
  { s with log := s.log ++ [(now, entry)] }

def noteAll (s : Session) (now : Time) (entries : List Entry) : Session :=
  { s with log := s.log ++ entries.map fun entry => (now, entry) }

/-- What the session handed to the MQTT channel after the first `n` entries of its log. -/
def handedSince (chargePointId : String) (n : Nat) (s : Session) : List MqttEvent :=
  (s.log.drop n).filterMap fun e => e.2.mqttEvent? chargePointId

/-- Record an upstream state transition and publish the pair, unless the state is the same. -/
def setUpstreamState (cx : SessionContext) (now : Time) (newState : ConnectionState)
    (s : Session) : Session :=
  if s.manager.upstreamState = newState then s
  else
    let manager := s.manager.transition .upstream newState
    ({ s with manager } : Session).note now (.event
      (.stateChange cx.chargePointId manager.upstreamState manager.downstreamState))

/-- The top of the session loop, up to the await of `connect_upstream`. -/
def enterConnecting (cx : SessionContext) (now : Time) (s : Session) : Session :=
  { s.setUpstreamState cx now .connecting with phase := .connecting }

/-- `run_session` up to its first await. -/
def start (cx : SessionContext) (now : Time) (manager : ConnectionStateManager) : Session :=
  enterConnecting cx now
    { phase := .connecting
      clock := now
      forwarder := .withChargePointId cx.config.messageBufferSize cx.config.maxBufferDuration
        cx.config.callTrackerMaxAge cx.chargePointId
      backoff := .withDefaults cx.config.initialBackoff cx.config.maxBackoff
      reconnectingSince := none
      closeCode := closeNormal
      localCalls := .new cx.config.charging.commandTimeout commandChannelCapacity
      commandsOpen := true
      manager
      log := [] }

/-! ## Proxy commands -/

/-- `emit_command_result` for a request that was never sent. -/
def refuse (cx : SessionContext) (now : Time) (request : CommandRequest) (status : CommandStatus)
    (detail : String) (s : Session) : Session :=
  s.note now (.refused request (.forRequest cx.crates now request status (some detail)))

/-- `emit_command_result` for a Call that was sent. -/
def settle (cx : SessionContext) (now : Time) (inFlight : InFlight) (status : CommandStatus)
    (response : Option Json) (detail : Option String) (s : Session) : Session :=
  s.note now (.settled inFlight (.forInFlight cx.crates now inFlight status response detail))

/-- The loop of `send_local_calls`; `error` where the charger connection is gone. The fuel is the
length of the queue, of which each turn pops one. -/
def sendLoop (cx : SessionContext) (env : Env) : Nat → Session → Except Session Session
  | 0, s => .ok s
  | fuel + 1, s =>
    match s.localCalls.popNext with
    | none => .ok s
    | some (request, calls) =>
      let (uniqueId, calls) := calls.nextUniqueId env.now
      let s := { s with localCalls := calls }
      match prepareCall cx.crates cx.config.charging request uniqueId env.now with
      | .error reason => sendLoop cx env fuel (s.refuse cx env.now request .invalid reason)
      | .ok prepared =>
        match MessageSink.sendRaw env.chargerSink prepared.raw with
        | (.error _, _) => .error (s.refuse cx env.now request .notConnected
            "charger connection closed before the command was sent")
        | (.ok (), _) =>
          .ok (({ s with localCalls := calls.setInFlight request prepared env.now } : Session).note
            env.now (.call request prepared))

def sendLocalCalls (cx : SessionContext) (env : Env) (s : Session) : Except Session Session :=
  if s.localCalls.hasInFlight || s.localCalls.isEmpty then .ok s
  else if s.forwarder.hasRecentPendingCall env.now .centralToCharger centralCallGrace then .ok s
  else sendLoop cx env s.localCalls.queuedLen s

def completeLocalCall (cx : SessionContext) (now : Time) (inFlight : InFlight) (frame : OcppFrame)
    (s : Session) : Session :=
  let (status, response, detail) := interpretResponse cx.crates inFlight.prepared.action frame
  s.settle cx now inFlight status response detail

/-! ## Leaving the forwarding loop -/

/-- The state manager with the frames left in the buffers counted as dropped. -/
def countUndelivered (s : Session) : ConnectionStateManager :=
  let dropped := s.forwarder.upstreamBuffer.length + s.forwarder.downstreamBuffer.length
  if 0 < dropped then
    (s.manager.recordDropped .chargerToCentral s.forwarder.upstreamBuffer.length).recordDropped
      .centralToCharger s.forwarder.downstreamBuffer.length
  else s.manager

/-- After the session loop, up to the first `try_recv`: count what is left in the buffers and answer
for the local calls. -/
def beginTeardown (cx : SessionContext) (now : Time) (s : Session) : Session :=
  let (queued, inFlight, localCalls) := s.localCalls.drain
  let s := { s with manager := s.countUndelivered, localCalls, phase := .draining }
  let s := queued.foldl (fun s request => s.refuse cx now request .notConnected
    "charger session ended before the command was sent") s
  match inFlight with
  | some f => s.settle cx now f .timeout none (some "charger session ended before it answered")
  | none => s

def onUpstreamLost (cx : SessionContext) (now : Time) (s : Session) : Session :=
  let s := { s with forwarder := s.forwarder.discardDownstreamBuffer }
  let s := s.setUpstreamState cx now .reconnecting
  let (delay, backoff) := s.backoff.nextDelay
  { s with
    reconnectingSince := some (s.reconnectingSince.getD now)
    backoff
    phase := .upstreamLost (now + delay) }

/-- What an arm of the forwarding loop leaves: the session, and why the loop ends if it does. -/
abbrev Arm := Session × Option LoopOutcome

def sendThen (cx : SessionContext) (env : Env) (s : Session) : Arm :=
  match s.sendLocalCalls cx env with
  | .ok s => (s, none)
  | .error s => (s, some .chargerGone)

def finishArm (cx : SessionContext) (now : Time) : Arm → Session
  | (s, none) => s
  | (s, some .upstreamLost) => s.onUpstreamLost cx now
  | (s, some .chargerGone) | (s, some .shutdown) => s.beginTeardown cx now

/-! ## The arms of the forwarding loop -/

def forwardCharger (cx : SessionContext) (env : Env) (text : String) (frame : OcppFrame)
    (s : Session) : Arm :=
  let f := s.forwarder.forwardUpstream env.now frame env.upstreamSink
  let s := ({ s with forwarder := f.forwarder } : Session).noteAll env.now
    (f.sink.sent.map .toCentral ++ f.events.map .event)
  match f.result with
  | .ok () =>
    let s := { s with manager := s.manager.recordForwarded .chargerToCentral }
    -- a charger response may have cleared the line for a waiting proxy Call
    if !s.localCalls.isEmpty then s.sendThen cx env else (s, none)
  | .error _ =>
    match OcppFrame.parse cx.crates env.now text with
    | .ok frame =>
      let (evicted, forwarder) := s.forwarder.bufferUpstream frame
      (({ s with forwarder } : Session).noteAll env.now (evicted.toList.map .evicted),
        some .upstreamLost)
    | .error _ => (s, some .upstreamLost)

def chargerText (cx : SessionContext) (env : Env) (text : String) (s : Session) : Arm :=
  let s := s.note env.now (.readCharger text)
  match OcppFrame.parse cx.crates env.now text with
  | .ok frame =>
    let ours := if frame.messageType.isCall then none else s.localCalls.takeResponse frame.uniqueId
    match ours with
    | some (inFlight, localCalls) =>
      let s := ({ s with localCalls } : Session).note env.now (.consumed text)
      (s.completeLocalCall cx env.now inFlight frame).sendThen cx env
    | none => s.forwardCharger cx env text frame
  | .error _ =>
    let (result, sink) := MessageSink.sendRaw env.upstreamSink text
    let s := s.noteAll env.now (sink.sent.map .toCentral)
    match result with
    | .ok () => (s, none)
    | .error _ => (s, some .upstreamLost)

def chargerArm (cx : SessionContext) (env : Env) (message : ChargerMessage) (s : Session) : Arm :=
  match message with
  | .text text => s.chargerText cx env text
  | .binary | .other => (s, none)
  | .close | .none | .error => (s, some .chargerGone)

def centralText (cx : SessionContext) (env : Env) (text : String) (s : Session) : Arm :=
  let s := s.note env.now (.readCentral text)
  match OcppFrame.parse cx.crates env.now text with
  | .ok frame =>
    let f := s.forwarder.forwardDownstream env.now frame env.chargerSink
    let s := ({ s with forwarder := f.forwarder } : Session).noteAll env.now
      (f.sink.sent.map .toCharger ++ f.events.map .event)
    match f.result with
    | .ok () => ({ s with manager := s.manager.recordForwarded .centralToCharger }, none)
    | .error _ => (s, some .chargerGone)
  | .error _ =>
    let (result, sink) := MessageSink.sendRaw env.chargerSink text
    let s := s.noteAll env.now (sink.sent.map .toCharger)
    match result with
    | .ok () => (s, none)
    | .error _ => (s, some .chargerGone)

def centralArm (cx : SessionContext) (env : Env) (message : CentralMessage) (s : Session) : Arm :=
  match message with
  | .text text => s.centralText cx env text
  | .ping => (s, if env.upstreamRoom = some 0 then some .upstreamLost else none)
  | .other => (s, none)
  | .close | .none | .error => (s, some .upstreamLost)

def displacedStatus (request : CommandRequest) : CommandStatus × String :=
  if request.command.isLimitCommand then
    (.superseded, "a newer limit command arrived before this one was sent")
  else (.rejected, "command queue full; oldest dropped")

def noteDisplaced (cx : SessionContext) (now : Time) (newer : CommandRequest) (s : Session)
    (request : CommandRequest) : Session :=
  let (status, detail) := displacedStatus request
  s.note now (.displaced newer request (.forRequest cx.crates now request status (some detail)))

def commandArm (cx : SessionContext) (env : Env) (request : Option CommandRequest) (s : Session) :
    Arm :=
  match request with
  | some request =>
    let (displaced, localCalls) := s.localCalls.push request
    let s := ({ s with localCalls } : Session).note env.now (.received request)
    (displaced.foldl (noteDisplaced cx env.now request) s).sendThen cx env
  | none => ({ s with commandsOpen := false }, none)

def commandTickArm (cx : SessionContext) (env : Env) (s : Session) : Arm :=
  let timeoutS := cx.config.charging.commandTimeoutSeconds
  let (expired, inFlight, localCalls) := s.localCalls.expire env.now
  let s := { s with localCalls }
  let s := expired.foldl (fun s request => s.refuse cx env.now request .timeout
    (s!"not sent within {timeoutS} s (the charger was busy answering the " ++
      "Central System, or the line was down)")) s
  let s := match inFlight with
    | some f => s.settle cx env.now f .timeout none
        (some s!"no answer from the charger within {timeoutS} s")
    | none => s
  s.sendThen cx env

def housekeepingArm (env : Env) (s : Session) : Session :=
  let evicted := s.forwarder.upstreamBuffer.filter (!s.forwarder.isFresh env.now ·)
  let forwarder := ((s.forwarder.evictExpiredMessages env.now).2.cleanupExpiredCalls env.now).2
  ({ s with forwarder } : Session).noteAll env.now (evicted.map .evicted)

/-! ## The other awaits -/

/-- `connect_upstream` failed: give up after the window, else back off. -/
def onConnectFailed (cx : SessionContext) (now : Time) (s : Session) : Session :=
  let started := s.reconnectingSince.getD now
  let s := { s with reconnectingSince := some started }
  let elapsed : Duration := (now - started).toNat
  if cx.config.maxReconnectWindow ≤ elapsed then
    ({ s with closeCode := closeGoingAway } : Session).beginTeardown cx now
  else
    let s := s.setUpstreamState cx now .reconnecting
    let (delay, backoff) := s.backoff.nextDelay
    let delay := min delay (max (cx.config.maxReconnectWindow - elapsed) (Duration.fromMillis 1))
    { s with backoff, phase := .backingOff (now + delay) }

/-- `connect_upstream` succeeded: replay the buffer, then forward. -/
def onConnected (cx : SessionContext) (env : Env) (s : Session) : Session :=
  let s := { s with backoff := s.backoff.reset, reconnectingSince := none }
  let s := s.setUpstreamState cx env.now .connected
  let (result, forwarder, sink) := s.forwarder.flushUpstream env.upstreamSink
  let s := ({ s with forwarder } : Session).noteAll env.now (sink.sent.map .toCentral)
  match result with
  | .ok n =>
    { s with
      manager := (fun m => m.recordForwarded .chargerToCentral)^[n] s.manager
      phase := .forwarding }
  | .error _ => s.enterConnecting cx env.now

/-- The charger's arm of the select after a failed connect: whatever it sends is read and dropped,
and only its going away matters. -/
def onChargerWhileBackingOff (cx : SessionContext) (now : Time) (message : ChargerMessage)
    (s : Session) : Session :=
  match message with
  | .none | .error | .close => s.beginTeardown cx now
  | .text text => (s.note now (.readCharger text)).enterConnecting cx now
  | .binary | .other => s.enterConnecting cx now

/-- One turn of the final `try_recv` loop. -/
def onTryRecv (cx : SessionContext) (now : Time) (request : Option CommandRequest) (s : Session) :
    Session :=
  match request with
  | some request => (s.note now (.received request)).refuse cx now request .notConnected
      "charger session ended before the command was sent"
  | none => ({ s with phase := .closing } : Session).note now (.close s.closeCode)

def onClosed (cx : SessionContext) (now : Time) (s : Session) : Session :=
  { s.setUpstreamState cx now .disconnected with phase := .ended }

/-! ## The machine -/

def handle (cx : SessionContext) (env : Env) (input : Input) (s : Session) : Option Session :=
  match s.phase, input with
  | _, .manager manager => some { s with manager }
  | .connecting, .connectFailed => some (s.onConnectFailed cx env.now)
  | .connecting, .connected => some (s.onConnected cx env)
  | .backingOff deadline, .timer =>
    if deadline ≤ env.now then some (s.enterConnecting cx env.now) else none
  | .backingOff _, .cancelled => some (s.beginTeardown cx env.now)
  | .backingOff _, .charger message => some (s.onChargerWhileBackingOff cx env.now message)
  | .forwarding, .charger message => some (finishArm cx env.now (s.chargerArm cx env message))
  | .forwarding, .central message => some (finishArm cx env.now (s.centralArm cx env message))
  | .forwarding, .command request =>
    if s.commandsOpen then some (finishArm cx env.now (s.commandArm cx env request)) else none
  | .forwarding, .commandTick =>
    if s.localCalls.isEmpty then none
    else some (finishArm cx env.now (s.commandTickArm cx env))
  | .forwarding, .housekeeping => some (s.housekeepingArm env)
  | .forwarding, .cancelled => some (finishArm cx env.now (s, some .shutdown))
  | .upstreamLost deadline, .timer =>
    if deadline ≤ env.now then some (s.enterConnecting cx env.now) else none
  | .upstreamLost _, .cancelled => some (s.beginTeardown cx env.now)
  | .draining, .tryRecv request => some (s.onTryRecv cx env.now request)
  | .closing, .closed => some (s.onClosed cx env.now)
  | _, _ => none

/-- One step of a session; events come in the order of their times. -/
def step (cx : SessionContext) : Machine Session Event := fun s ev =>
  if s.clock ≤ ev.env.now then ({ s with clock := ev.env.now } : Session).handle cx ev.env ev.input
  else none

end Session

/-! ## Small inputs -/

def SessionContext.ofTable (table : List (String × Json)) : SessionContext where
  crates := .ofTable table
  config := {}
  chargePointId := "CP01"

def Event.at (second : Nat) (input : Input) : Event :=
  { env := { now := Duration.fromSecs second }, input }

/-- An input while the upstream socket takes no more text. -/
def Event.upstreamDownAt (second : Nat) (input : Input) : Event :=
  { env := { now := Duration.fromSecs second, upstreamRoom := some 0 }, input }

namespace Session

def runOfTable (table : List (String × Json)) (events : List Event) : Option Session :=
  (step (.ofTable table)).run (start (.ofTable table) 0 {}) events

end Session

end OcppProxy

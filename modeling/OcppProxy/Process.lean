import OcppProxy.Downstream
import OcppProxy.ProxyConfig

/-!
# The process

`main.rs`: the connection tasks and the MQTT thread over one state manager and one command router,
the bounded channel from the one to the other, and the shutdown. A step is one of a task, of the
MQTT thread, of the channel or of `main`.
-/

namespace OcppProxy

def mqttChannelCapacity : Nat := 1000

def drainTimeout : Duration := Duration.fromSecs 10

def drainInterval : Duration := Duration.fromMillis 100

inductive MainStage where
  /-- The charger listener is not bound yet. -/
  | starting
  | serving
  /-- The drain loop gives up at `deadline` and looks again at `wake`; it has slept `sleeps` times. -/
  | draining (deadline wake : Time) (sleeps : Nat)
  /-- The loop has left this many connections, and the MQTT thread is joined. -/
  | joining (remaining : Nat)
  | stopped
  deriving DecidableEq, Repr

def ProxyEvent.isTask : ProxyEvent → Bool
  | dispatch .. | shutdown => false
  | _ => true

def PublisherInput.isBroker : PublisherInput → Bool
  | startup | startupTimeout | poll .. => true
  | _ => false

structure Process where
  main : MainStage
  downstream : DownstreamState
  publisher : MqttPublisher
  /-- The channel to the MQTT thread. -/
  events : List MqttEvent
  /-- How many of the events the tasks handed over have come to the channel. -/
  offered : Nat
  /-- What the publisher took out of the channel; read by no step. -/
  taken : List MqttEvent
  /-- What the channel did not take; read by no step. -/
  refused : List MqttEvent
  /-- What the channel took and did not deliver; read by no step. -/
  abandoned : List MqttEvent

inductive ProcessEvent where
  /-- A connection task goes on, or a new one comes. -/
  | task (ev : ProxyEvent)
  /-- The `try_send` of the next event. -/
  | offer
  /-- The MQTT thread is woken by its broker connection. -/
  | publisher (ev : PublisherEvent)
  /-- The MQTT thread takes the next event. -/
  | receive (now : Time)
  /-- `MqttPublisher::new` fails. -/
  | mqttUnavailable
  /-- The MQTT thread sees the token, or that every sender is gone. -/
  | stopMqtt
  | bind
  /-- `initiate_shutdown` on a signal. -/
  | signal
  | beginDrain (now : Time)
  /-- A turn of the drain loop. -/
  | look (now : Time)
  | join

namespace Process

/-- The process as `main` wires it, with the snapshots on file. -/
def start (config : ProxyConfig) (file : SnapshotMap) : Process where
  main := .starting
  downstream := .new {}
  publisher := .build (config.publisherSetup file)
  events := []
  offered := 0
  taken := []
  refused := []
  abandoned := []

def setManager (f : ConnectionStateManager → ConnectionStateManager) (x : Process) : Process :=
  { x with downstream := { x.downstream with stateManager := f x.downstream.stateManager } }

/-- The publisher with what it shares as the others left it. -/
def seen (x : Process) : MqttPublisher :=
  { x.publisher with
    commandRouter := x.publisher.commandRouter.map fun _ => x.downstream.commandRouter
    inboxes := x.downstream.inboxes
    stateManager := x.publisher.stateManager.map fun _ => x.downstream.stateManager }

/-- What the publisher did is seen by the others. -/
def putPublisher (p : MqttPublisher) (x : Process) : Process :=
  { x with
    publisher := p
    downstream := { x.downstream with
      inboxes := p.inboxes
      stateManager := p.stateManager.getD x.downstream.stateManager } }

/-- The MQTT thread returns, and with its receiver goes what waits in the channel. -/
def endMqtt (x : Process) : Process :=
  { x with
    publisher := { x.publisher with stage := .stopped }
    events := []
    abandoned := x.abandoned ++ x.events }

/-- `try_send` on the channel. -/
def offer (x : Process) : Option Process :=
  x.downstream.mqttTx[x.offered]?.map fun event =>
    if x.publisher.stage ≠ .stopped ∧ x.events.length < mqttChannelCapacity then
      { x with events := x.events ++ [event], offered := x.offered + 1 }
    else { x with refused := x.refused ++ [event], offered := x.offered + 1 }

def look (now : Time) (x : Process) : Option Process :=
  match x.main with
  | .draining deadline wake sleeps =>
    if now < wake then none
    else
      let remaining := x.downstream.connections.entries.length
      if remaining = 0 ∨ deadline ≤ now then some { x with main := .joining remaining }
      else some { x with main := .draining deadline (now + drainInterval) (sleeps + 1) }
  | _ => none

def step (cx : ProxyContext) : Machine Process ProcessEvent := fun x ev =>
  if x.main = .stopped then none
  else match ev with
  | .task ev =>
    if ev.isTask ∧ x.main ≠ .starting then
      (DownstreamState.step cx x.downstream ev).map fun downstream => { x with downstream }
    else none
  | .offer => x.offer
  | .publisher ev =>
    if ev.input.isBroker then (MqttPublisher.step cx.crates x.seen ev).map x.putPublisher
    else none
  | .receive now =>
    match x.events with
    | [] => none
    | event :: events =>
      (MqttPublisher.step cx.crates x.seen ⟨now, .event (some event)⟩).map fun p =>
        { x.putPublisher p with events, taken := x.taken ++ [event] }
  | .mqttUnavailable => if x.publisher.stage = .built then some x.endMqtt else none
  | .stopMqtt =>
    -- the senders go only after the shutdown, so the token is set in either case
    if x.downstream.shutdown then
      match x.publisher.stage with
      | .built | .starting => some x.endMqtt
      | .running => some (x.endMqtt.setManager (·.transition .mqtt .disconnected))
      | .stopped => none
    else none
  | .bind =>
    if x.main = .starting then some ({ x with main := .serving }.setManager (·.setListenerBound true))
    else none
  | .signal =>
    if x.main = .starting then none
    else some { x with downstream := { x.downstream with shutdown := true } }
  | .beginDrain now =>
    if x.main = .serving ∧ x.downstream.shutdown then
      some ({ x with main := .draining (now + drainTimeout) now 0 }.setManager
        (·.setListenerBound false))
    else none
  | .look now => x.look now
  | .join =>
    match x.main with
    | .joining _ => if x.publisher.stage = .stopped then some { x with main := .stopped } else none
    | _ => none

/-! ## What a step does -/

section
variable {cx : ProxyContext} {x y : Process} {ev : ProcessEvent}

inductive Moved (cx : ProxyContext) (x : Process) : ProcessEvent → Process → Prop
  | task {ev : ProxyEvent} {d : DownstreamState} (hev : ev.isTask = true)
      (hd : DownstreamState.step cx x.downstream ev = some d) :
      Moved cx x (.task ev) { x with downstream := d }
  | accepted {event : MqttEvent} (hevent : x.downstream.mqttTx[x.offered]? = some event)
      (hopen : x.publisher.stage ≠ .stopped) (hroom : x.events.length < mqttChannelCapacity) :
      Moved cx x .offer { x with events := x.events ++ [event], offered := x.offered + 1 }
  | refused {event : MqttEvent} (hevent : x.downstream.mqttTx[x.offered]? = some event)
      (hshut : x.publisher.stage = .stopped ∨ mqttChannelCapacity ≤ x.events.length) :
      Moved cx x .offer { x with refused := x.refused ++ [event], offered := x.offered + 1 }
  | publisher {ev : PublisherEvent} {p : MqttPublisher} (hbroker : ev.input.isBroker = true)
      (hp : MqttPublisher.step cx.crates x.seen ev = some p) :
      Moved cx x (.publisher ev) (x.putPublisher p)
  | received {now : Time} {event : MqttEvent} {events : List MqttEvent} {p : MqttPublisher}
      (hevents : x.events = event :: events)
      (hp : MqttPublisher.step cx.crates x.seen ⟨now, .event (some event)⟩ = some p) :
      Moved cx x (.receive now) { x.putPublisher p with events, taken := x.taken ++ [event] }
  | mqttUnavailable (hstage : x.publisher.stage = .built) : Moved cx x .mqttUnavailable x.endMqtt
  | mqttAbandoned (hshutdown : x.downstream.shutdown = true)
      (hstage : x.publisher.stage = .built ∨ x.publisher.stage = .starting) :
      Moved cx x .stopMqtt x.endMqtt
  | mqttStopped (hshutdown : x.downstream.shutdown = true)
      (hstage : x.publisher.stage = .running) :
      Moved cx x .stopMqtt (x.endMqtt.setManager (·.transition .mqtt .disconnected))
  | bound (hmain : x.main = .starting) :
      Moved cx x .bind ({ x with main := .serving }.setManager (·.setListenerBound true))
  | signalled (hmain : x.main ≠ .starting) :
      Moved cx x .signal { x with downstream := { x.downstream with shutdown := true } }
  | drainBegun {now : Time} (hmain : x.main = .serving) (hshutdown : x.downstream.shutdown = true) :
      Moved cx x (.beginDrain now) ({ x with
        main := .draining (now + drainTimeout) now 0 }.setManager (·.setListenerBound false))
  | slept {now deadline wake : Time} {sleeps : Nat} (hmain : x.main = .draining deadline wake sleeps)
      (hwake : wake ≤ now) (hremain : x.downstream.connections.entries ≠ []) (hlate : now < deadline) :
      Moved cx x (.look now)
        { x with main := .draining deadline (now + drainInterval) (sleeps + 1) }
  | drained {now deadline wake : Time} {sleeps : Nat}
      (hmain : x.main = .draining deadline wake sleeps) (hwake : wake ≤ now)
      (hend : x.downstream.connections.entries = [] ∨ deadline ≤ now) :
      Moved cx x (.look now)
        { x with main := .joining x.downstream.connections.entries.length }
  | joined {remaining : Nat} (hmain : x.main = .joining remaining)
      (hstage : x.publisher.stage = .stopped) : Moved cx x .join { x with main := .stopped }

theorem moved_of_step (h : step cx x ev = some y) : x.main ≠ .stopped ∧ Moved cx x ev y := by
  unfold step at h
  split at h
  · cases h
  refine ⟨‹_›, ?_⟩
  cases ev with
  | task ev =>
    dsimp only at h
    split at h
    · rename_i htask
      obtain ⟨d, hd, rfl⟩ := Option.map_eq_some_iff.mp h
      exact .task htask.1 hd
    · cases h
  | offer =>
    obtain ⟨event, hevent, rfl⟩ := Option.map_eq_some_iff.mp h
    split
    · rename_i htaken
      exact .accepted hevent htaken.1 htaken.2
    · rename_i htaken
      refine .refused hevent ?_
      by_contra hneither
      rw [not_or] at hneither
      exact htaken ⟨hneither.1, Nat.lt_of_not_le hneither.2⟩
  | publisher ev =>
    dsimp only at h
    split at h
    · obtain ⟨p, hp, rfl⟩ := Option.map_eq_some_iff.mp h
      exact .publisher ‹_› hp
    · cases h
  | receive now =>
    dsimp only at h
    split at h
    · cases h
    · rename_i hevents
      obtain ⟨p, hp, rfl⟩ := Option.map_eq_some_iff.mp h
      exact .received hevents hp
  | mqttUnavailable =>
    dsimp only at h
    split at h
    · cases h
      exact .mqttUnavailable ‹_›
    · cases h
  | stopMqtt =>
    dsimp only at h
    split at h
    · split at h
      · cases h
        exact .mqttAbandoned ‹_› (.inl ‹_›)
      · cases h
        exact .mqttAbandoned ‹_› (.inr ‹_›)
      · cases h
        exact .mqttStopped ‹_› ‹_›
      · cases h
    · cases h
  | bind =>
    dsimp only at h
    split at h
    · cases h
      exact .bound ‹_›
    · cases h
  | signal =>
    dsimp only at h
    split at h
    · cases h
    · cases h
      exact .signalled ‹_›
  | beginDrain now =>
    dsimp only at h
    split at h
    · rename_i hready
      cases h
      exact .drainBegun hready.1 hready.2
    · cases h
  | look now =>
    dsimp only [look] at h
    split at h
    · rename_i hmain
      split at h
      · cases h
      · rename_i hwake
        split at h
        · rename_i hend
          cases h
          exact .drained hmain (Int.not_lt.mp hwake) (hend.imp List.length_eq_zero_iff.mp id)
        · rename_i hgoes
          cases h
          rw [not_or] at hgoes
          exact .slept hmain (Int.not_lt.mp hwake) (fun hnil => hgoes.1 (by rw [hnil]; rfl))
            (Int.not_le.mp hgoes.2)
    · cases h
  | join =>
    dsimp only at h
    split at h
    · split at h
      · cases h
        exact .joined ‹_› ‹_›
      · cases h
    · cases h

end

end Process

end OcppProxy

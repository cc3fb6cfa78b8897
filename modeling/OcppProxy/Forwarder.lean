import OcppProxy.Command
import Mathlib.Data.List.AList

namespace OcppProxy

inductive MqttEvent where
  | messageForwarded (chargePointId : String) (frame : OcppFrame) (direction : Direction)
      (action : String)
  | stateChange (chargePointId : String) (upstream downstream : ConnectionState)
  | commandResult (chargePointId : String) (result : CommandResult)
  deriving Repr

/-! ## Call tracking -/

structure PendingCall where
  action : String
  direction : Direction
  sentAt : Time
  deriving DecidableEq, Repr

structure CallTracker where
  pendingCalls : AList fun _ : String => PendingCall
  maxAge : Duration

namespace CallTracker

def new (maxAge : Duration) : CallTracker := ⟨∅, maxAge⟩

def pending (t : CallTracker) (uniqueId : String) : Option PendingCall :=
  t.pendingCalls.lookup uniqueId

def trackCall (t : CallTracker) (now : Time) (uniqueId action : String) (direction : Direction) :
    CallTracker :=
  { t with pendingCalls := t.pendingCalls.insert uniqueId { action, direction, sentAt := now } }

/-- The action of the Call a response answers; the entry is consumed. -/
def resolve (t : CallTracker) (uniqueId : String) : Option String × CallTracker :=
  ((t.pending uniqueId).map PendingCall.action,
    { t with pendingCalls := t.pendingCalls.erase uniqueId })

def PendingCall.isYoung (maxAge : Duration) (now : Time) (pending : PendingCall) : Bool :=
  decide (now - pending.sentAt < maxAge)

def cleanupExpired (t : CallTracker) (now : Time) : Nat × CallTracker :=
  let kept := t.pendingCalls.entries.filter fun e => PendingCall.isYoung t.maxAge now e.2
  (t.pendingCalls.entries.length - kept.length,
    { t with pendingCalls := ⟨kept, t.pendingCalls.nodupKeys.sublist List.filter_sublist⟩ })

/-- Whether a Call in `direction` still awaits its response and is younger than `maxAge`. -/
def hasRecentPendingIn (t : CallTracker) (now : Time) (direction : Direction)
    (maxAge : Duration) : Bool :=
  t.pendingCalls.entries.any fun e =>
    decide (e.2.direction = direction) && PendingCall.isYoung maxAge now e.2

section
variable (t : CallTracker) (now : Time) (uniqueId : String)

@[simp] theorem pending_new (maxAge : Duration) : (new maxAge).pending uniqueId = none := rfl

@[simp] theorem pending_trackCall (id action : String) (direction : Direction) :
    (t.trackCall now id action direction).pending uniqueId =
      if uniqueId = id then some { action, direction, sentAt := now } else t.pending uniqueId := by
  unfold pending trackCall
  by_cases h : uniqueId = id
  · subst h
    simp
  · simp [h]

@[simp] theorem pending_resolve (id : String) :
    (t.resolve id).2.pending uniqueId = if uniqueId = id then none else t.pending uniqueId := by
  unfold pending resolve
  by_cases h : uniqueId = id
  · subst h
    simp
  · simp [h]

theorem pending_eq_some {p : PendingCall} :
    t.pending uniqueId = some p ↔ ⟨uniqueId, p⟩ ∈ t.pendingCalls.entries :=
  AList.mem_lookup_iff

/-- Cleaning up keeps exactly the entries that are still young. -/
theorem pending_cleanupExpired {p : PendingCall} :
    (t.cleanupExpired now).2.pending uniqueId = some p ↔
      t.pending uniqueId = some p ∧ now - p.sentAt < t.maxAge := by
  simp only [pending_eq_some, cleanupExpired, List.mem_filter, PendingCall.isYoung,
    decide_eq_true_eq]

theorem hasRecentPendingIn_eq_false {direction : Direction} {maxAge : Duration} :
    t.hasRecentPendingIn now direction maxAge = false ↔
      ∀ id p, t.pending id = some p → p.direction = direction → (maxAge : Int) ≤ now - p.sentAt := by
  simp only [hasRecentPendingIn, List.any_eq_false, pending_eq_some, PendingCall.isYoung,
    Bool.and_eq_true, decide_eq_true_eq, not_and, not_lt]
  exact ⟨fun h id p hp => h ⟨id, p⟩ hp, fun h e he => h e.1 e.2 he⟩

end

end CallTracker

/-! ## Sinks -/

/-- A destination for raw frames; `sendRaw` may fail. -/
class MessageSink (σ : Type) where
  sendRaw : σ → String → Except ProxyError Unit × σ

/-- One end of a WebSocket: the texts it has accepted and how many more it takes before it fails
(`none`: it stays up). -/
structure WireSink where
  room : Option Nat
  failure : ProxyError
  sent : List String := []
  deriving DecidableEq, Repr

instance : MessageSink WireSink where
  sendRaw w raw :=
    match w.room with
    | some 0 => (.error w.failure, w)
    | room => (.ok (), { w with room := room.map (· - 1), sent := w.sent ++ [raw] })

namespace WireSink

variable {w : WireSink}

theorem sendRaw_of_room_zero (h : w.room = some 0) (raw : String) :
    MessageSink.sendRaw w raw = (.error w.failure, w) := by
  rcases w with ⟨room, failure, sent⟩
  subst h
  rfl

theorem sendRaw_of_room (h : w.room ≠ some 0) (raw : String) :
    MessageSink.sendRaw w raw =
      (.ok (), { w with room := w.room.map (· - 1), sent := w.sent ++ [raw] }) := by
  rcases w with ⟨room, failure, sent⟩
  match room with
  | some 0 => exact absurd rfl h
  | some (n + 1) => rfl
  | none => rfl

end WireSink

/-! ## The forwarder -/

structure MessageForwarder where
  upstreamBuffer : List OcppFrame
  downstreamBuffer : List OcppFrame
  maxBufferSize : Nat
  maxBufferDuration : Duration
  callTracker : CallTracker
  chargePointId : String

/-- What one forwarding left behind: the outcome, the forwarder, the sink and the events handed to
the MQTT channel. -/
structure Forwarded (σ : Type) where
  result : Except ProxyError Unit
  forwarder : MessageForwarder
  sink : σ
  events : List MqttEvent

namespace MessageForwarder

def withChargePointId (maxBufferSize : Nat) (maxBufferDuration callTrackerMaxAge : Duration)
    (chargePointId : String) : MessageForwarder :=
  { upstreamBuffer := [], downstreamBuffer := [], maxBufferSize, maxBufferDuration
    callTracker := .new callTrackerMaxAge, chargePointId }

def hasRecentPendingCall (f : MessageForwarder) (now : Time) (direction : Direction)
    (maxAge : Duration) : Bool :=
  f.callTracker.hasRecentPendingIn now direction maxAge

/-- The action of a frame, tracking a Call and looking up the Call of a response. -/
def resolveAction (f : MessageForwarder) (now : Time) (frame : OcppFrame)
    (direction : Direction) : String × MessageForwarder :=
  match frame.messageType with
  | .call action =>
    (action,
      { f with callTracker := f.callTracker.trackCall now frame.uniqueId action direction })
  | .callResult | .callError =>
    let (action, callTracker) := f.callTracker.resolve frame.uniqueId
    (action.getD "Unknown", { f with callTracker })

section
variable {σ : Type} [MessageSink σ]

def forwardMessage (f : MessageForwarder) (now : Time) (frame : OcppFrame) (sink : σ)
    (direction : Direction) : Forwarded σ :=
  match MessageSink.sendRaw sink frame.raw with
  | (.error e, sink) => { result := .error e, forwarder := f, sink, events := [] }
  | (.ok (), sink) =>
    let (action, forwarder) := f.resolveAction now frame direction
    { result := .ok (), forwarder, sink
      events := [.messageForwarded f.chargePointId frame direction action] }

def forwardUpstream (f : MessageForwarder) (now : Time) (frame : OcppFrame) (sink : σ) :
    Forwarded σ :=
  f.forwardMessage now frame sink .chargerToCentral

def forwardDownstream (f : MessageForwarder) (now : Time) (frame : OcppFrame) (sink : σ) :
    Forwarded σ :=
  f.forwardMessage now frame sink .centralToCharger

/-- Send a buffer in order; a frame whose send fails stays at its front. -/
def flush : List OcppFrame → σ → Except ProxyError Unit × List OcppFrame × σ
  | [], sink => (.ok (), [], sink)
  | frame :: rest, sink =>
    match MessageSink.sendRaw sink frame.raw with
    | (.error e, sink) => (.error e, frame :: rest, sink)
    | (.ok (), sink) => flush rest sink

def flushUpstream (f : MessageForwarder) (sink : σ) :
    Except ProxyError Nat × MessageForwarder × σ :=
  let (result, upstreamBuffer, sink) := flush f.upstreamBuffer sink
  (result.map fun () => f.upstreamBuffer.length, { f with upstreamBuffer }, sink)

def flushDownstream (f : MessageForwarder) (sink : σ) :
    Except ProxyError Nat × MessageForwarder × σ :=
  let (result, downstreamBuffer, sink) := flush f.downstreamBuffer sink
  (result.map fun () => f.downstreamBuffer.length, { f with downstreamBuffer }, sink)

end

/-- Push to the back of a bounded buffer, evicting the oldest frame when it is full. -/
def pushEvicting (maxBufferSize : Nat) (buffer : List OcppFrame) (frame : OcppFrame) :
    Option OcppFrame × List OcppFrame :=
  if maxBufferSize ≤ buffer.length then (buffer.head?, buffer.tail ++ [frame])
  else (none, buffer ++ [frame])

/-- Returns the frame evicted to make room, which the source logs. -/
def bufferUpstream (f : MessageForwarder) (frame : OcppFrame) :
    Option OcppFrame × MessageForwarder :=
  let (evicted, upstreamBuffer) := pushEvicting f.maxBufferSize f.upstreamBuffer frame
  (evicted, { f with upstreamBuffer })

def bufferDownstream (f : MessageForwarder) (frame : OcppFrame) :
    Option OcppFrame × MessageForwarder :=
  let (evicted, downstreamBuffer) := pushEvicting f.maxBufferSize f.downstreamBuffer frame
  (evicted, { f with downstreamBuffer })

def discardDownstreamBuffer (f : MessageForwarder) : MessageForwarder :=
  { f with downstreamBuffer := [] }

def isFresh (f : MessageForwarder) (now : Time) (frame : OcppFrame) : Bool :=
  decide (now - f.maxBufferDuration ≤ frame.receivedAt)

/-- Remove messages older than `maxBufferDuration` from both buffers; returns how many. The source's
30 s for a duration that `chrono` cannot hold (`Duration::from_std`) is left out: it is passed 30 s. -/
def evictExpiredMessages (f : MessageForwarder) (now : Time) : Nat × MessageForwarder :=
  let upstreamBuffer := f.upstreamBuffer.filter (f.isFresh now)
  let downstreamBuffer := f.downstreamBuffer.filter (f.isFresh now)
  (f.upstreamBuffer.length - upstreamBuffer.length +
      (f.downstreamBuffer.length - downstreamBuffer.length),
    { f with upstreamBuffer, downstreamBuffer })

def cleanupExpiredCalls (f : MessageForwarder) (now : Time) : Nat × MessageForwarder :=
  let (evicted, callTracker) := f.callTracker.cleanupExpired now
  (evicted, { f with callTracker })

/-! ## What the operations do to a wire -/

section
variable (f : MessageForwarder) (now : Time) (frame : OcppFrame) (w : WireSink)
  (direction : Direction)

@[simp] theorem resolveAction_upstreamBuffer :
    (f.resolveAction now frame direction).2.upstreamBuffer = f.upstreamBuffer := by
  unfold resolveAction
  split <;> rfl

@[simp] theorem resolveAction_maxAge :
    (f.resolveAction now frame direction).2.callTracker.maxAge = f.callTracker.maxAge := by
  unfold resolveAction
  split <;> rfl

/-- A Call enters the tracker under its id; a response takes out the entry of its id. -/
theorem resolveAction_pending (id : String) :
    (f.resolveAction now frame direction).2.callTracker.pending id =
      if id = frame.uniqueId then
        match frame.messageType with
        | .call action => some { action, direction, sentAt := now }
        | _ => none
      else f.callTracker.pending id := by
  unfold resolveAction
  cases frame.messageType <;> simp

/-- A forwarding either reaches the sink whole and is tracked, or changes nothing. -/
theorem forwardMessage_cases :
    (w.room = some 0 ∧ f.forwardMessage now frame w direction =
      { result := .error w.failure, forwarder := f, sink := w, events := [] }) ∨
    (w.room ≠ some 0 ∧ ∃ action, f.forwardMessage now frame w direction =
      { result := .ok (), forwarder := (f.resolveAction now frame direction).2
        sink := { w with room := w.room.map (· - 1), sent := w.sent ++ [frame.raw] }
        events := [.messageForwarded f.chargePointId frame direction action] }) := by
  unfold forwardMessage
  by_cases h : w.room = some 0
  · exact .inl ⟨h, by rw [WireSink.sendRaw_of_room_zero h]⟩
  · exact .inr ⟨h, _, by rw [WireSink.sendRaw_of_room h]⟩

/-- A flush sends a prefix of the buffer and keeps the rest; it succeeds when it sent everything. -/
theorem flush_spec (buffer : List OcppFrame) : ∃ done rest, buffer = done ++ rest ∧
    (flush buffer w).2.1 = rest ∧ (flush buffer w).2.2.sent = w.sent ++ done.map OcppFrame.raw ∧
    ((flush buffer w).1 = .ok () ↔ rest = []) := by
  induction buffer generalizing w with
  | nil => exact ⟨[], [], rfl, rfl, by simp [flush], by simp [flush]⟩
  | cons frame buffer ih =>
    by_cases h0 : w.room = some 0
    · have hsend := WireSink.sendRaw_of_room_zero h0 frame.raw
      exact ⟨[], frame :: buffer, rfl, by simp [flush, hsend], by simp [flush, hsend],
        by simp [flush, hsend]⟩
    · have hsend := WireSink.sendRaw_of_room h0 frame.raw
      obtain ⟨done, rest, hb, hrest, hsent, hok⟩ := ih
        { w with
          room := w.room.map (· - 1)
          sent := w.sent ++ [frame.raw] }
      refine ⟨frame :: done, rest, by simp [hb], ?_, ?_, ?_⟩
      · simp only [flush, hsend, hrest]
      · simp only [flush, hsend, hsent, List.append_assoc, List.map_cons, List.singleton_append]
      · simp only [flush, hsend, hok]

theorem pushEvicting_spec (maxBufferSize : Nat) (buffer : List OcppFrame) :
    (pushEvicting maxBufferSize buffer frame).1.toList ++
      (pushEvicting maxBufferSize buffer frame).2 = buffer ++ [frame] := by
  unfold pushEvicting
  split
  · cases buffer <;> simp
  · simp

theorem bufferUpstream_of_empty (h : f.upstreamBuffer = []) :
    (f.bufferUpstream frame).1 = none ∧ (f.bufferUpstream frame).2.upstreamBuffer = [frame] := by
  simp only [bufferUpstream, pushEvicting, h]
  split <;> exact ⟨rfl, rfl⟩

/-- What is buffered after a push was buffered before it or is the pushed frame. -/
theorem mem_bufferUpstream {g : OcppFrame}
    (h : g ∈ (f.bufferUpstream frame).2.upstreamBuffer) : g ∈ f.upstreamBuffer ∨ g = frame := by
  have hspec := pushEvicting_spec frame f.maxBufferSize f.upstreamBuffer
  have hmem : g ∈ f.upstreamBuffer ++ [frame] := hspec ▸ List.mem_append_right _ h
  simpa using hmem

end

end MessageForwarder

end OcppProxy

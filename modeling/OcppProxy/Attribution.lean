import OcppProxy.Library.Machine
import OcppProxy.Forwarder

/-!
# Which Call a response answers

A response answers the latest unanswered Call of the other direction under its id. The call tracker
keeps one Call per id for both directions, so it says the same only while the two sides keep their
open ids apart. A frame that is replayed from the buffer does not reach the tracker at all.
-/

namespace OcppProxy

def Direction.opposite : Direction → Direction
  | chargerToCentral => centralToCharger
  | centralToCharger => chargerToCentral

/-! ## The unanswered Calls of a history -/

abbrev OpenCalls := Direction → String → Option String

namespace OpenCalls

/-- A Call opens; a response closes the Call of the other direction under its id. -/
def forward (o : OpenCalls) (frame : OcppFrame) (direction : Direction) : OpenCalls :=
  match frame.messageType with
  | .call action => fun d id =>
    if d = direction ∧ id = frame.uniqueId then some action else o d id
  | .callResult | .callError => fun d id =>
    if d = direction.opposite ∧ id = frame.uniqueId then none else o d id

/-- The action a frame should be published with. -/
def actionOf (o : OpenCalls) (frame : OcppFrame) (direction : Direction) : String :=
  match frame.messageType with
  | .call action => action
  | .callResult | .callError => (o direction.opposite frame.uniqueId).getD "Unknown"

def after (events : List MqttEvent) : OpenCalls :=
  events.foldl (fun o event => match event with
    | .messageForwarded _ frame direction _ => o.forward frame direction
    | _ => o) fun _ _ => none

section
variable (o : OpenCalls) {frame : OcppFrame} (direction : Direction)

theorem forward_response (h : frame.messageType.isCall = false) (d : Direction) (id : String) :
    o.forward frame direction d id =
      if d = direction.opposite ∧ id = frame.uniqueId then none else o d id := by
  unfold forward
  cases htype : frame.messageType with
  | call action => simp [htype, OcppMessageType.isCall] at h
  | callResult => rfl
  | callError => rfl

theorem actionOf_response (h : frame.messageType.isCall = false) :
    o.actionOf frame direction = (o direction.opposite frame.uniqueId).getD "Unknown" := by
  unfold actionOf
  cases htype : frame.messageType with
  | call action => simp [htype, OcppMessageType.isCall] at h
  | callResult => rfl
  | callError => rfl

end

end OpenCalls

/-- Every frame is published with the action of the Call it is or answers. -/
def Attributed (events : List MqttEvent) : Prop :=
  ∀ before rest id frame direction action,
    events = before ++ .messageForwarded id frame direction action :: rest →
      action = (OpenCalls.after before).actionOf frame direction

theorem attributed_nil : Attributed [] := by
  intro before rest id frame direction action h
  simp at h

theorem Attributed.append {events : List MqttEvent} (h : Attributed events) (id : String)
    (frame : OcppFrame) (direction : Direction) :
    Attributed (events ++ [.messageForwarded id frame direction
      ((OpenCalls.after events).actionOf frame direction)]) := by
  intro before rest id' frame' direction' action' heq
  rcases List.eq_nil_or_concat rest with rfl | ⟨rest, last, rfl⟩
  · obtain ⟨rfl, hlast⟩ := List.append_inj' heq rfl
    simp only [List.cons.injEq, MqttEvent.messageForwarded.injEq, and_true] at hlast
    obtain ⟨-, rfl, rfl, rfl⟩ := hlast
    rfl
  · rw [List.concat_eq_append, ← List.cons_append, ← List.append_assoc] at heq
    obtain ⟨hevents, -⟩ := List.append_inj' heq rfl
    exact h before rest id' frame' direction' action' hevents

/-! ## One forwarder -/

structure ForwarderRun where
  forwarder : MessageForwarder
  published : List MqttEvent

inductive ForwarderEvent where
  | forward (now : Time) (frame : OcppFrame) (direction : Direction) (sink : WireSink)
  | cleanup (now : Time)
  deriving DecidableEq, Repr

namespace ForwarderRun

def step : Machine ForwarderRun ForwarderEvent := fun s event =>
  match event with
  | .forward now frame direction sink =>
    let f := s.forwarder.forwardMessage now frame sink direction
    some { forwarder := f.forwarder, published := s.published ++ f.events }
  | .cleanup now => some { s with forwarder := (s.forwarder.cleanupExpiredCalls now).2 }

def expired (s : ForwarderRun) : ForwarderEvent → Nat
  | .cleanup now => (s.forwarder.cleanupExpiredCalls now).1
  | .forward .. => 0

/-- What the tracker holds under the id of the frame is a Call of its own direction for a Call, and
a Call of the other direction for a response. -/
def idsApart (s : ForwarderRun) : ForwarderEvent → Bool
  | .forward _ frame direction _ => (s.forwarder.callTracker.pending frame.uniqueId).all fun p =>
      p.direction == if frame.messageType.isCall then direction else direction.opposite
  | .cleanup _ => true

/-- The tracker holds the unanswered Calls of what was published. -/
def Tracks (s : ForwarderRun) : Prop :=
  ∀ direction id, OpenCalls.after s.published direction id =
    ((s.forwarder.callTracker.pending id).filter (·.direction = direction)).map PendingCall.action

section
variable {s t : ForwarderRun} {event : ForwarderEvent}

theorem Direction.opposite_ne (d : Direction) : d.opposite ≠ d := by
  cases d <;> decide

theorem eq_opposite_of_ne {d d' : Direction} (h : d ≠ d') : d = d'.opposite := by
  cases d <;> cases d' <;> first | rfl | exact absurd rfl h

/-- A response closes the Call it answers, and the tracker gives that Call's action. -/
theorem Tracks.response (hs : s.Tracks) {id : String} {direction : Direction}
    (hapart : (s.forwarder.callTracker.pending id).all
      (fun p => p.direction == direction.opposite) = true) :
    (s.forwarder.callTracker.resolve id).1 = OpenCalls.after s.published direction.opposite id ∧
      OpenCalls.after s.published direction id = none := by
  rw [hs direction.opposite id, hs direction id]
  unfold CallTracker.resolve
  cases hp : s.forwarder.callTracker.pending id with
  | none => exact ⟨rfl, rfl⟩
  | some p =>
    have hdirection : p.direction = direction.opposite := by simpa [hp] using hapart
    simp [Option.filter, hdirection, Direction.opposite_ne]

theorem resolveAction_response (f : MessageForwarder) {frame : OcppFrame}
    (h : frame.messageType.isCall = false) (now : Time) (direction : Direction) :
    f.resolveAction now frame direction =
      ((f.callTracker.resolve frame.uniqueId).1.getD "Unknown",
        { f with callTracker := (f.callTracker.resolve frame.uniqueId).2 }) := by
  unfold MessageForwarder.resolveAction
  cases htype : frame.messageType with
  | call action => simp [htype, OcppMessageType.isCall] at h
  | callResult => rfl
  | callError => rfl

/-- A tracked frame is published with its action and leaves the tracker in step with the
history. -/
theorem Tracks.resolve (hs : s.Tracks) {now : Time} {frame : OcppFrame} {direction : Direction}
    (hapart : (s.forwarder.callTracker.pending frame.uniqueId).all (fun p => p.direction ==
      if frame.messageType.isCall then direction else direction.opposite) = true) :
    (s.forwarder.resolveAction now frame direction).1 =
        (OpenCalls.after s.published).actionOf frame direction ∧
      ∀ d id, (OpenCalls.after s.published).forward frame direction d id =
        (((s.forwarder.resolveAction now frame direction).2.callTracker.pending id).filter
          (·.direction = d)).map PendingCall.action := by
  cases hcall : frame.messageType.isCall with
  | true =>
    obtain ⟨action, htype⟩ : ∃ action, frame.messageType = .call action := by
      cases htype : frame.messageType with
      | call action => exact ⟨action, rfl⟩
      | _ => simp [htype, OcppMessageType.isCall] at hcall
    refine ⟨by simp [MessageForwarder.resolveAction, OpenCalls.actionOf, htype], fun d id => ?_⟩
    rw [MessageForwarder.resolveAction_pending]
    simp only [OpenCalls.forward, htype]
    by_cases hid : id = frame.uniqueId
    · subst hid
      by_cases hd : d = direction
      · subst hd
        simp [Option.filter]
      · -- the Calls of the other direction are not under this id
        rw [hcall, if_pos rfl] at hapart
        have hopen := hs d frame.uniqueId
        cases hp : s.forwarder.callTracker.pending frame.uniqueId with
        | none => simpa [hd, hp, Option.filter, Ne.symm hd] using hopen
        | some p =>
          have hdirection : p.direction = direction := by simpa [hp] using hapart
          simpa [hd, hp, Option.filter, Ne.symm hd, hdirection] using hopen
    · simpa [hid] using hs d id
  | false =>
    rw [hcall, if_neg Bool.false_ne_true] at hapart
    obtain ⟨haction, hnone⟩ := hs.response hapart
    rw [resolveAction_response s.forwarder hcall]
    refine ⟨by rw [OpenCalls.actionOf_response _ _ hcall, haction], fun d id => ?_⟩
    rw [OpenCalls.forward_response _ _ hcall, CallTracker.pending_resolve]
    by_cases hid : id = frame.uniqueId
    · subst hid
      by_cases hd : d = direction.opposite
      · simp [hd]
      · obtain rfl : d = direction := by
          have hopposite := eq_opposite_of_ne hd
          cases direction <;> simpa [Direction.opposite] using hopposite
        simp [hd, hnone]
    · simpa [hid] using hs d id

/-- A cleanup that removes nothing leaves every entry. -/
theorem pending_cleanup {now : Time} {c : CallTracker} (h : (c.cleanupExpired now).1 = 0)
    (id : String) : (c.cleanupExpired now).2.pending id = c.pending id := by
  have hlength : (c.pendingCalls.entries.filter
      fun e => CallTracker.PendingCall.isYoung c.maxAge now e.2).length =
      c.pendingCalls.entries.length := by
    have hle := List.length_filter_le (fun e => CallTracker.PendingCall.isYoung c.maxAge now e.2)
      c.pendingCalls.entries
    have hzero : c.pendingCalls.entries.length - (c.pendingCalls.entries.filter
      fun e => CallTracker.PendingCall.isYoung c.maxAge now e.2).length = 0 := h
    omega
  have hyoung := List.length_filter_eq_length_iff.mp hlength
  refine Option.ext fun p => ?_
  rw [CallTracker.pending_cleanupExpired]
  refine and_iff_left_of_imp fun hp => ?_
  have hmem := hyoung _ ((CallTracker.pending_eq_some c id).mp hp)
  simpa [CallTracker.PendingCall.isYoung] using hmem

/-- What was published is attributed, and the tracker goes with it. -/
theorem Tracks.step (hs : s.Tracks) (h : step s event = some t) (hapart : s.idsApart event = true)
    (hkept : s.expired event = 0) (hattributed : Attributed s.published) :
    t.Tracks ∧ Attributed t.published := by
  cases event with
  | forward now frame direction sink =>
    cases h
    by_cases hroom : sink.room = some 0
    · have hf : s.forwarder.forwardMessage now frame sink direction = {
          result := .error sink.failure, forwarder := s.forwarder, sink, events := [] } := by
        rw [MessageForwarder.forwardMessage, WireSink.sendRaw_of_room_zero hroom]
      rw [hf]
      dsimp only
      rw [List.append_nil]
      exact ⟨hs, hattributed⟩
    · obtain ⟨haction, hopen⟩ := hs.resolve hapart
      have hf : (s.forwarder.forwardMessage now frame sink direction).forwarder =
            (s.forwarder.resolveAction now frame direction).2 ∧
          (s.forwarder.forwardMessage now frame sink direction).events =
            [.messageForwarded s.forwarder.chargePointId frame direction
              (s.forwarder.resolveAction now frame direction).1] := by
        rw [MessageForwarder.forwardMessage, WireSink.sendRaw_of_room hroom]
        exact ⟨rfl, rfl⟩
      rw [hf.1, hf.2, haction]
      refine ⟨fun d id => ?_, hattributed.append _ frame direction⟩
      rw [← hopen d id]
      simp only [OpenCalls.after, List.foldl_append]
      rfl
  | cleanup now =>
    cases h
    refine ⟨fun d id => ?_, hattributed⟩
    rw [hs d id]
    exact congrArg (fun p => (Option.filter (·.direction = d) p).map PendingCall.action)
      (pending_cleanup hkept id).symm

/-- In every run of a forwarder in which no cleanup removes an entry and the two sides keep their
open ids apart, every frame is published with the action of the Call it is or answers, and a
response to no Call with "Unknown". -/
theorem attributed_of_run {f : MessageForwarder} {maxAge : Duration} {events : List ForwarderEvent}
    (hnew : f.callTracker = .new maxAge) (hrun : step.run ⟨f, []⟩ events = some s)
    (hkept : step.Meets (fun s event => s.expired event = 0) ⟨f, []⟩ events)
    (hapart : step.Meets (fun s event => s.idsApart event = true) ⟨f, []⟩ events) :
    Attributed s.published := by
  have hstart : Tracks ⟨f, []⟩ := by
    intro d id
    simp [OpenCalls.after, hnew]
  -- with no entry expired and the ids apart the tracker is the list of unanswered Calls
  have hinvariant := step.invariant_of_meets
    (P := fun s : ForwarderRun => s.Tracks ∧ Attributed s.published)
    (fun s event t hC h hs => hs.1.step h hC.2 hC.1 hs.2) hrun
    (Machine.meets_and.mpr ⟨hkept, hapart⟩) ⟨hstart, attributed_nil⟩
  exact hinvariant.2

end

def frameOf (uniqueId : String) (messageType : OcppMessageType) : OcppFrame :=
  { raw := uniqueId, messageType, uniqueId, receivedAt := 0 }

def openSink : WireSink := { room := none, failure := .forwarding "" }

def freshForwarder : MessageForwarder := .withChargePointId 10 1000 1000 "CP01"

/-- The Central System calls, the charger calls under another id, and both answer. -/
def apartIds : List ForwarderEvent :=
  [.forward 1 (frameOf "7" (.call "TriggerMessage")) .centralToCharger openSink,
    .forward 2 (frameOf "h1" (.call "Heartbeat")) .chargerToCentral openSink,
    .forward 3 (frameOf "7" .callResult) .chargerToCentral openSink,
    .forward 4 (frameOf "h1" .callResult) .centralToCharger openSink]

theorem attributed_of_run_apartIds : ∃ s, step.run ⟨freshForwarder, []⟩ apartIds = some s ∧
    Attributed s.published := by
  obtain ⟨s, hrun⟩ := Option.isSome_iff_exists.mp
    (show (step.run ⟨freshForwarder, []⟩ apartIds).isSome = true from rfl)
  exact ⟨s, hrun, attributed_of_run (f := freshForwarder) rfl hrun (by decide +kernel)
    (by decide +kernel)⟩

/-- The same, but the charger's own Call has the id of the Call it has not answered yet. -/
def sameIds : List ForwarderEvent :=
  [.forward 1 (frameOf "7" (.call "TriggerMessage")) .centralToCharger openSink,
    .forward 2 (frameOf "7" (.call "Heartbeat")) .chargerToCentral openSink,
    .forward 3 (frameOf "7" .callResult) .chargerToCentral openSink]

/-- The answer to the TriggerMessage is published as one to a Heartbeat. -/
theorem not_attributed_sameIds : ∃ s, step.run ⟨freshForwarder, []⟩ sameIds = some s ∧
    step.Meets (fun s event => s.expired event = 0) ⟨freshForwarder, []⟩ sameIds ∧
    ¬ Attributed s.published := by
  refine ⟨_, rfl, by decide +kernel, fun h => ?_⟩
  have haction := h [.messageForwarded "CP01" (frameOf "7" (.call "TriggerMessage")) .centralToCharger
      "TriggerMessage", .messageForwarded "CP01" (frameOf "7" (.call "Heartbeat")) .chargerToCentral
      "Heartbeat"] [] "CP01" (frameOf "7" .callResult) .chargerToCentral "Heartbeat" rfl
  revert haction
  decide +kernel

end ForwarderRun

/-! ## Buffered delivery -/

namespace MessageForwarder

section
variable {σ : Type} [MessageSink σ]

def forwardEach (f : MessageForwarder) (frames : List (Time × OcppFrame)) (sink : σ) :
    Forwarded σ :=
  match frames with
  | [] => { result := .ok (), forwarder := f, sink, events := [] }
  | (now, frame) :: rest =>
    let first := f.forwardUpstream now frame sink
    match first.result with
    | .error _ => first
    | .ok () =>
      let others := first.forwarder.forwardEach rest first.sink
      { others with events := first.events ++ others.events }

def bufferEach (f : MessageForwarder) (frames : List OcppFrame) : MessageForwarder :=
  frames.foldl (fun f frame => (f.bufferUpstream frame).2) f

/-- `buffer_upstream` on each frame and then `flush_upstream`, which publishes nothing. -/
def bufferAndFlush (f : MessageForwarder) (frames : List OcppFrame) (sink : σ) : Forwarded σ :=
  let (result, forwarder, sink) := (f.bufferEach frames).flushUpstream sink
  { result := result.map fun _ => (), forwarder, sink, events := [] }

/-- The same in the sink, in the tracker up to the times, and on the MQTT channel. -/
structure SameDelivery (a b : Forwarded σ) : Prop where
  sink : a.sink = b.sink
  pending : ∀ id, (a.forwarder.callTracker.pending id).map (fun p => (p.action, p.direction)) =
    (b.forwarder.callTracker.pending id).map fun p => (p.action, p.direction)
  events : a.events = b.events

/-- Within the capacity the buffer holds every frame, and nothing else changes. -/
theorem bufferEach_eq (f : MessageForwarder) (frames : List OcppFrame)
    (hroom : f.upstreamBuffer.length + frames.length ≤ f.maxBufferSize) :
    f.bufferEach frames = { f with upstreamBuffer := f.upstreamBuffer ++ frames } := by
  induction frames generalizing f with
  | nil => simp [bufferEach]
  | cons frame frames ih =>
    simp only [List.length_cons] at hroom
    have hpush : (f.bufferUpstream frame).2 =
        { f with upstreamBuffer := f.upstreamBuffer ++ [frame] } := by
      rw [bufferUpstream, pushEvicting, if_neg (by omega)]
    have hrest := ih { f with upstreamBuffer := f.upstreamBuffer ++ [frame] }
      (by simp only [List.length_append, List.length_singleton]; omega)
    rw [bufferEach, List.foldl_cons, hpush]
    refine hrest.trans ?_
    simp

/-- Where a flush gets everything out, forwarding one by one leaves the same sink and publishes an
event for every frame. -/
theorem forwardEach_of_flush (f : MessageForwarder) (frames : List (Time × OcppFrame)) (sink : σ)
    (hflush : (flush (frames.map Prod.snd) sink).1 = .ok ()) :
    (f.forwardEach frames sink).sink = (flush (frames.map Prod.snd) sink).2.2 ∧
      (f.forwardEach frames sink).events.length = frames.length := by
  induction frames generalizing f sink with
  | nil => exact ⟨rfl, rfl⟩
  | cons entry frames ih =>
    obtain ⟨now, frame⟩ := entry
    simp only [List.map_cons, flush] at hflush ⊢
    simp only [forwardEach, forwardUpstream, forwardMessage]
    obtain ⟨⟨result, sink'⟩, hsend⟩ : ∃ sent, MessageSink.sendRaw sink frame.raw = sent := ⟨_, rfl⟩
    cases result with
    | error e => simp [hsend] at hflush
    | ok =>
      simp only [hsend] at hflush ⊢
      obtain ⟨hsink, hevents⟩ := ih (f.resolveAction now frame .chargerToCentral).2 sink' hflush
      refine ⟨hsink, ?_⟩
      simp [hevents]

/-- A flush of buffered frames leaves the same texts in the sink as forwarding each frame, but it
leaves the tracker as it was and publishes nothing: the two agree only where there is no frame. -/
theorem sameDelivery_iff (f : MessageForwarder) (hempty : f.upstreamBuffer = [])
    (frames : List (Time × OcppFrame)) (hroom : frames.length ≤ f.maxBufferSize) (sink : σ)
    (hok : (f.bufferAndFlush (frames.map Prod.snd) sink).result = .ok ()) :
    (f.bufferAndFlush (frames.map Prod.snd) sink).sink = (f.forwardEach frames sink).sink ∧
      (f.bufferAndFlush (frames.map Prod.snd) sink).forwarder.callTracker = f.callTracker ∧
      (SameDelivery (f.bufferAndFlush (frames.map Prod.snd) sink) (f.forwardEach frames sink) ↔
        frames = []) := by
  have hlength : f.upstreamBuffer.length + (frames.map Prod.snd).length ≤ f.maxBufferSize := by
    rw [hempty, List.length_map]
    simpa using hroom
  have hbuffered := f.bufferEach_eq (frames.map Prod.snd) hlength
  rw [hempty, List.nil_append] at hbuffered
  -- nothing is evicted, so the flush finds all frames in their order
  simp only [bufferAndFlush, hbuffered, flushUpstream] at hok ⊢
  have hflush : (flush (frames.map Prod.snd) sink).1 = .ok () := by
    cases hresult : (flush (frames.map Prod.snd) sink).1 with
    | ok => rfl
    | error e => simp [hresult, Except.map] at hok
  obtain ⟨hsink, hevents⟩ := f.forwardEach_of_flush frames sink hflush
  refine ⟨hsink.symm, trivial, fun hsame => ?_, ?_⟩
  · -- each forwarding publishes an event, the flush none
    have hnone := congrArg List.length hsame.events
    rw [hevents, List.length_nil] at hnone
    exact List.length_eq_zero_iff.mp hnone.symm
  · rintro rfl
    exact ⟨rfl, fun _ => rfl, rfl⟩

end

/-- A heartbeat buffered and flushed reaches the sink, as one sent directly does. -/
theorem sameDelivery_iff_heartbeat :
    (ForwarderRun.freshForwarder.bufferAndFlush
        [ForwarderRun.frameOf "h1" (.call "Heartbeat")] ForwarderRun.openSink).sink =
      (ForwarderRun.freshForwarder.forwardEach
        [(1, ForwarderRun.frameOf "h1" (.call "Heartbeat"))] ForwarderRun.openSink).sink :=
  (sameDelivery_iff ForwarderRun.freshForwarder rfl
    [(1, ForwarderRun.frameOf "h1" (.call "Heartbeat"))] (by decide) ForwarderRun.openSink rfl).1

/-- The answer to a heartbeat that was sent directly is published as one; after a replay it is
"Unknown". -/
theorem not_sameDelivery_heartbeat :
    let direct := ForwarderRun.freshForwarder.forwardEach
      [(1, ForwarderRun.frameOf "h1" (.call "Heartbeat"))] ForwarderRun.openSink
    let replayed := ForwarderRun.freshForwarder.bufferAndFlush
      [ForwarderRun.frameOf "h1" (.call "Heartbeat")] ForwarderRun.openSink
    direct.events.length = 1 ∧ replayed.result = .ok () ∧ replayed.events.length = 0 ∧
      (direct.forwarder.callTracker.resolve "h1").1 = some "Heartbeat" ∧
      (replayed.forwarder.callTracker.resolve "h1").1 = none ∧
      ¬ SameDelivery replayed direct := by
  refine ⟨rfl, rfl, rfl, rfl, rfl, fun h => ?_⟩
  have hlength := congrArg List.length h.events
  cases hlength

end MessageForwarder

end OcppProxy

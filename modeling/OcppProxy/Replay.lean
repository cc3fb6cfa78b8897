import OcppProxy.MessageCounts
import OcppProxy.SessionStatus

/-!
# The replay on reconnect

A frame whose send failed waits in the upstream buffer until a connection is made. The age of what
waits is looked at by the housekeeping tick of the forwarding loop only, and while the loop runs
nothing waits.
-/

namespace OcppProxy

structure ReplayedFrame where
  frame : OcppFrame
  sentAt : Time

namespace Session

/-- The frames a step replays: what `flush_upstream` takes off the front of the buffer. -/
def replays (s : Session) (ev : Event) : List ReplayedFrame :=
  match s.phase, ev.input with
  | .connecting, .connected =>
    let buffer := s.forwarder.upstreamBuffer
    let rest := (MessageForwarder.flush buffer ev.env.upstreamSink).2.1
    (buffer.take (buffer.length - rest.length)).map fun frame => ⟨frame, ev.env.now⟩
  | _, _ => []

/-- Every frame replayed was read from the charger no longer than `maxBufferDuration` before. -/
def ReplaysFresh (cx : SessionContext) (s : Session) (events : List Event) (t : Session) : Prop :=
  ∀ r ∈ (step cx).outputs replays s events,
    (r.frame.receivedAt, Entry.readCharger r.frame.raw) ∈ t.log ∧
      r.sentAt - r.frame.receivedAt ≤ cx.config.maxBufferDuration

/-- A connection that takes text is made while what waits is still young. -/
def ReconnectsInTime (cx : SessionContext) (s : Session) (ev : Event) : Prop :=
  s.phase = .connecting → ev.input = .connected → ev.env.upstreamRoom ≠ some 0 →
    ∀ frame ∈ s.forwarder.upstreamBuffer,
      ev.env.now - frame.receivedAt ≤ cx.config.maxBufferDuration

instance (cx : SessionContext) (s : Session) (ev : Event) : Decidable (ReconnectsInTime cx s ev) :=
  inferInstanceAs (Decidable (_ → _ → _ → _))

structure Waits (s : Session) : Prop where
  replayed : s.Replayed
  buffered : s.forwarder.upstreamBuffer.length ≤ 1
  evicted : s.trace Entry.evicted? = []
  read : ∀ frame ∈ s.forwarder.upstreamBuffer,
    (frame.receivedAt, Entry.readCharger frame.raw) ∈ s.log

section
variable {cx : SessionContext} {env : Env} {input : Input} {s t u : Session} {ev : Event}
  {inbox inbox' : List CommandRequest} {now : Time}

/-! ## What waits -/

theorem Quiet.log_subset (h : Quiet cx now inbox inbox' s t) {e : Time × Entry} (he : e ∈ s.log) :
    e ∈ t.log := by
  obtain ⟨es, hlog, -⟩ := h.entries
  rw [hlog]
  exact List.mem_append_left _ he

/-- What waited before still does, read when it says. -/
theorem Quiet.read (h : Quiet cx now inbox inbox' u t)
    (hbuffer : ∀ frame ∈ u.forwarder.upstreamBuffer,
      (frame.receivedAt, Entry.readCharger frame.raw) ∈ u.log) :
    ∀ frame ∈ t.forwarder.upstreamBuffer,
      (frame.receivedAt, Entry.readCharger frame.raw) ∈ t.log := by
  intro frame hframe
  rw [h.upstreamBuffer] at hframe
  exact h.log_subset (hbuffer frame hframe)

/-- A frame starts to wait in the step that reads it. -/
theorem FrameStep.read (h : FrameStep cx env input inbox inbox' s t)
    (hs : ∀ frame ∈ s.forwarder.upstreamBuffer,
      (frame.receivedAt, Entry.readCharger frame.raw) ∈ s.log) :
    ∀ frame ∈ t.forwarder.upstreamBuffer,
      (frame.receivedAt, Entry.readCharger frame.raw) ∈ t.log := by
  have hkeep {u : Session} (es : List Entry) (hq : Quiet cx env.now inbox inbox'
      (u.noteAll env.now es) t) (hlog : u.log = s.log)
      (hbuffer : u.forwarder.upstreamBuffer = s.forwarder.upstreamBuffer) :
      ∀ frame ∈ t.forwarder.upstreamBuffer,
        (frame.receivedAt, Entry.readCharger frame.raw) ∈ t.log := by
    refine hq.read fun frame hframe => ?_
    rw [noteAll_forwarder, hbuffer] at hframe
    rw [noteAll_log, hlog]
    exact List.mem_append_left _ (hs frame hframe)
  cases h with
  | quiet _ _ h => exact h.read hs
  | dropped _ _ h => exact hkeep [_] h rfl rfl
  | consumed _ _ _ _ _ _ h => exact hkeep _ h rfl rfl
  | forwarded _ _ _ _ _ h =>
    exact hkeep _ h rfl (MessageForwarder.resolveAction_upstreamBuffer ..)
  | @buffered text frame hinput _ hparse _ _ _ h _ =>
    refine h.read fun g hg => ?_
    obtain ⟨-, hraw, hreceived⟩ := OcppFrame.parse_eq_ok.mp hparse
    rcases s.forwarder.mem_bufferUpstream frame hg with hold | rfl
    · exact List.mem_append_left _ (hs g hold)
    · refine List.mem_append_right _ ?_
      rw [hraw, hreceived]
      exact List.mem_cons_self
  | relayed _ _ _ _ h => exact hkeep _ h rfl rfl
  | lost _ _ _ _ _ h => exact hkeep [_] h rfl rfl
  | delivered _ _ _ _ h =>
    exact hkeep _ h rfl (MessageForwarder.resolveAction_upstreamBuffer ..)
  | passed _ _ _ _ h => exact hkeep _ h rfl rfl
  | undelivered _ _ _ _ h => exact hkeep [_] h rfl rfl
  | swept _ _ _ ht =>
    obtain ⟨forwarder, heq, hbuffer, -⟩ := s.housekeepingArm_eq env
    intro frame hframe
    rw [ht, heq, noteAll_forwarder] at hframe
    rw [hbuffer] at hframe
    rw [ht, heq, noteAll_log]
    exact List.mem_append_left _ (hs frame (List.mem_filter.mp hframe).1)
  | @flushed s' done rest _ _ hbefore hbuffer _ h _ =>
    refine h.read fun frame hframe => List.mem_append_left _ ?_
    have hmem : frame ∈ s'.forwarder.upstreamBuffer := by
      rw [hbuffer]
      exact List.mem_append_right _ hframe
    exact hbefore.read hs frame hmem

theorem Waits.step (hs : s.Waits) (h : step cx s ev = some t) : t.Waits := by
  have hframe := frameStep_of_step h []
  obtain ⟨hbuffered, hevicted⟩ :=
    buffered_of_frameStep hframe hs.replayed ⟨hs.buffered, hs.evicted⟩
  exact ⟨hframe.replayed hs.replayed, hbuffered, hevicted, hframe.read hs.read⟩

theorem start_waits (now : Time) (manager : ConnectionStateManager) :
    (start cx now manager).Waits := by
  have hempty : (start cx now manager).forwarder.upstreamBuffer = [] := by
    rw [start_forwarder]
    rfl
  refine ⟨start_replayed now manager, ?_, start_trace cx now manager _ fun _ => rfl, ?_⟩
  · rw [hempty]
    exact Nat.zero_le 1
  · rw [hempty]
    exact List.forall_mem_nil _

/-- The housekeeping tick never finds a frame to evict: its age check is never reached by what
waits. -/
theorem nothing_evicted {manager : ConnectionStateManager} {events : List Event}
    (hrun : (Session.step cx).run (start cx now manager) events = some t) :
    t.trace Entry.evicted? = [] :=
  ((Session.step cx).invariant (fun _ _ _ h hs => Waits.step hs h) hrun
    (start_waits now manager)).evicted

/-! ## What a replay sends -/

theorem replays_connected (hphase : s.phase = .connecting) (hinput : ev.input = .connected) :
    s.replays ev = (s.forwarder.upstreamBuffer.take (s.forwarder.upstreamBuffer.length -
      (MessageForwarder.flush s.forwarder.upstreamBuffer ev.env.upstreamSink).2.1.length)).map
        fun frame => ⟨frame, ev.env.now⟩ := by
  simp only [replays, hphase, hinput]

theorem replays_other (h : ¬ (s.phase = .connecting ∧ ev.input = .connected)) :
    s.replays ev = [] := by
  unfold replays
  split
  · rename_i hphase hinput
    exact absurd ⟨hphase, hinput⟩ h
  · rfl

/-- The texts that a connection sends to the Central System are those of the frames replayed. -/
theorem replays_sent (h : step cx s ev = some t) (hinput : ev.input = .connected) :
    t.trace Entry.toCentral? =
      s.trace Entry.toCentral? ++ (s.replays ev).map fun r => r.frame.raw := by
  obtain ⟨hphase, ht⟩ := phase_of_connected h hinput
  obtain ⟨done, rest, hbuffer, hrest, hsent, -⟩ :=
    @onConnected_sent cx { s with clock := ev.env.now } hphase ev.env
  have hfront : s.forwarder.upstreamBuffer.take
      (s.forwarder.upstreamBuffer.length - rest.length) = done := by
    change s.forwarder.upstreamBuffer = done ++ rest at hbuffer
    rw [hbuffer, List.length_append, Nat.add_sub_cancel, List.take_left']
    rfl
  change (MessageForwarder.flush s.forwarder.upstreamBuffer ev.env.upstreamSink).2.1 = rest at hrest
  rw [replays_connected hphase hinput, hrest, hfront, List.map_map]
  exact (congrArg (trace Entry.toCentral?) ht).trans hsent

/-- A frame alone in the buffer is taken unless the connection takes no text. -/
theorem mem_flushed_singleton {frame : OcppFrame} {r : ReplayedFrame} :
    r ∈ ([frame].take ([frame].length -
        (MessageForwarder.flush [frame] env.upstreamSink).2.1.length)).map
      (fun frame => ⟨frame, env.now⟩) ↔
    env.upstreamRoom ≠ some 0 ∧ r.frame ∈ [frame] ∧ r.sentAt = env.now := by
  obtain ⟨g, sentAt⟩ := r
  by_cases hroom : env.upstreamRoom = some 0
  · have hsend := WireSink.sendRaw_of_room_zero (w := env.upstreamSink) hroom frame.raw
    have hrest : (MessageForwarder.flush [frame] env.upstreamSink).2.1 = [frame] := by
      simp only [MessageForwarder.flush, hsend]
    simp [hrest, hroom]
  · have hsend := WireSink.sendRaw_of_room (w := env.upstreamSink) hroom frame.raw
    have hrest : (MessageForwarder.flush [frame] env.upstreamSink).2.1 = [] := by
      simp only [MessageForwarder.flush, hsend]
    simp [hrest, hroom]

/-- A replay takes all that waits, which is one frame, unless the connection takes no text. -/
theorem mem_replays (hs : s.Waits) (r : ReplayedFrame) :
    r ∈ s.replays ev ↔ s.phase = .connecting ∧ ev.input = .connected ∧
      ev.env.upstreamRoom ≠ some 0 ∧ r.frame ∈ s.forwarder.upstreamBuffer ∧
      r.sentAt = ev.env.now := by
  by_cases hconnected : s.phase = .connecting ∧ ev.input = .connected
  · rw [replays_connected hconnected.1 hconnected.2]
    simp only [hconnected, true_and]
    match hbuffer : s.forwarder.upstreamBuffer, hs.buffered with
    | [], _ => simp
    | [frame], _ => exact mem_flushed_singleton
    | _ :: _ :: _, hlong => simp at hlong
  · rw [replays_other hconnected]
    simp only [List.not_mem_nil, false_iff]
    tauto

theorem forall_replays_iff (hs : s.Waits) :
    (∀ r ∈ s.replays ev, r.sentAt - r.frame.receivedAt ≤ cx.config.maxBufferDuration) ↔
      ReconnectsInTime cx s ev := by
  constructor
  · intro hfresh hphase hinput hroom frame hframe
    exact hfresh ⟨frame, ev.env.now⟩ ((mem_replays hs _).mpr ⟨hphase, hinput, hroom, hframe, rfl⟩)
  · intro htime r hr
    obtain ⟨hphase, hinput, hroom, hframe, hsent⟩ := (mem_replays hs r).mp hr
    rw [hsent]
    exact htime hphase hinput hroom r.frame hframe

/-- Every frame that a session replays was read no longer than `maxBufferDuration` before, if and
only if no connection that takes text is made while an older frame waits. -/
theorem replaysFresh_iff {manager : ConnectionStateManager} {events : List Event}
    (hrun : (step cx).run (start cx now manager) events = some t) :
    ReplaysFresh cx (start cx now manager) events t ↔
      (step cx).Meets (ReconnectsInTime cx) (start cx now manager) events := by
  have hstart := @start_waits cx now manager
  have hwaits : (step cx).Meets (fun s _ => s.Waits) (start cx now manager) events :=
    (step cx).meets_of_invariant (fun _ _ _ _ h hs => Waits.step hs h)
      ((step cx).meets_true _ _) hstart
  have hread : ∀ r ∈ (step cx).outputs replays (start cx now manager) events,
      (r.frame.receivedAt, Entry.readCharger r.frame.raw) ∈ t.log := by
    refine (step cx).forall_mem_outputs (Q := Waits)
      (R := fun s (r : ReplayedFrame) => (r.frame.receivedAt, .readCharger r.frame.raw) ∈ s.log)
      (fun _ _ _ h hs => Waits.step hs h) ?_ ?_ hrun hstart
    · intro s ev s' r h hr
      obtain ⟨es, hlog, -⟩ := reports_of_step h
      rw [hlog]
      exact List.mem_append_left es hr
    · intro s ev hs r hr
      exact hs.read r.frame ((mem_replays hs r).mp hr).2.2.2.1
  -- both sides are read off the same replays
  rw [← Machine.Meets.congr hwaits fun s ev hs => forall_replays_iff hs]
  rw [← (step cx).forall_mem_outputs_iff replays
    (fun r => r.sentAt - r.frame.receivedAt ≤ cx.config.maxBufferDuration) hrun]
  constructor
  · intro h r hr
    exact (h r hr).2
  · intro h r hr
    exact ⟨hread r hr, h r hr⟩

/-- A frame that waits for eight seconds. -/
theorem replaysFresh_iff_outage : ∃ t, runOfTable commandTable [.at 1 .connected,
      .upstreamDownAt 2 (.charger (.text heartbeat.1)), .at 4 .timer, .at 10 .connected] = some t ∧
    ReplaysFresh (.ofTable commandTable) (start (.ofTable commandTable) 0 {}) [.at 1 .connected,
      .upstreamDownAt 2 (.charger (.text heartbeat.1)), .at 4 .timer, .at 10 .connected] t := by
  obtain ⟨t, hrun⟩ := Option.isSome_iff_exists.mp (show (runOfTable commandTable
    [.at 1 .connected, .upstreamDownAt 2 (.charger (.text heartbeat.1)), .at 4 .timer,
      .at 10 .connected]).isSome = true by decide +kernel)
  exact ⟨t, hrun, (replaysFresh_iff hrun).mpr (by decide +kernel)⟩

/-- An outage over two attempts that time out: the heartbeat is replayed 35 seconds after it was
read. -/
def longOutage : List Event :=
  [.at 1 .connected, .upstreamDownAt 2 (.charger (.text heartbeat.1)), .at 4 .timer,
    .at 14 .connectFailed, .at 18 .timer, .at 28 .connectFailed, .at 36 .timer, .at 37 .connected]

/-- What waited for 35 seconds is sent all the same. -/
theorem not_replaysFresh_longOutage : ∃ t, runOfTable commandTable longOutage = some t ∧
    ¬ ReplaysFresh (.ofTable commandTable) (start (.ofTable commandTable) 0 {}) longOutage t := by
  obtain ⟨t, hrun⟩ := Option.isSome_iff_exists.mp
    (show (runOfTable commandTable longOutage).isSome = true by decide +kernel)
  refine ⟨t, hrun, fun hfresh => ?_⟩
  have hage : ((step (.ofTable commandTable)).outputs replays (start (.ofTable commandTable) 0 {})
      longOutage).map (fun r => r.sentAt - r.frame.receivedAt) =
        [(Duration.fromSecs 35 : Int)] := by
    decide +kernel
  obtain ⟨r, hr, hold⟩ := List.mem_map.mp (hage ▸ List.mem_singleton_self _)
  have hyoung := (hfresh r hr).2
  rw [hold] at hyoung
  revert hyoung
  decide

end

end Session

end OcppProxy

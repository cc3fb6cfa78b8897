import OcppProxy.QueueDiscipline
import OcppProxy.ResultAccount

/-!
# What may wait

Commands wait in the channel of a session and in its queue, frames in its buffer, events before the
publisher. Each place has its bound in every run, and a session's buffer, whatever size it is
configured with, never has more than the one frame that was read when the upstream failed.
-/

namespace OcppProxy

/-- The queue is within its capacity, which is that of the channel before it. -/
structure LocalView.Roomy (v : LocalView) : Prop where
  capacity : v.calls.capacity = commandChannelCapacity
  queued : v.calls.queued.length ≤ commandChannelCapacity

section
variable {cx : SessionContext} {v w : LocalView}

theorem LocalView.Roomy.step (h : LocalStep cx v w) (hv : v.Roomy) : w.Roomy := by
  obtain ⟨hcapacity, hqueued⟩ := hv
  cases h with
  | @receive request inbox q es resultOf hresult =>
    refine ⟨hcapacity, ?_⟩
    rw [← hcapacity] at hqueued ⊢
    exact q.push_length request hqueued
  | @drop inbox q es before request after result hq hresult =>
    refine ⟨hcapacity, ?_⟩
    simp only [hq, List.length_append, List.length_cons] at hqueued ⊢
    omega
  | renumber sequence => exact ⟨hcapacity, hqueued⟩
  | @send inbox q es request rest uniqueId prepared now hidle hq hp =>
    refine ⟨hcapacity, ?_⟩
    simp only [hq, List.length_cons] at hqueued
    exact (Nat.le_succ _).trans hqueued
  | settle => exact ⟨hcapacity, hqueued⟩
  | late => exact ⟨hcapacity, hqueued⟩

theorem LocalView.Roomy.steps (h : LocalSteps cx v w) (hv : v.Roomy) : w.Roomy := by
  induction h with
  | refl => exact hv
  | tail _ hmove ih => exact ih.step hmove

end

namespace Session

structure Compact (s : Session) : Prop where
  replayed : s.Replayed
  commands : (s.localView []).Roomy
  frames : s.buffered.length ≤ 1

section
variable {cx : SessionContext} {s t : Session} {ev : Event}

theorem compact_start (now : Time) (manager : ConnectionStateManager) :
    (start cx now manager).Compact := by
  have hkept := @framesKept_start cx now manager
  refine ⟨hkept.replayed, ?_, ?_⟩
  · rw [start_localView]
    exact ⟨rfl, Nat.zero_le _⟩
  · simp [buffered, start_forwarder, MessageForwarder.withChargePointId]

/-- Only an empty buffer takes a frame. -/
theorem FrameMove.buffered_length (h : FrameMove cx ev s t) (hs : s.buffered.length ≤ 1) :
    t.buffered.length ≤ 1 := by
  cases h with
  | none _ hbuffered => rwa [hbuffered]
  | lost _ hbuffered => rwa [hbuffered]
  | consumed _ _ hbuffered => rwa [hbuffered]
  | sent _ _ hbuffered => simp [hbuffered]
  | kept _ _ hbuffered => simp [hbuffered]
  | replayed _ hbuffered =>
    rw [hbuffered, List.length_append] at hs
    exact (Nat.le_add_left ..).trans hs
  | delivered _ _ hbuffered => rwa [hbuffered]
  | undelivered _ _ _ hbuffered => rwa [hbuffered]

theorem Compact.step (h : s.Compact) (hstep : Session.step cx s ev = some t) : t.Compact where
  replayed := (frameStep_of_step hstep []).replayed h.replayed
  commands := by
    have hread : (s.localView (ev.requests ++ [])).Roomy := ⟨h.commands.capacity, h.commands.queued⟩
    exact hread.steps (localSteps_of_step hstep [])
  frames := (frameMove_of_step hstep h.replayed).buffered_length h.frames

end

end Session

def DownstreamState.Roomy (d : DownstreamState) : Prop :=
  ∀ n, (d.inboxes n).queue.length ≤ commandChannelCapacity

theorem ConnectionStep.queue_length {cx : ProxyContext} {v w : ConnectionView}
    (h : ConnectionStep cx [] v w) : w.inbox.queue.length ≤ v.inbox.queue.length := by
  generalize haccepted : ([] : List CommandRequest) = accepted at h
  cases h with
  | stepped => exact (List.drop_sublist ..).length_le
  | accepted => cases haccepted
  | _ => first | exact le_rfl | exact Nat.zero_le _

theorem DownstreamState.Roomy.move {cx : ProxyContext} {d d' : DownstreamState}
    {sent : List (String × CommandRequest)} (h : d.Roomy) (hd : d.Routed)
    (hmove : DownstreamMove cx d d' sent) : d'.Roomy := by
  intro n
  cases hmove with
  | @task ev hev hstep =>
    have hnone : d.acceptedBy n ev = [] := by
      cases ev <;> first | rfl | cases hev
    have hview := connectionStep_of_step n hd.fresh hstep
    rw [hnone] at hview
    exact hview.queue_length.trans (h n)
  | shutdown hd' => subst hd'; exact h n
  | manager _ hd' => subst hd'; exact h n
  | dispatched _ hok hd' =>
    subst hd'
    obtain ⟨registration, -, -, hroom, rfl⟩ := (CommandRouter.dispatch_eq_ok ..).mp hok
    show (Function.update d.inboxes registration.tx _ n).queue.length ≤ _
    by_cases hn : n = registration.tx
    · subst hn
      rw [Function.update_self, Inbox.put, List.length_append]
      exact hroom
    · rw [Function.update_of_ne hn]
      exact h n

namespace Process

section
variable {cx : ProxyContext} {config : ProxyConfig} {file : SnapshotMap}
  {events : List ProcessEvent} {x : Process}

/-- In every run what waits is bounded, however fast commands, frames and events come: 32 commands in
the channel of a connection and 32 in the queue of its session, one frame in the session's buffer,
1000 events before the publisher and 10 messages before its client. -/
theorem waiting_bounded_of_run (hrun : (step cx).run (start config file) events = some x) :
    (∀ n, (x.downstream.inboxes n).queue.length ≤ commandChannelCapacity) ∧
      (∀ n id s, x.downstream.sessionOf n = some (id, s) →
        s.localCalls.queued.length ≤ commandChannelCapacity ∧ s.buffered.length ≤ 1) ∧
      x.events.length ≤ mqttChannelCapacity ∧
      x.publisher.client.requests.length ≤ requestChannelCapacity := by
  have hbounds := (step cx).invariant (P := fun x => x.Delivered ∧ x.downstream.Roomy ∧
    ∀ n id s, x.downstream.sessionOf n = some (id, s) → s.Compact) ?_ hrun
    ⟨delivered_start, fun _ => Nat.zero_le _, ?_⟩
  · obtain ⟨-, hroomy, hcompact⟩ := hbounds
    refine ⟨hroomy, fun n id s hs => ?_, (channelled_of_run hrun).room,
      x.publisher.client.length_le⟩
    exact ⟨(hcompact n id s hs).commands.queued, (hcompact n id s hs).frames⟩
  · rintro x ev y hstep ⟨hdelivered, hroomy, hcompact⟩
    obtain ⟨sent, hmove, -⟩ := downstreamMove_of_moved (moved_of_step hstep).2
    refine ⟨hdelivered.step hstep, hroomy.move hdelivered.routed hmove,
      DownstreamState.forall_sessions_of_move (P := fun _ s => s.Compact) hdelivered.routed hmove
        (fun _ now manager => Session.compact_start now manager) ?_ hcompact⟩
    intro id s t manager ev hs hstep
    refine Session.Compact.step (s := { s with manager }) ⟨hs.replayed, ?_, hs.frames⟩ hstep
    exact ⟨hs.commands.capacity, hs.commands.queued⟩
  · simp [start, DownstreamState.new, DownstreamState.sessionOf]

end

theorem waiting_bounded_of_run_commanded : ∃ x,
    (step commandedContext).run (start commandedConfig ∅) commandedEvents = some x ∧
      (∀ n id s, x.downstream.sessionOf n = some (id, s) →
        s.localCalls.queued.length ≤ commandChannelCapacity ∧ s.buffered.length ≤ 1) ∧
      (x.downstream.sessionOf 0).isSome = true := by
  obtain ⟨x, s, -, -, hrun, hs, -⟩ := commandedEvents_sends
  obtain ⟨-, hsessions, -⟩ := waiting_bounded_of_run hrun
  exact ⟨x, hrun, hsessions, by rw [hs]; rfl⟩

end Process

end OcppProxy

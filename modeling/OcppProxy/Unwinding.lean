import OcppProxy.Health
import OcppProxy.ReconnectWindow
import OcppProxy.Shutdown

/-!
# Unwinding

Once the token is set every connection task can come to its end by steps of its own, whatever the
others have done: its session gives up what it awaits, empties its channel and closes, and the task
takes its entry back. So the drain loop of `main` can find the connections map empty.
-/

namespace OcppProxy

/-- How far a phase is from the end of the session, once the token is set. -/
def Phase.rank : Phase → Nat
  | connecting => 4
  | backingOff _ | forwarding | upstreamLost _ => 3
  | draining => 2
  | closing => 1
  | ended => 0

/-- How far a stage is from the end of the task, but for its session and its channel. -/
def ConnectionStage.rank : ConnectionStage → Nat
  | upgrading => 15
  | numbered => 14
  | registered => 13
  | routed => 12
  | connected .. => 11
  | announced => 10
  | running => 5
  | returned => 4
  | unrouted => 3
  | deregistered _ => 2
  | disconnected .. => 1
  | finished => 0

def ConnectionStage.isLeaving : ConnectionStage → Bool
  | returned | unrouted | deregistered _ | disconnected .. | finished => true
  | _ => false

namespace ConnectionView

def rank (v : ConnectionView) : Nat :=
  v.task.elim 0 fun task => task.1.rank + task.2.elim 0 (·.phase.rank) + v.inbox.queue.length

/-- A running task has a session, and it has ended when the task goes on. -/
def Staged (v : ConnectionView) : Prop :=
  ∀ stage session, v.task = some (stage, session) → (stage = .running → session.isSome = true) ∧
    (stage.isLeaving = true → ∀ s ∈ session, s.phase = .ended)

theorem Staged.congr {v w : ConnectionView} (h : v.Staged) (htask : w.task = v.task) :
    w.Staged := by
  unfold Staged
  rw [htask]
  exact h

end ConnectionView

namespace Session

variable {cx : SessionContext} {s : Session}

/-- Once the token is set a session can go on towards its end, with the front of its channel. -/
theorem exists_unwind (cx : SessionContext) (s : Session) (env : Env) (queue : List CommandRequest)
    (hs : s.phase ≠ .ended) : ∃ input t,
    (input = .connectFailed ∨ input = .cancelled ∨ input = .tryRecv queue.head? ∨ input = .closed) ∧
      s.handle cx env input = some t ∧
        t.phase.rank + (queue.drop (Event.requests ⟨env, input⟩).length).length <
          s.phase.rank + queue.length := by
  -- what is not a `try_recv` leaves the channel alone
  have hgoes {input : Input} {t : Session}
      (hinput : input = .connectFailed ∨ input = .cancelled ∨ input = .tryRecv queue.head? ∨
        input = .closed) (hhandle : s.handle cx env input = some t)
      (hnone : Event.requests ⟨env, input⟩ = []) (hlt : t.phase.rank < s.phase.rank) :
      ∃ input t, (input = .connectFailed ∨ input = .cancelled ∨ input = .tryRecv queue.head? ∨
        input = .closed) ∧ s.handle cx env input = some t ∧
          t.phase.rank + (queue.drop (Event.requests ⟨env, input⟩).length).length <
            s.phase.rank + queue.length := by
    refine ⟨input, t, hinput, hhandle, ?_⟩
    rw [hnone, List.length_nil, List.drop_zero]
    exact Nat.add_lt_add_right hlt _
  cases hphase : s.phase with
  | connecting =>
    rw [hphase] at hgoes
    refine @hgoes .connectFailed (s.onConnectFailed cx env.now) (.inl rfl)
      (by unfold handle; rw [hphase]) rfl ?_
    unfold onConnectFailed
    dsimp only
    split
    · rw [beginTeardown_phase]
      decide
    · exact Nat.lt_succ_self 3
  | backingOff deadline =>
    rw [hphase] at hgoes
    refine @hgoes .cancelled (s.beginTeardown cx env.now) (.inr (.inl rfl))
      (by unfold handle; rw [hphase]) rfl ?_
    rw [beginTeardown_phase]
    exact Nat.lt_succ_self 2
  | forwarding =>
    rw [hphase] at hgoes
    refine @hgoes .cancelled (s.beginTeardown cx env.now) (.inr (.inl rfl))
      (by unfold handle; rw [hphase]; rfl) rfl ?_
    rw [beginTeardown_phase]
    exact Nat.lt_succ_self 2
  | upstreamLost deadline =>
    rw [hphase] at hgoes
    refine @hgoes .cancelled (s.beginTeardown cx env.now) (.inr (.inl rfl))
      (by unfold handle; rw [hphase]) rfl ?_
    rw [beginTeardown_phase]
    exact Nat.lt_succ_self 2
  | draining =>
    refine ⟨.tryRecv queue.head?, s.onTryRecv cx env.now queue.head?, .inr (.inr (.inl rfl)),
      (by unfold handle; rw [hphase]), ?_⟩
    cases queue with
    | nil => exact Nat.lt_succ_self 1
    | cons request rest =>
      have hstays : (s.onTryRecv cx env.now (some request)).phase = .draining := hphase
      rw [List.head?_cons, hstays]
      exact Nat.lt_succ_self _
  | closing =>
    rw [hphase] at hgoes
    refine @hgoes .closed (s.onClosed cx env.now) (.inr (.inr (.inr rfl)))
      (by unfold handle; rw [hphase]) rfl ?_
    exact Nat.lt_succ_self 0
  | ended => exact absurd hphase hs

end Session

namespace DownstreamState

section
variable {cx : ProxyContext} {d d' : DownstreamState} {ev : ProxyEvent} {n : Nat}
  {task : ConnectionTask}

theorem staged_of_advance {now : Time} (htask : d.tasks n = some task)
    (h : d.advance cx now n task = some d') (hd : ∀ k, (d.view k).Staged) (k : Nat) :
    (d'.view k).Staged := by
  -- the task goes on without its session
  have hmoved {d₁ : DownstreamState} {stage : ConnectionStage}
      (hview : (d₁.view k).task = (d.view k).task) (hrunning : stage ≠ .running)
      (hleaving : stage.isLeaving = true → task.stage.isLeaving = true) :
      ((d₁.setStage n stage).view k).Staged := by
    rw [view_setStage]
    split
    · rename_i hk
      subst hk
      intro stage' session hboth
      rw [ConnectionView.setStage, hview, view_of_task k htask] at hboth
      cases hboth
      exact ⟨fun h => absurd h hrunning, fun h =>
        ((hd k) _ _ (by rw [view_of_task k htask])).2 (hleaving h)⟩
    · exact (hd k).congr hview
  unfold advance at h
  split at h <;> rename_i hstage
  · cases h
    rw [view_modifyTask]
    split
    · rename_i hk
      subst hk
      intro stage session hboth
      simp only [htask, Option.map_some] at hboth
      cases hboth
      exact ⟨fun h => (by cases h), fun h => by cases h⟩
    · exact hd k
  · cases h
    exact hmoved (by rw [view_registerConnection]) (by simp) fun h => by cases h
  · cases h
    exact hmoved rfl (by simp) fun h => by cases h
  · cases h
    exact hmoved rfl (by simp) fun h => by cases h
  · cases h
    exact hmoved rfl (by simp) fun h => by cases h
  · cases h
    rw [view_setStage, view_putSession]
    split
    · rename_i hk
      subst hk
      intro stage session hboth
      rw [view_of_task k htask] at hboth
      cases hboth
      exact ⟨fun _ => rfl, fun h => by cases h⟩
    · exact hd k
  · split at h
    · rename_i hended
      cases h
      rw [view_setStage, view_update]
      split
      · rename_i hk
        subst hk
        intro stage session hboth
        rw [view_of_task k htask] at hboth
        cases hboth
        refine ⟨fun h => (by cases h), fun _ s hs => ?_⟩
        have hs : task.session = some s := hs
        rw [hs] at hended
        exact of_decide_eq_true hended
      · exact hd k
    · cases h
  · cases h
    exact hmoved rfl (by simp) fun _ => by rw [hstage]; rfl
  · cases h
    exact hmoved (congrArg ConnectionView.task (view_deregisterConnection k _ _)) (by simp) fun _ => by
      rw [hstage]
      rfl
  · cases h
    exact hmoved rfl (by simp) fun _ => by rw [hstage]; rfl
  · cases h
    exact hmoved rfl (by simp) fun _ => by rw [hstage]; rfl
  · cases h
    exact hmoved rfl (by simp) fun _ => by rw [hstage]; rfl
  · cases h

theorem staged_of_step (hrouted : d.Routed) (h : step cx d ev = some d')
    (hd : ∀ k, (d.view k).Staged) (k : Nat) : (d'.view k).Staged := by
  have hearly {m : Nat} {task : ConnectionTask} (htask : d.tasks m = some task)
      (h : task.stage.isEarly = true) : task.session = none :=
    (hrouted.accounted m).early task.stage task.session (by rw [view_of_task m htask]) h
  cases ev with
  | upgrade chargePointId protocolHeader =>
    cases h
    unfold wsUpgradeHandler
    split
    · by_cases hk : k = d.opened
      · subst hk
        intro stage session hboth
        simp only [view, Function.update_self, Option.map_some] at hboth
        cases hboth
        exact ⟨fun h => (by cases h), fun h => by cases h⟩
      · exact (hd k).congr (by simp only [view, Function.update_of_ne hk])
    · exact hd k
  | abandon m =>
    obtain ⟨task, htask, h⟩ := Option.bind_eq_some_iff.mp h
    split at h
    · rename_i hstage
      cases h
      rw [view_setStage]
      split
      · rename_i hk
        subst hk
        intro stage session hboth
        rw [view_of_task k htask, hearly htask (by rw [hstage]; rfl)] at hboth
        cases hboth
        exact ⟨fun h => (by cases h), fun _ s hs => by cases hs⟩
      · exact hd k
    · cases h
  | advance m now =>
    obtain ⟨task, htask, h⟩ := Option.bind_eq_some_iff.mp h
    exact staged_of_advance htask h hd k
  | session m e =>
    obtain ⟨task, htask, h⟩ := Option.bind_eq_some_iff.mp h
    obtain ⟨s, hs, h⟩ := Option.bind_eq_some_iff.mp h
    unfold sessionStep at h
    split at h
    · rename_i hadmits
      obtain ⟨t, ht, rfl⟩ := Option.map_eq_some_iff.mp h
      rw [view_putSession, view_update]
      split
      · rename_i hk
        subst hk
        intro stage session hboth
        rw [view_of_task k htask, ConnectionView.setSession] at hboth
        cases hboth
        refine ⟨fun _ => rfl, fun hleaving => ?_⟩
        -- a session that has ended takes no step
        have hended := (hd k _ _ (by rw [view_of_task k htask])).2 hleaving s hs
        refine absurd hended (Session.not_ended_of_step (s := { s with manager := d.stateManager })
          ht fun manager hmanager => ?_)
        rw [hmanager] at hadmits
        cases hadmits
      · exact hd k
    · cases h
  | dispatch chargePointId request =>
    simp only [step] at h
    split at h <;> cases h
    · exact (hd k).congr rfl
    · exact hd k
  | shutdown =>
    cases h
    exact hd k

/-- Once the token is set a task that has not finished can go on towards its end, and leaves the other
tasks alone. -/
theorem exists_unwind (cx : ProxyContext) (hstaged : (d.view n).Staged)
    (hshutdown : d.shutdown = true) (htask : d.tasks n = some task)
    (hstage : task.stage ≠ .finished) : ∃ ev d',
      ((∃ now, ev = .advance n now) ∨ ∃ e, ev = .session n e) ∧ step cx d ev = some d' ∧
        d'.opened = d.opened ∧ (d'.view n).rank < (d.view n).rank ∧
          ∀ k, k ≠ n → d'.view k = d.view k := by
  have hrank : (d.view n).rank = task.stage.rank + task.session.elim 0 (·.phase.rank) +
      (d.inboxes n).queue.length := by
    rw [view_of_task n htask]
    rfl
  -- the task goes on by itself
  have hgoes {d' : DownstreamState} (h : d.advance cx 0 n task = some d')
      (hlt : (d'.view n).rank < (d.view n).rank)
      (hothers : ∀ k, k ≠ n → d'.view k = d.view k) : ∃ ev d',
      ((∃ now, ev = .advance n now) ∨ ∃ e, ev = .session n e) ∧ step cx d ev = some d' ∧
        d'.opened = d.opened ∧ (d'.view n).rank < (d.view n).rank ∧
          ∀ k, k ≠ n → d'.view k = d.view k :=
    ⟨.advance n 0, d', .inl ⟨0, rfl⟩, by simp only [step, htask, Option.bind_some, h],
      (sameTasks_advance n h).1, hlt, hothers⟩
  have hmoved {d₁ : DownstreamState} {stage : ConnectionStage}
      (h : d.advance cx 0 n task = some (d₁.setStage n stage)) (hviews : ∀ k, d₁.view k = d.view k)
      (hlt : stage.rank < task.stage.rank) : ∃ ev d',
      ((∃ now, ev = .advance n now) ∨ ∃ e, ev = .session n e) ∧ step cx d ev = some d' ∧
        d'.opened = d.opened ∧ (d'.view n).rank < (d.view n).rank ∧
          ∀ k, k ≠ n → d'.view k = d.view k := by
    refine hgoes h ?_ fun k hk => ?_
    · rw [hrank, view_setStage, if_pos rfl, hviews, view_of_task n htask]
      exact Nat.add_lt_add_right (Nat.add_lt_add_right hlt _) _
    · rw [view_setStage, if_neg hk, hviews]
  cases hstage' : task.stage with
  | upgrading =>
    refine @hgoes (({ d with generation := d.generation + 1 } : DownstreamState).modifyTask n
      ({ · with generation := d.generation, stage := .numbered })) ?_ ?_ fun k hk => ?_
    · simp only [advance, hstage']
    · rw [hrank, view_modifyTask, if_pos rfl, hstage']
      simp only [htask, Option.map_some, ConnectionView.rank, Option.elim_some]
      exact Nat.add_lt_add_right (Nat.add_lt_add_right (by decide) _) _
    · rw [view_modifyTask, if_neg hk]
      rfl
  | numbered =>
    refine @hmoved (d.registerConnection n task) .registered (by simp only [advance, hstage'])
      (fun k => view_registerConnection k n task) ?_
    rw [hstage']
    exact Nat.lt_succ_self 13
  | registered =>
    refine @hgoes (({ d with
      inboxes := Function.update d.inboxes n {}
      commandRouter := d.commandRouter.register task.chargePointId task.generation n } :
        DownstreamState).setStage n .routed) ?_ ?_ fun k hk => ?_
    · simp only [advance, hstage']
    · rw [hrank, view_setStage, if_pos rfl, view_update, if_pos rfl, view_of_task n htask, hstage']
      exact Nat.add_lt_add_of_lt_of_le (Nat.add_lt_add_right (Nat.lt_succ_self 12) _)
        (Nat.zero_le _)
    · rw [view_setStage, if_neg hk, view_update, if_neg hk]
  | routed =>
    refine @hmoved (d.transitionDownstream .connected).2 (.connected _ _)
      (by simp only [advance, hstage']; rfl) (fun _ => rfl) ?_
    rw [hstage']
    exact Nat.lt_succ_self 11
  | connected upstream downstream =>
    refine @hmoved (d.publishStatus task.chargePointId upstream downstream) .announced
      (by simp only [advance, hstage']) (fun _ => rfl) ?_
    rw [hstage']
    exact Nat.lt_succ_self 10
  | announced =>
    refine @hgoes ((d.putSession n task.chargePointId 0
      (.start (cx.session task.chargePointId) 0 d.stateManager)).setStage n .running) ?_ ?_
      fun k hk => ?_
    · simp only [advance, hstage']
    · rw [hrank, view_setStage, if_pos rfl, view_putSession, if_pos rfl, view_of_task n htask, hstage']
      refine Nat.add_lt_add_right ?_ _
      exact Nat.lt_add_right _ (show 5 + 4 < 10 by decide)
    · rw [view_setStage, if_neg hk, view_putSession, if_neg hk]
  | running =>
    obtain ⟨s, hs⟩ := Option.isSome_iff_exists.mp
      ((hstaged _ _ (by rw [view_of_task n htask])).1 hstage')
    by_cases hended : s.phase = .ended
    · refine @hgoes (({ d with inboxes := Function.update d.inboxes n (d.inboxes n).close } :
        DownstreamState).setStage n .returned) ?_ ?_ fun k hk => ?_
      · simp [advance, hstage', hs, hended]
      · rw [hrank, view_setStage, if_pos rfl, view_update, if_pos rfl, view_of_task n htask, hstage']
        exact Nat.add_lt_add_of_lt_of_le (Nat.add_lt_add_right (Nat.lt_succ_self 4) _)
          (Nat.zero_le _)
      · rw [view_setStage, if_neg hk, view_update, if_neg hk]
    · -- the session goes on
      obtain ⟨input, t, hinput, hhandle, hlt⟩ := Session.exists_unwind (cx.session task.chargePointId)
        { s with manager := d.stateManager } { now := s.clock } (d.inboxes n).queue hended
      have hadmits : d.admits n task input = true := by
        rcases hinput with rfl | rfl | rfl | rfl
        · rfl
        · simp [admits, hshutdown]
        · cases hqueue : (d.inboxes n).queue with
          | nil => simp [admits, hqueue]
          | cons request rest => simp [admits, hqueue]
        · rfl
      have hstep : Session.step (cx.session task.chargePointId) { s with manager := d.stateManager }
          ⟨{ now := s.clock }, input⟩ = some t :=
        Session.step_eq_some.mpr ⟨le_rfl, hhandle⟩
      refine ⟨.session n ⟨{ now := s.clock }, input⟩, ({ d with
        inboxes := Function.update d.inboxes n ((d.inboxes n).take
          (Event.requests ⟨{ now := s.clock }, input⟩).length) } : DownstreamState).putSession n
            task.chargePointId s.log.length t, .inr ⟨_, rfl⟩, ?_, rfl, ?_, fun k hk => ?_⟩
      · simp only [step, htask, hs, Option.bind_some, sessionStep, hadmits, if_true, hstep,
          Option.map_some]
      · rw [hrank, view_putSession, if_pos rfl, view_update, if_pos rfl, view_of_task n htask, hs]
        simp only [ConnectionView.setSession, ConnectionView.rank, Option.map_some,
          Option.elim_some, Nat.add_assoc]
        exact Nat.add_lt_add_left hlt _
      · rw [view_putSession, if_neg hk, view_update, if_neg hk]
  | returned =>
    refine @hmoved { d with commandRouter :=
      (d.commandRouter.deregister task.chargePointId task.generation).2 } .unrouted
      (by simp only [advance, hstage']) (fun _ => rfl) ?_
    rw [hstage']
    exact Nat.lt_succ_self 3
  | unrouted =>
    refine @hmoved (d.deregisterConnection task.chargePointId task.generation).2 (.deregistered _)
      (by simp only [advance, hstage']; rfl) (fun k => view_deregisterConnection k _ _) ?_
    rw [hstage']
    exact Nat.lt_succ_self 2
  | deregistered stillCurrent =>
    cases stillCurrent with
    | true =>
      refine @hmoved (d.transitionDownstream .disconnected).2 (.disconnected _ _)
        (by simp only [advance, hstage']; rfl) (fun _ => rfl) ?_
      rw [hstage']
      exact Nat.lt_succ_self 1
    | false =>
      refine @hmoved d .finished (by simp only [advance, hstage']) (fun _ => rfl) ?_
      rw [hstage']
      decide
  | disconnected upstream downstream =>
    refine @hmoved (d.publishStatus task.chargePointId upstream downstream) .finished
      (by simp only [advance, hstage']) (fun _ => rfl) ?_
    rw [hstage']
    exact Nat.lt_succ_self 0
  | finished => exact absurd hstage' hstage

/-- Where every task has finished the connections map is empty. -/
theorem Routed.connections_of_finished (h : d.Routed)
    (hfinished : ∀ n task, d.tasks n = some task → task.stage = .finished) :
    d.connections.entries = [] := by
  have hnone (id : String) : id ∉ d.connections := by
    intro hid
    obtain ⟨active, hactive⟩ := AList.lookup_isSome.mpr hid |> Option.isSome_iff_exists.mp
    obtain ⟨t, ht, -, -, hentered⟩ := h.sane.entry id active hactive
    obtain ⟨task, htask, rfl⟩ := Option.map_eq_some_iff.mp ht
    have hstage : task.view.stage = .finished := hfinished _ task htask
    rw [hstage] at hentered
    cases hentered
  refine List.eq_nil_iff_forall_not_mem.mpr fun e he => hnone e.1 ?_
  exact List.mem_map_of_mem (f := Sigma.fst) he

end

end DownstreamState

namespace Process

structure Unwinds (x : Process) : Prop where
  delivered : x.Delivered
  paced : x.Paced
  staged : ∀ n, (x.downstream.view n).Staged
  closes : ∀ n id s, x.downstream.sessionOf n = some (id, s) → s.ClosesOnce

section
variable {cx : ProxyContext} {config : ProxyConfig} {file : SnapshotMap}
  {events : List ProcessEvent} {x y : Process} {ev : ProcessEvent}

theorem Unwinds.step (h : x.Unwinds) (hstep : Process.step cx x ev = some y) : y.Unwinds := by
  obtain ⟨sent, hmove, -⟩ := downstreamMove_of_moved (moved_of_step hstep).2
  refine ⟨h.delivered.step hstep, h.paced.step hstep, fun n => ?_, ?_⟩
  · cases hmove with
    | task hev hd => exact DownstreamState.staged_of_step h.delivered.routed hd h.staged n
    | shutdown hd => rw [hd]; exact h.staged n
    | manager _ hd => rw [hd]; exact h.staged n
    | dispatched _ _ hd => rw [hd]; exact (h.staged n).congr rfl
  · refine DownstreamState.forall_sessions_of_move (P := fun _ s => s.ClosesOnce)
      h.delivered.routed hmove (fun id now manager => Session.start_closesOnce now manager) ?_ h.closes
    intro id s t manager e hs ht
    have hs : Session.ClosesOnce { s with manager, clock := e.env.now } := hs
    exact hs.of_timingStep (Session.timingStep_of_step ht)

theorem unwinds_of_run (hrun : (step cx).run (start config file) events = some x) : x.Unwinds := by
  refine (step cx).invariant (P := Unwinds) (fun _ _ _ hs h => h.step hs) hrun
    ⟨delivered_start, paced_start, fun n => ?_, ?_⟩
  · intro stage session hboth
    cases hboth
  · simp [start, DownstreamState.new, DownstreamState.sessionOf]

def unwindRank (x : Process) : Nat :=
  ∑ n ∈ Finset.range x.downstream.opened, (x.downstream.view n).rank

/-- A task that has not finished goes on, and `main` stands by. -/
theorem exists_unwind_step (cx : ProxyContext) (h : x.Unwinds)
    (hshutdown : x.downstream.shutdown = true) (hmain : x.main ≠ .stopped) {n : Nat}
    {task : ConnectionTask} (htask : x.downstream.tasks n = some task)
    (hstage : task.stage ≠ .finished) : ∃ ev y,
      ((∃ now, ev = .task (.advance n now)) ∨ ∃ e, ev = .task (.session n e)) ∧
        Process.step cx x ev = some y ∧ y.downstream.shutdown = true ∧ y.main = x.main ∧
          y.unwindRank < x.unwindRank := by
  obtain ⟨ev, d, hev, hd, hopened, hlt, hothers⟩ :=
    DownstreamState.exists_unwind cx (h.staged n) hshutdown htask hstage
  have hstarting : x.main ≠ .starting := by
    intro hstarting
    rw [h.paced.unsignalled hstarting] at hshutdown
    cases hshutdown
  have hisTask : ev.isTask = true := by
    rcases hev with ⟨now, rfl⟩ | ⟨e, rfl⟩ <;> rfl
  refine ⟨.task ev, { x with downstream := d }, ?_, ?_, (shutdown_of_task hisTask hd).trans hshutdown,
    rfl, ?_⟩
  · rcases hev with ⟨now, rfl⟩ | ⟨e, rfl⟩
    · exact .inl ⟨now, rfl⟩
    · exact .inr ⟨e, rfl⟩
  · unfold Process.step
    rw [if_neg hmain]
    simp only [hisTask, hstarting, ne_eq, not_false_eq_true, and_self, if_true, hd, Option.map_some]
  · have hn : n ∈ Finset.range x.downstream.opened := by
      by_contra hn
      rw [h.delivered.routed.fresh n (by simpa using hn)] at htask
      cases htask
    unfold unwindRank
    rw [hopened]
    refine Finset.sum_lt_sum (fun k _ => ?_) ⟨n, hn, hlt⟩
    by_cases hk : k = n
    · rw [hk]
      exact hlt.le
    · rw [hothers k hk]

end

/-- The signal comes while the session of a charger forwards. -/
theorem commandedEvents_signalled :
    ((step commandedContext).run (start commandedConfig ∅) (commandedEvents ++ [.signal])).map
      (fun x => decide (x.downstream.shutdown = true ∧ x.main ≠ .stopped ∧
        x.downstream.connections.entries.length = 1)) = some true := by
  decide +kernel

end Process

end OcppProxy

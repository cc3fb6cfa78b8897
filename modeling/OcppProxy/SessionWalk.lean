import OcppProxy.SessionSteps

/-!
# The handlers that all relations keep to

Outside the arms of the forwarding loop a session changes fields, gives up its local calls and logs
entries that are neither Calls nor answers nor reports of forwarded messages. A relation that permits
these holds of every handler, and of every step if it also holds of the arms.
-/

namespace OcppProxy

/-- Neither a Call nor an answer to one nor the report of a forwarded message. -/
def Entry.isCommon : Entry → Bool
  | .call .. | .consumed _ | .event (.messageForwarded ..) => false
  | _ => true

namespace Session

/-- The relation allows for what any handler may do. -/
structure Permits (R : Session → Session → Prop) : Prop where
  trans : ∀ {s t u}, R s t → R t u → R s u
  /-- Fields other than the log, the queue and the charge point change. -/
  fields : ∀ {s t}, t.log = s.log → t.localCalls = s.localCalls →
    t.forwarder.chargePointId = s.forwarder.chargePointId → R s t
  /-- The local calls are given up. -/
  release : ∀ s : Session,
    R s { s with localCalls := { s.localCalls with queued := [], inFlight := none } }
  note : ∀ s now e, Entry.isCommon e = true → R s (s.note now e)

namespace Permits

variable {R : Session → Session → Prop} {cx : SessionContext} {env : Env} {now : Time}
  {s t : Session}

theorem refl (hR : Permits R) (s : Session) : R s s := hR.fields rfl rfl rfl

theorem noteAll (hR : Permits R) (s : Session) (now : Time) {es : List Entry}
    (hes : ∀ e ∈ es, e.isCommon = true) : R s (s.noteAll now es) := by
  induction es generalizing s with
  | nil => exact hR.fields (by simp) rfl rfl
  | cons e es ih =>
    obtain ⟨he, hes⟩ := List.forall_mem_cons.mp hes
    have hnoted := ih (s.note now e) hes
    have hall : (s.note now e).noteAll now es = s.noteAll now (e :: es) := by
      simp [Session.note, Session.noteAll]
    rw [hall] at hnoted
    exact hR.trans (hR.note s now e he) hnoted

theorem set (hR : Permits R) (s : Session) (newState : ConnectionState) :
    R s (s.setUpstreamState cx now newState) := by
  unfold setUpstreamState
  split
  · exact hR.refl s
  · have hmanager : R s { s with manager := s.manager.transition .upstream newState } :=
      hR.fields rfl rfl rfl
    refine hR.trans hmanager (hR.note _ now _ ?_)
    rfl

theorem enterConnecting (hR : Permits R) (s : Session) : R s (s.enterConnecting cx now) :=
  hR.trans (hR.set s .connecting) (hR.fields rfl rfl rfl)

theorem beginTeardown (hR : Permits R) (s : Session) : R s (s.beginTeardown cx now) := by
  have hreleased : R s { s with
      manager := s.countUndelivered
      phase := .draining
      localCalls := { s.localCalls with queued := [], inFlight := none } } :=
    hR.trans (hR.release s) (hR.fields rfl rfl rfl)
  rw [beginTeardown_eq]
  refine hR.trans hreleased (hR.noteAll _ now fun e he => ?_)
  rcases List.mem_append.mp he with he | he <;> obtain ⟨-, -, rfl⟩ := List.mem_map.mp he <;> rfl

theorem onUpstreamLost (hR : Permits R) (s : Session) : R s (s.onUpstreamLost cx now) := by
  have hdiscard : R s { s with forwarder := s.forwarder.discardDownstreamBuffer } :=
    hR.fields rfl rfl rfl
  exact hR.trans (hR.trans hdiscard (hR.set _ .reconnecting)) (hR.fields rfl rfl rfl)

theorem finishArm (hR : Permits R) (arm : Arm) : R arm.1 (finishArm cx now arm) := by
  rcases arm with ⟨s, _ | _ | _ | _⟩
  · exact hR.refl s
  · exact hR.beginTeardown s
  · exact hR.onUpstreamLost s
  · exact hR.beginTeardown s

theorem onConnectFailed (hR : Permits R) (s : Session) : R s (s.onConnectFailed cx now) := by
  have hstarted : R s { s with reconnectingSince := some (s.reconnectingSince.getD now) } :=
    hR.fields rfl rfl rfl
  unfold Session.onConnectFailed
  dsimp only
  split
  · have hgone : R s { s with
        reconnectingSince := some (s.reconnectingSince.getD now)
        closeCode := closeGoingAway } := hR.fields rfl rfl rfl
    exact hR.trans hgone (hR.beginTeardown _)
  · exact hR.trans (hR.trans hstarted (hR.set _ .reconnecting)) (hR.fields rfl rfl rfl)

theorem onConnected (hR : Permits R) (s : Session) : R s (s.onConnected cx env) := by
  have hreset : R s { s with backoff := s.backoff.reset, reconnectingSince := none } :=
    hR.fields rfl rfl rfl
  have hset : R s (({ s with backoff := s.backoff.reset, reconnectingSince := none } :
      Session).setUpstreamState cx env.now .connected) := hR.trans hreset (hR.set _ .connected)
  unfold Session.onConnected
  dsimp only
  generalize setUpstreamState cx env.now .connected _ = u at hset ⊢
  have hflushed : R s
      { u with forwarder := (u.forwarder.flushUpstream env.upstreamSink).2.1 } :=
    hR.trans hset (hR.fields rfl rfl rfl)
  have hsent := hR.trans hflushed (hR.noteAll _ env.now (List.forall_mem_map.mpr fun text
    (_ : text ∈ (u.forwarder.flushUpstream env.upstreamSink).2.2.sent) =>
      (rfl : Entry.isCommon (.toCentral text) = true)))
  split
  · exact hR.trans hsent (hR.fields rfl rfl rfl)
  · exact hR.trans hsent (hR.enterConnecting _)

theorem onChargerWhileBackingOff (hR : Permits R) (message : ChargerMessage) (s : Session) :
    R s (s.onChargerWhileBackingOff cx now message) := by
  cases message with
  | text text => exact hR.trans (hR.note s now (.readCharger text) rfl) (hR.enterConnecting _)
  | binary => exact hR.enterConnecting s
  | other => exact hR.enterConnecting s
  | close => exact hR.beginTeardown s
  | error => exact hR.beginTeardown s
  | none => exact hR.beginTeardown s

theorem housekeepingArm (hR : Permits R) (s : Session) : R s (s.housekeepingArm env) := by
  have hcleaned : R s { s with
      forwarder := ((s.forwarder.evictExpiredMessages env.now).2.cleanupExpiredCalls env.now).2 } :=
    hR.fields rfl rfl rfl
  exact hR.trans hcleaned (hR.noteAll _ _ (List.forall_mem_map.mpr fun _ _ => rfl))

theorem onTryRecv (hR : Permits R) (request : Option CommandRequest) (s : Session) :
    R s (s.onTryRecv cx now request) := by
  cases request with
  | none =>
    have hclosing : R s { s with phase := .closing } := hR.fields rfl rfl rfl
    exact hR.trans hclosing (hR.note _ now (.close s.closeCode) rfl)
  | some request =>
    exact hR.trans (hR.note s now (.received request) rfl) (hR.note _ now _ rfl)

/-- A step keeps to the relation if the arms do that may send a Call, take an answer or report a
message. -/
theorem step (hR : Permits R) {ev : Event}
    (hcharger : ∀ (s : Session) text, R s (s.chargerText cx ev.env text).1)
    (hcentral : ∀ (s : Session) text, R s (s.centralText cx ev.env text).1)
    (hcommand : ∀ (s : Session) request, R s (s.commandArm cx ev.env request).1)
    (htick : ∀ s : Session, R s (s.commandTickArm cx ev.env).1)
    (h : Session.step cx s ev = some t) : R s t := by
  obtain ⟨env, input⟩ := ev
  obtain ⟨-, hhandle⟩ := step_eq_some.mp h
  have hclock : R s { s with clock := env.now } := hR.fields rfl rfl rfl
  refine hR.trans hclock ?_
  cases handled_of_handle hhandle with
  | manager manager => exact hR.fields rfl rfl rfl
  | connectFailed => exact hR.onConnectFailed _
  | connected => exact hR.onConnected _
  | slept => exact hR.enterConnecting _
  | cancelledAsleep => exact hR.beginTeardown _
  | chargerAsleep message => exact hR.onChargerWhileBackingOff message _
  | charger message =>
    cases message with
    | text text => exact hR.trans (hcharger _ text) (hR.finishArm _)
    | _ => exact hR.finishArm (_, _)
  | central message =>
    cases message with
    | text text => exact hR.trans (hcentral _ text) (hR.finishArm _)
    | _ => exact hR.finishArm (_, _)
  | command request => exact hR.trans (hcommand _ request) (hR.finishArm _)
  | commandTick => exact hR.trans (htick _) (hR.finishArm _)
  | housekeeping => exact hR.housekeepingArm _
  | cancelled => exact hR.finishArm (_, some .shutdown)
  | tryRecv request => exact hR.onTryRecv request _
  | closed => exact hR.trans (hR.set _ .disconnected) (hR.fields rfl rfl rfl)

end Permits

end Session

end OcppProxy

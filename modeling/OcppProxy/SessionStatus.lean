import OcppProxy.SessionArms
import OcppProxy.SessionManager

/-!
# What a session reports of the connection states

A step of a session calls `set_upstream_state` a few times, and does nothing else to the connection
states and their publication. The results it reports are those of its local calls.
-/

namespace OcppProxy

open Relation (ReflTransGen)

def MqttEvent.status? : MqttEvent → Option (String × ConnectionState × ConnectionState)
  | .stateChange chargePointId upstream downstream => some (chargePointId, upstream, downstream)
  | _ => none

def Entry.status? (chargePointId : String) (e : Entry) :
    Option (String × ConnectionState × ConnectionState) :=
  (e.mqttEvent? chargePointId).bind MqttEvent.status?

def Entry.isPlain : Entry → Bool
  | .event (.stateChange ..) | .event (.commandResult ..) => false
  | _ => true

theorem Entry.isPlain_of_isLocal {e : Entry} (h : e.isLocal = true) : e.isPlain = true := by
  cases e <;> first | rfl | cases h

theorem Entry.isPlain_of_isFrame {e : Entry} (h : e.isFrame = true) : e.isPlain = true := by
  cases e <;> first | rfl | cases h

theorem Entry.isPlain_of_isArmWork {e : Entry} (h : e.isArmWork = true) : e.isPlain = true := by
  cases e with
  | event e => cases e <;> first | rfl | cases h
  | _ => rfl

theorem Entry.status?_of_isPlain {id : String} {e : Entry} (h : e.isPlain = true) :
    e.status? id = none := by
  cases e with
  | event e => cases e <;> first | rfl | cases h
  | _ => rfl

namespace Session

/-- Neither connection state changes, and no state change is reported. -/
structure Plain (s t : Session) : Prop where
  upstream : t.manager.upstreamState = s.manager.upstreamState
  downstream : t.manager.downstreamState = s.manager.downstreamState
  log : ∃ es, t.log = s.log ++ es ∧ ∀ e ∈ es, e.2.isPlain = true

/-- One call of `set_upstream_state` with a state that `p` holds of, or none. -/
inductive StatusMove (cx : SessionContext) (p : ConnectionState → Prop) : Session → Session → Prop
  | plain {s t} (h : Plain s t) : StatusMove cx p s t
  | set {s now newState} (hp : p newState) : StatusMove cx p s (s.setUpstreamState cx now newState)

abbrev StatusMoves (cx : SessionContext) (p : ConnectionState → Prop) :
    Session → Session → Prop :=
  ReflTransGen (StatusMove cx p)

section
variable {cx : SessionContext} {env : Env} {now : Time} {s t u : Session}
  {p : ConnectionState → Prop}

theorem Plain.of_fields (hmanager : t.manager.upstreamState = s.manager.upstreamState ∧
    t.manager.downstreamState = s.manager.downstreamState) (hlog : t.log = s.log) :
    Plain s t :=
  ⟨hmanager.1, hmanager.2, [], by simp [hlog], by simp⟩

theorem Plain.refl (s : Session) : Plain s s := .of_fields ⟨rfl, rfl⟩ rfl

theorem Plain.trans (h : Plain s t) (h' : Plain t u) : Plain s u where
  upstream := h'.upstream.trans h.upstream
  downstream := h'.downstream.trans h.downstream
  log := by
    obtain ⟨es, hes, hplain⟩ := h.log
    obtain ⟨es', hes', hplain'⟩ := h'.log
    refine ⟨es ++ es', by rw [hes', hes, List.append_assoc], fun e he => ?_⟩
    exact (List.mem_append.mp he).elim (hplain e) (hplain' e)

theorem Plain.noteAll {es : List Entry} (h : Plain s t)
    (hes : ∀ e ∈ es, e.isPlain = true) : Plain s (t.noteAll now es) :=
  h.trans ⟨rfl, rfl, _, noteAll_log t now es, List.forall_mem_map.mpr hes⟩

theorem Plain.note {e : Entry} (h : Plain s t) (he : e.isPlain = true) :
    Plain s (t.note now e) :=
  h.trans ⟨rfl, rfl, [(now, e)], rfl, by simpa using he⟩

/-- Entries of frames and of the proxy's commands. -/
theorem Plain.noteOther {es : List Entry} (h : Plain s t)
    (hes : ∀ e ∈ es, e.isLocal = true ∨ e.isFrame = true) : Plain s (t.noteAll now es) :=
  h.noteAll fun e he => (hes e he).elim Entry.isPlain_of_isLocal Entry.isPlain_of_isFrame

theorem recordForwarded_states (m : ConnectionStateManager) (direction : Direction) (n : Nat) :
    ((fun m => m.recordForwarded direction)^[n] m).upstreamState = m.upstreamState ∧
      ((fun m => m.recordForwarded direction)^[n] m).downstreamState = m.downstreamState := by
  induction n with
  | zero => exact ⟨rfl, rfl⟩
  | succ n ih =>
    simp only [Function.iterate_succ_apply']
    cases direction <;> exact ih

/-! ## Handlers that set no state -/

theorem Plain.of_armWork (h : ArmWork s t) : Plain s t := by
  have hbearings := h.bearings
  simp only [bearings, Prod.mk.injEq] at hbearings
  obtain ⟨-, -, -, -, -, hupstream, hdownstream⟩ := hbearings
  obtain ⟨es, hlog, hwork⟩ := h.log
  exact ⟨hupstream, hdownstream, es, hlog, fun e he => Entry.isPlain_of_isArmWork (hwork e he)⟩

theorem plain_beginTeardown (s : Session) : Plain s (s.beginTeardown cx now) := by
  have hdraining : Plain s { s with phase := .draining } := .of_fields ⟨rfl, rfl⟩ rfl
  exact hdraining.trans (.of_armWork (armWork_beginTeardown s))

theorem plain_onTryRecv (request : Option CommandRequest) (s : Session) :
    Plain s (s.onTryRecv cx now request) := by
  cases request with
  | some request =>
    have hread : Plain s (s.note now (.received request)) := .note (.refl s) rfl
    exact Plain.note hread rfl
  | none =>
    exact Plain.note (.of_fields ⟨rfl, rfl⟩ rfl) rfl

/-! ## Handlers that set a state -/

theorem StatusMoves.plain (h : StatusMoves cx p s t) (h' : Plain t u) : StatusMoves cx p s u :=
  h.tail (.plain h')

theorem StatusMoves.fields (h : StatusMoves cx p s t)
    (hmanager : u.manager.upstreamState = t.manager.upstreamState ∧
      u.manager.downstreamState = t.manager.downstreamState) (hlog : u.log = t.log) :
    StatusMoves cx p s u :=
  h.plain (.of_fields hmanager hlog)

theorem StatusMoves.set (h : StatusMoves cx p s t) (now : Time) {newState : ConnectionState}
    (hp : p newState) :
    StatusMoves cx p s (t.setUpstreamState cx now newState) :=
  h.tail (.set hp)

theorem StatusMoves.enterConnecting (h : StatusMoves cx p s t) (hp : p .connecting) :
    StatusMoves cx p s (t.enterConnecting cx now) :=
  (h.set now hp).fields ⟨rfl, rfl⟩ rfl

theorem moves_onUpstreamLost (hp : p .reconnecting) (s : Session) :
    StatusMoves cx p s (s.onUpstreamLost cx now) := by
  have hdiscard : StatusMoves cx p s
      { s with forwarder := s.forwarder.discardDownstreamBuffer } :=
    StatusMoves.fields .refl ⟨rfl, rfl⟩ rfl
  have hset := StatusMoves.set hdiscard now hp
  exact StatusMoves.fields hset ⟨rfl, rfl⟩ rfl

theorem moves_finishArm (hp : p .reconnecting) {arm : Arm} (h : Plain s arm.1) :
    StatusMoves cx p s (finishArm cx now arm) := by
  refine (StatusMoves.plain .refl h).trans ?_
  rcases arm with ⟨s, _ | _ | _ | _⟩
  · exact .refl
  · exact StatusMoves.plain .refl (plain_beginTeardown s)
  · exact moves_onUpstreamLost hp s
  · exact StatusMoves.plain .refl (plain_beginTeardown s)

theorem moves_onConnectFailed (hp : p .reconnecting) (s : Session) :
    StatusMoves cx p s (s.onConnectFailed cx now) := by
  have hstarted : StatusMoves cx p s { s with
      reconnectingSince := some (s.reconnectingSince.getD now) } :=
    StatusMoves.fields .refl ⟨rfl, rfl⟩ rfl
  unfold onConnectFailed
  dsimp only
  split
  · have hgone : StatusMoves cx p s { s with
        reconnectingSince := some (s.reconnectingSince.getD now)
        closeCode := closeGoingAway } := StatusMoves.fields .refl ⟨rfl, rfl⟩ rfl
    exact hgone.plain (plain_beginTeardown _)
  · have hset := StatusMoves.set hstarted now hp
    exact StatusMoves.fields hset ⟨rfl, rfl⟩ rfl

theorem moves_onConnected (hp : p .connecting) (hp' : p .connected) (s : Session) :
    StatusMoves cx p s (s.onConnected cx env) := by
  have hreset : StatusMoves cx p s { s with
      backoff := s.backoff.reset
      reconnectingSince := none } := StatusMoves.fields .refl ⟨rfl, rfl⟩ rfl
  have hset := StatusMoves.set hreset env.now hp'
  unfold onConnected
  dsimp only
  generalize setUpstreamState cx env.now .connected _ = u at hset ⊢
  have hflushed : Plain u (({ u with
      forwarder := (u.forwarder.flushUpstream env.upstreamSink).2.1 } : Session).noteAll env.now
        ((u.forwarder.flushUpstream env.upstreamSink).2.2.sent.map .toCentral)) :=
    Plain.noteOther (.of_fields ⟨rfl, rfl⟩ rfl) (by simp [Entry.isFrame])
  have hsent := StatusMoves.plain hset hflushed
  split
  · exact StatusMoves.fields hsent (recordForwarded_states _ .chargerToCentral _) rfl
  · exact StatusMoves.enterConnecting hsent hp

theorem moves_onChargerWhileBackingOff (hp : p .connecting) (message : ChargerMessage)
    (s : Session) : StatusMoves cx p s (s.onChargerWhileBackingOff cx now message) := by
  cases message with
  | text text =>
    have hread : Plain s (s.note now (.readCharger text)) := .note (.refl s) rfl
    exact StatusMoves.enterConnecting (StatusMoves.plain .refl hread) hp
  | binary => exact StatusMoves.enterConnecting .refl hp
  | other => exact StatusMoves.enterConnecting .refl hp
  | _ => exact StatusMoves.plain .refl (plain_beginTeardown s)

/-- A session sets any state but Disconnected until its end, and that one there. -/
theorem moves_of_handle {input : Input} (h : s.handle cx env input = some t)
    (hmanager : ∀ manager, input ≠ .manager manager) :
    StatusMoves cx (· ≠ .disconnected) s t ∧ t.phase ≠ .ended ∨
      t = s.onClosed cx env.now := by
  have hhandled := handled_of_handle h
  by_cases hend : s.phase = .closing ∧ input = .closed
  · obtain ⟨hphase, rfl⟩ := hend
    cases hhandled
    exact .inr rfl
  refine .inl ⟨?_, ?_⟩
  · cases hhandled with
    | manager => exact absurd rfl (hmanager _)
    | connectFailed => exact moves_onConnectFailed (by decide) s
    | connected => exact moves_onConnected (by decide) (by decide) s
    | slept => exact StatusMoves.enterConnecting .refl (by decide)
    | cancelledAsleep => exact StatusMoves.plain .refl (plain_beginTeardown s)
    | chargerAsleep message => exact moves_onChargerWhileBackingOff (by decide) message s
    | charger message =>
      exact moves_finishArm (by decide) (.of_armWork (armWork_chargerArm message s))
    | central message =>
      exact moves_finishArm (by decide) (.of_armWork (armWork_centralArm message s))
    | command request =>
      exact moves_finishArm (by decide) (.of_armWork (armWork_commandArm request s))
    | commandTick => exact moves_finishArm (by decide) (.of_armWork (armWork_commandTickArm s))
    | housekeeping => exact StatusMoves.plain .refl (.of_armWork (armWork_housekeepingArm s))
    | cancelled => exact @moves_finishArm cx _ s _ (by decide) (s, some .shutdown) (.refl s)
    | tryRecv request => exact StatusMoves.plain .refl (plain_onTryRecv request s)
    | closed hphase => exact absurd ⟨hphase, rfl⟩ hend
  · intro hended
    rcases drained_of_handle h hmanager with ⟨-, ⟨hs, rfl⟩ | hs⟩ | ⟨ht, -⟩
    · cases hhandled
      cases hended
    · exact hend hs
    · simp [hended, Phase.isDrained] at ht

/-! ## The log of a step -/

/-- From `s` to `t` no event about commands is logged: a session reports those with its local
calls. -/
def Reports (cx : SessionContext) (s t : Session) : Prop :=
  ∃ es, t.log = s.log ++ es ∧ ∀ e ∈ es, e.2.isPlain = true ∨ ∃ upstream downstream,
    e.2 = .event (.stateChange cx.chargePointId upstream downstream)

theorem Reports.of_log (h : t.log = s.log) : Reports cx s t := ⟨[], by simp [h], by simp⟩

theorem Reports.trans (h : Reports cx s t) (h' : Reports cx t u) : Reports cx s u := by
  obtain ⟨es, hes, hreports⟩ := h
  obtain ⟨es', hes', hreports'⟩ := h'
  refine ⟨es ++ es', by rw [hes', hes, List.append_assoc], fun e he => ?_⟩
  exact (List.mem_append.mp he).elim (hreports e) (hreports' e)

theorem Plain.reports (h : Plain s t) : Reports cx s t := by
  obtain ⟨es, hes, hplain⟩ := h.log
  exact ⟨es, hes, fun e he => .inl (hplain e he)⟩

theorem reports_setUpstreamState (newState : ConnectionState) (s : Session) :
    Reports cx s (s.setUpstreamState cx now newState) := by
  unfold setUpstreamState
  split
  · exact .of_log rfl
  · refine ⟨[_], rfl, fun e he => ?_⟩
    obtain rfl := List.mem_singleton.mp he
    exact .inr ⟨_, _, rfl⟩

theorem StatusMoves.reports (h : StatusMoves cx p s t) : Reports cx s t := by
  induction h with
  | refl => exact .of_log rfl
  | tail _ hmove ih =>
    cases hmove with
    | plain hplain => exact ih.trans hplain.reports
    | set => exact ih.trans (reports_setUpstreamState _ _)

theorem reports_of_step {ev : Event} (h : step cx s ev = some t) : Reports cx s t := by
  obtain ⟨-, hhandle⟩ := step_eq_some.mp h
  have hclock : Reports cx s { s with clock := ev.env.now } := .of_log rfl
  by_cases hmanager : ∃ manager, ev.input = .manager manager
  · obtain ⟨manager, hinput⟩ := hmanager
    rw [hinput] at hhandle
    cases handled_of_handle hhandle
    exact .of_log rfl
  · rcases moves_of_handle hhandle fun manager heq => hmanager ⟨manager, heq⟩ with ⟨hmoves, -⟩ | rfl
    · exact hclock.trans hmoves.reports
    · exact hclock.trans (reports_setUpstreamState .disconnected _)

end

end Session

end OcppProxy

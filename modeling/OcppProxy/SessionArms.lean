import OcppProxy.SessionSteps

/-!
# What the arms of the forwarding loop leave alone

An arm moves frames, the proxy's own commands and the counters, and logs what it does. The phase,
what the reconnecting goes by and the connection states are as before.
-/

namespace OcppProxy

/-- Not a close frame, nor an event about connection states or commands. -/
def Entry.isArmWork : Entry → Bool
  | .close _ | .event (.stateChange ..) | .event (.commandResult ..) => false
  | _ => true

theorem Entry.isArmWork_of_isLocal {e : Entry} (h : e.isLocal = true) : e.isArmWork = true := by
  cases e <;> first | rfl | cases h

theorem Entry.isArmWork_of_isFrame {e : Entry} (h : e.isFrame = true) : e.isArmWork = true := by
  cases e <;> first | rfl | cases h

namespace Session

def bearings (s : Session) : Phase × Time × ExponentialBackoff × Option Time × Nat ×
    ConnectionState × ConnectionState :=
  (s.phase, s.clock, s.backoff, s.reconnectingSince, s.closeCode, s.manager.upstreamState,
    s.manager.downstreamState)

structure ArmWork (s t : Session) : Prop where
  bearings : t.bearings = s.bearings
  log : ∃ es, t.log = s.log ++ es ∧ ∀ e ∈ es, e.2.isArmWork = true

section
variable {cx : SessionContext} {env : Env} {now : Time} {s t u : Session}

theorem ArmWork.of_same (hbearings : t.bearings = s.bearings) (hlog : t.log = s.log) :
    ArmWork s t :=
  ⟨hbearings, [], by simp [hlog], by simp⟩

theorem ArmWork.refl (s : Session) : ArmWork s s := .of_same rfl rfl

theorem ArmWork.trans (h : ArmWork s t) (h' : ArmWork t u) : ArmWork s u where
  bearings := h'.bearings.trans h.bearings
  log := by
    obtain ⟨es, hes, hwork⟩ := h.log
    obtain ⟨es', hes', hwork'⟩ := h'.log
    refine ⟨es ++ es', by rw [hes', hes, List.append_assoc], fun e he => ?_⟩
    exact (List.mem_append.mp he).elim (hwork e) (hwork' e)

theorem ArmWork.same (h : ArmWork s t) (hbearings : u.bearings = t.bearings)
    (hlog : u.log = t.log) : ArmWork s u :=
  h.trans (.of_same hbearings hlog)

theorem ArmWork.noteAll {es : List Entry} (h : ArmWork s t)
    (hes : ∀ e ∈ es, e.isArmWork = true) : ArmWork s (t.noteAll now es) :=
  h.trans ⟨rfl, _, noteAll_log t now es, List.forall_mem_map.mpr hes⟩

theorem ArmWork.note {e : Entry} (h : ArmWork s t) (he : e.isArmWork = true) :
    ArmWork s (t.note now e) :=
  h.trans ⟨rfl, [(now, e)], rfl, by simpa using he⟩

/-- Entries of frames and of the proxy's commands. -/
theorem ArmWork.noteOther {es : List Entry} (h : ArmWork s t)
    (hes : ∀ e ∈ es, e.isLocal = true ∨ e.isFrame = true) : ArmWork s (t.noteAll now es) :=
  h.noteAll fun e he => (hes e he).elim Entry.isArmWork_of_isLocal Entry.isArmWork_of_isFrame

/-! ## Sending the proxy's own Calls -/

theorem armWork_sendLoop (fuel : Nat) (s : Session) :
    ArmWork s (sent (sendLoop cx env fuel s)) := by
  induction fuel generalizing s with
  | zero => exact .refl s
  | succ fuel ih =>
    unfold sendLoop
    split
    · exact .refl s
    · have hlocal (localCalls : LocalCallQueue) (e : Entry) (he : e.isLocal = true) :
          ArmWork s (({ s with localCalls } : Session).note env.now e) :=
        .note (.of_same rfl rfl) (Entry.isArmWork_of_isLocal he)
      dsimp only
      split
      · exact (hlocal _ _ rfl).trans (ih _)
      · split
        · exact hlocal _ _ rfl
        · exact hlocal _ _ rfl

theorem ArmWork.sendThen (h : ArmWork s t) : ArmWork s (t.sendThen cx env).1 := by
  have hsent : (t.sendThen cx env).1 = sent (t.sendLocalCalls cx env) := by
    unfold Session.sendThen
    cases t.sendLocalCalls cx env <;> rfl
  rw [hsent]
  unfold sendLocalCalls
  split
  · exact h
  · split
    · exact h
    · exact h.trans (armWork_sendLoop _ t)

theorem ArmWork.sendIf (h : ArmWork s t) (c : Bool) :
    ArmWork s (if c then t.sendThen cx env else (t, none)).1 := by
  split
  · exact h.sendThen
  · exact h

/-! ## The arms -/

theorem armWork_forwardCharger (text : String) (frame : OcppFrame) (s : Session) :
    ArmWork s (s.forwardCharger cx env text frame).1 := by
  unfold forwardCharger
  simp only [MessageForwarder.forwardUpstream]
  rcases s.forwarder.forwardMessage_cases env.now frame env.upstreamSink .chargerToCentral with
    ⟨-, hf⟩ | ⟨-, action, hf⟩ <;> rw [hf] <;> dsimp only
  · have hfailed : ArmWork s (({ s with forwarder := s.forwarder } : Session).noteAll env.now
        (env.upstreamSink.sent.map .toCentral ++ [].map .event)) :=
      ArmWork.noteOther (.of_same rfl rfl) (by simp [Entry.isFrame])
    split
    · exact ArmWork.noteOther (hfailed.same rfl rfl) (by simp [Entry.isFrame])
    · exact hfailed
  · have hsent : ArmWork s (({ s with
        forwarder := (s.forwarder.resolveAction env.now frame .chargerToCentral).2 } :
          Session).noteAll env.now ((env.upstreamSink.sent ++ [frame.raw]).map .toCentral ++
            [MqttEvent.messageForwarded s.forwarder.chargePointId frame .chargerToCentral
              action].map .event)) := by
      refine ArmWork.noteAll (.of_same rfl rfl) ?_
      simp [Env.upstreamSink, Entry.isArmWork]
    refine ArmWork.sendIf ?_ _
    exact hsent.same rfl rfl

theorem armWork_chargerText (text : String) (s : Session) :
    ArmWork s (s.chargerText cx env text).1 := by
  have hread : ArmWork s (s.note env.now (.readCharger text)) := .note (.refl s) rfl
  unfold chargerText
  dsimp only
  split
  · split
    · rename_i inFlight localCalls htake
      have hconsumed : ArmWork s (({ s.note env.now (.readCharger text) with localCalls } :
          Session).note env.now (.consumed text)) :=
        .note (hread.same rfl rfl) rfl
      unfold completeLocalCall
      exact ArmWork.sendThen (hconsumed.note rfl)
    · exact hread.trans (armWork_forwardCharger text _ _)
  · have hsent : ArmWork s ((s.note env.now (.readCharger text)).noteAll env.now
        ((MessageSink.sendRaw env.upstreamSink text).2.sent.map .toCentral)) :=
      hread.noteOther (by simp [Entry.isFrame])
    split <;> exact hsent

theorem armWork_chargerArm (message : ChargerMessage) (s : Session) :
    ArmWork s (s.chargerArm cx env message).1 := by
  cases message with
  | text text => exact armWork_chargerText text s
  | _ => exact .refl s

theorem armWork_centralText (text : String) (s : Session) :
    ArmWork s (s.centralText cx env text).1 := by
  have hread : ArmWork s (s.note env.now (.readCentral text)) := .note (.refl s) rfl
  unfold centralText
  simp only [MessageForwarder.forwardDownstream]
  split
  · rename_i frame hparse
    rcases (s.note env.now (.readCentral text)).forwarder.forwardMessage_cases env.now frame
      env.chargerSink .centralToCharger with ⟨-, hf⟩ | ⟨-, action, hf⟩ <;> rw [hf] <;> dsimp only
    · exact ArmWork.noteOther (hread.same rfl rfl) (by simp [Entry.isFrame])
    · have hsent : ArmWork s (({ s.note env.now (.readCentral text) with
          forwarder := ((s.note env.now (.readCentral text)).forwarder.resolveAction env.now frame
            .centralToCharger).2 } : Session).noteAll env.now
          ((env.chargerSink.sent ++ [frame.raw]).map .toCharger ++
            [MqttEvent.messageForwarded (s.note env.now (.readCentral text)).forwarder.chargePointId
              frame .centralToCharger action].map .event)) := by
        refine ArmWork.noteAll (hread.same rfl rfl) ?_
        simp [Env.chargerSink, Entry.isArmWork]
      exact hsent.same rfl rfl
  · have hsent : ArmWork s ((s.note env.now (.readCentral text)).noteAll env.now
        ((MessageSink.sendRaw env.chargerSink text).2.sent.map .toCharger)) :=
      hread.noteOther (by simp [Entry.isFrame])
    split <;> exact hsent

theorem armWork_centralArm (message : CentralMessage) (s : Session) :
    ArmWork s (s.centralArm cx env message).1 := by
  cases message with
  | text text => exact armWork_centralText text s
  | _ => exact .refl s

/-- What the loop logs of its own commands, and the send attempt after it. -/
theorem armWork_sendLogged {localCalls : LocalCallQueue} {es : List Entry}
    (hes : ∀ e ∈ es, e.isLocal = true) :
    ArmWork s ((({ s with localCalls } : Session).noteAll env.now es).sendThen cx env).1 := by
  have hlogged : ArmWork s (({ s with localCalls } : Session).noteAll env.now es) :=
    ArmWork.noteOther (.of_same rfl rfl) fun e he => .inl (hes e he)
  exact hlogged.sendThen

theorem armWork_commandArm (request : Option CommandRequest) (s : Session) :
    ArmWork s (s.commandArm cx env request).1 := by
  cases request with
  | none => exact .of_same rfl rfl
  | some request =>
    rw [commandArm_some]
    exact armWork_sendLogged (by simp [receiptEntries, Entry.isLocal])

theorem armWork_commandTickArm (s : Session) : ArmWork s (s.commandTickArm cx env).1 := by
  rw [commandTickArm_eq]
  refine armWork_sendLogged fun e he => ?_
  rcases List.mem_append.mp he with h | h
  · obtain ⟨r, -, rfl⟩ := List.mem_map.mp h
    rfl
  · obtain ⟨f, -, rfl⟩ := List.mem_map.mp h
    rfl

theorem armWork_housekeepingArm (s : Session) : ArmWork s (s.housekeepingArm env) := by
  obtain ⟨forwarder, h, -⟩ := s.housekeepingArm_eq env
  rw [h]
  refine ArmWork.noteOther (.of_same rfl rfl) ?_
  exact List.forall_mem_map.mpr fun _ _ => .inr rfl

/-- The drain of the local calls at the end of the loop. -/
theorem armWork_beginTeardown (s : Session) :
    ArmWork { s with phase := .draining } (s.beginTeardown cx now) := by
  rw [beginTeardown_eq]
  refine ArmWork.noteOther (.of_same ?_ rfl) fun e he => .inl (s.teardownEntries_local cx now e he)
  unfold Session.bearings
  dsimp only [countUndelivered]
  split <;> rfl

end

end Session

end OcppProxy

import OcppProxy.ResultAccount
import OcppProxy.SessionWalk

/-!
# What MQTT is told of the traffic

A session tells of a message right after relaying it, so it tells of none that it did not relay, and
of none twice. The reports of all sessions come into one channel, each session's in its order, and
the publisher takes some of them.
-/

namespace OcppProxy

def MqttEvent.told? : MqttEvent → Option (String × Direction × String)
  | messageForwarded id frame direction _ => some (id, direction, frame.raw)
  | _ => none

namespace Entry

def told? : Entry → Option (String × Direction × String)
  | event e => e.told?
  | _ => none

def relayed? : Entry → Option (Direction × String)
  | toCentral text => some (.chargerToCentral, text)
  | toCharger text => some (.centralToCharger, text)
  | _ => none

theorem bind_told? (e : Entry) (id : String) : (e.mqttEvent? id).bind MqttEvent.told? = e.told? := by
  cases e <;> rfl

end Entry

namespace Session

/-- From `s` to `t` what is told of was relayed, in this order. -/
structure Tells (s t : Session) : Prop where
  chargePointId : t.forwarder.chargePointId = s.forwarder.chargePointId
  log : ∃ es : List (Time × Entry), t.log = s.log ++ es ∧
    (es.filterMap fun e => e.2.told?).Sublist
      ((es.filterMap fun e => e.2.relayed?).map fun r => (s.forwarder.chargePointId, r))

section
variable {cx : SessionContext} {env : Env} {now : Time} {s t u : Session}

theorem Tells.trans (h : Tells s t) (h' : Tells t u) : Tells s u where
  chargePointId := h'.chargePointId.trans h.chargePointId
  log := by
    obtain ⟨es, hlog, htold⟩ := h.log
    obtain ⟨es', hlog', htold'⟩ := h'.log
    rw [h.chargePointId] at htold'
    refine ⟨es ++ es', by rw [hlog', hlog, List.append_assoc], ?_⟩
    rw [List.filterMap_append, List.filterMap_append, List.map_append]
    exact htold.append htold'

theorem Tells.of_same (hlog : t.log = s.log)
    (hid : t.forwarder.chargePointId = s.forwarder.chargePointId) : Tells s t :=
  ⟨hid, [], by simp [hlog], .slnil⟩

/-- Entries that tell of no message. -/
theorem tells_noteAll (s : Session) {es : List Entry} (hes : ∀ e ∈ es, e.told? = none) :
    Tells s (s.noteAll now es) := by
  have hnone : (es.map fun e => (now, e)).filterMap (fun e => e.2.told?) = [] :=
    List.filterMap_eq_nil_iff.mpr (List.forall_mem_map.mpr hes)
  refine ⟨rfl, _, noteAll_log s now es, ?_⟩
  rw [hnone]
  exact List.nil_sublist _

theorem tells_note (s : Session) {e : Entry} (he : e.told? = none) : Tells s (s.note now e) :=
  @tells_noteAll now s [e] (by simpa using he)

theorem permits_tells : Permits Tells where
  trans := Tells.trans
  fields hlog _ hid := .of_same hlog hid
  release _ := .of_same rfl rfl
  note s _ e he := tells_note s (by
    cases e with
    | event event => cases event <;> first | rfl | cases he
    | _ => rfl)

/-! ## The arms -/

theorem tells_sendLoop (fuel : Nat) (s : Session) : Tells s (sent (sendLoop cx env fuel s)) := by
  induction fuel generalizing s with
  | zero => exact permits_tells.refl s
  | succ fuel ih =>
    unfold sendLoop
    split
    · exact permits_tells.refl s
    · have hnoted (localCalls : LocalCallQueue) {e : Entry} (he : e.told? = none) :
          Tells s (({ s with localCalls } : Session).note env.now e) := by
        have hcalls : Tells s { s with localCalls } := .of_same rfl rfl
        exact hcalls.trans (tells_note _ he)
      dsimp only
      split
      · exact (hnoted _ rfl).trans (ih _)
      · split
        · exact hnoted _ rfl
        · exact hnoted _ rfl

theorem tells_sendThen (s : Session) : Tells s (s.sendThen cx env).1 := by
  rw [sendThen_fst]
  unfold sendLocalCalls
  split
  · exact permits_tells.refl s
  · split
    · exact permits_tells.refl s
    · exact tells_sendLoop _ s

theorem Tells.sendIf (h : Tells s t) (c : Bool) :
    Tells s (if c then t.sendThen cx env else (t, none)).1 := by
  split
  · exact h.trans (tells_sendThen t)
  · exact h

theorem resolveAction_chargePointId (f : MessageForwarder) (frame : OcppFrame)
    (direction : Direction) :
    (f.resolveAction now frame direction).2.chargePointId = f.chargePointId := by
  unfold MessageForwarder.resolveAction
  split <;> rfl

/-- A message is relayed and told of. -/
theorem tells_forwarded (s : Session) (frame : OcppFrame) (direction : Direction) (action : String)
    {relayed : Entry} (hrelayed : relayed.relayed? = some (direction, frame.raw))
    (htold : relayed.told? = none) : Tells s (({ s with
      forwarder := (s.forwarder.resolveAction now frame direction).2 } : Session).noteAll now
        ([relayed] ++ [.event (.messageForwarded s.forwarder.chargePointId frame direction
          action)])) := by
  have hreported : (Entry.event (.messageForwarded s.forwarder.chargePointId frame direction
      action)).told? = some (s.forwarder.chargePointId, direction, frame.raw) := rfl
  have hnot : (Entry.event (.messageForwarded s.forwarder.chargePointId frame direction
      action)).relayed? = none := rfl
  refine ⟨resolveAction_chargePointId _ frame direction, _, noteAll_log .., ?_⟩
  simp [hrelayed, htold, hreported, hnot]

theorem tells_forwardCharger (text : String) (frame : OcppFrame) (s : Session) :
    Tells s (s.forwardCharger cx env text frame).1 := by
  unfold forwardCharger
  simp only [MessageForwarder.forwardUpstream]
  rcases s.forwarder.forwardMessage_cases env.now frame env.upstreamSink .chargerToCentral with
    ⟨-, hf⟩ | ⟨-, action, hf⟩ <;> rw [hf] <;> dsimp only
  · have hfailed : Tells s (({ s with forwarder := s.forwarder } : Session).noteAll env.now
        (env.upstreamSink.sent.map .toCentral ++ [].map .event)) :=
      tells_noteAll s (by simp [Env.upstreamSink])
    split
    · rename_i frame' hparse
      have hbuffered : Tells s { (({ s with forwarder := s.forwarder } : Session).noteAll env.now
          (env.upstreamSink.sent.map .toCentral ++ [].map .event)) with
            forwarder := (s.forwarder.bufferUpstream frame').2 } :=
        hfailed.trans (.of_same rfl rfl)
      exact hbuffered.trans (tells_noteAll _ (List.forall_mem_map.mpr fun _ _ => rfl))
    · exact hfailed
  · have hsent := @tells_forwarded env.now s frame .chargerToCentral action (.toCentral frame.raw)
      rfl rfl
    refine Tells.sendIf ?_ _
    exact hsent.trans (.of_same rfl rfl)

theorem tells_chargerText (text : String) (s : Session) :
    Tells s (s.chargerText cx env text).1 := by
  have hread : Tells s (s.note env.now (.readCharger text)) := tells_note s rfl
  unfold chargerText
  dsimp only
  split
  · split
    · rename_i inFlight localCalls htake
      have hslot : Tells s { s.note env.now (.readCharger text) with localCalls } :=
        hread.trans (.of_same rfl rfl)
      have hconsumed := hslot.trans (@tells_note env.now _ (.consumed text) rfl)
      exact (hconsumed.trans (tells_note _ rfl)).trans (tells_sendThen _)
    · exact hread.trans (tells_forwardCharger text _ _)
  · have hsent := hread.trans (@tells_noteAll env.now _ ((MessageSink.sendRaw env.upstreamSink
      text).2.sent.map .toCentral) (List.forall_mem_map.mpr fun _ _ => rfl))
    split <;> exact hsent

theorem tells_centralText (text : String) (s : Session) :
    Tells s (s.centralText cx env text).1 := by
  have hread : Tells s (s.note env.now (.readCentral text)) := tells_note s rfl
  unfold centralText
  simp only [MessageForwarder.forwardDownstream]
  split
  · rename_i frame hparse
    rcases (s.note env.now (.readCentral text)).forwarder.forwardMessage_cases env.now frame
      env.chargerSink .centralToCharger with ⟨-, hf⟩ | ⟨-, action, hf⟩ <;> rw [hf] <;> dsimp only
    · exact hread.trans (tells_noteAll _ (by simp [Env.chargerSink]))
    · have hsent := hread.trans (@tells_forwarded env.now (s.note env.now (.readCentral text)) frame
        .centralToCharger action (.toCharger frame.raw) rfl rfl)
      exact hsent.trans (.of_same rfl rfl)
  · have hsent := hread.trans (@tells_noteAll env.now _ ((MessageSink.sendRaw env.chargerSink
      text).2.sent.map .toCharger) (List.forall_mem_map.mpr fun _ _ => rfl))
    split <;> exact hsent

theorem tells_commandArm (request : Option CommandRequest) (s : Session) :
    Tells s (s.commandArm cx env request).1 := by
  cases request with
  | none => exact .of_same rfl rfl
  | some request =>
    rw [commandArm_some]
    have hpushed : Tells s { s with localCalls := (s.localCalls.push request).2 } :=
      .of_same rfl rfl
    refine (hpushed.trans (tells_noteAll _ fun e he => ?_)).trans (tells_sendThen _)
    simp only [receiptEntries, List.mem_cons, List.mem_map] at he
    obtain rfl | ⟨r, -, rfl⟩ := he <;> rfl

theorem tells_commandTickArm (s : Session) : Tells s (s.commandTickArm cx env).1 := by
  rw [commandTickArm_eq]
  have hexpired : Tells s { s with localCalls := (s.localCalls.expire env.now).2.2 } :=
    .of_same rfl rfl
  refine (hexpired.trans (tells_noteAll _ fun e he => ?_)).trans (tells_sendThen _)
  simp only [expiryEntries, List.mem_append, List.mem_map] at he
  obtain ⟨r, -, rfl⟩ | ⟨f, -, rfl⟩ := he <;> rfl

theorem tells_of_step {ev : Event} (h : step cx s ev = some t) : Tells s t :=
  permits_tells.step (fun s text => tells_chargerText text s)
    (fun s text => tells_centralText text s) (fun s request => tells_commandArm request s)
    (fun s => tells_commandTickArm s) h

theorem tells_start (cx : SessionContext) (now : Time) (manager : ConnectionStateManager) :
    ∃ s : Session, s.log = [] ∧ s.forwarder.chargePointId = cx.chargePointId ∧
      Tells s (start cx now manager) :=
  ⟨_, rfl, rfl, permits_tells.enterConnecting _⟩

/-- What a session of the charge point `id` tells of is some of what it relayed. -/
structure Truthful (id : String) (s : Session) : Prop where
  chargePointId : s.forwarder.chargePointId = id
  told : (s.trace Entry.told?).Sublist ((s.trace Entry.relayed?).map fun r => (id, r))

theorem Truthful.tells {id : String} (h : s.Truthful id) (htells : Tells s t) : t.Truthful id where
  chargePointId := htells.chargePointId.trans h.chargePointId
  told := by
    obtain ⟨es, hlog, hnew⟩ := htells.log
    rw [h.chargePointId] at hnew
    rw [trace_append _ hlog, trace_append _ hlog, List.map_append]
    exact h.told.append hnew

theorem truthful_start (cx : SessionContext) (now : Time) (manager : ConnectionStateManager) :
    (start cx now manager).Truthful cx.chargePointId := by
  obtain ⟨s, hlog, hid, htells⟩ := tells_start cx now manager
  refine Truthful.tells ⟨hid, ?_⟩ htells
  simp [trace, hlog]

theorem told_start (cx : SessionContext) (now : Time) (manager : ConnectionStateManager) :
    (start cx now manager).trace Entry.told? = [] := by
  have htold := (truthful_start cx now manager).told
  rw [start_trace cx now manager Entry.relayed? fun _ => rfl] at htold
  exact List.sublist_nil.mp htold

/-- The reports among what a session hands over are those it logs. -/
theorem told_handedSince (id : String) (n : Nat) (s : Session) :
    (s.handedSince id n).filterMap MqttEvent.told? =
      (s.log.drop n).filterMap fun e => e.2.told? := by
  rw [handedSince, List.filterMap_filterMap]
  exact List.filterMap_congr fun e _ => e.2.bind_told? id

end

end Session

namespace DownstreamState

def told (d : DownstreamState) (n : Nat) : List (String × Direction × String) :=
  (d.sessionOf n).elim [] fun s => s.2.trace Entry.told?

/-- What the sessions told MQTT, and in which order. -/
structure Told (d : DownstreamState) : Prop where
  routed : d.Routed
  sessions : ∀ n id s, d.sessionOf n = some (id, s) → s.Truthful id
  accounts : Accounts (d.mqttTx.filterMap MqttEvent.told?) d.told

section
variable {cx : ProxyContext} {d d' : DownstreamState} {ev : ProxyEvent}
  {sent : List (String × CommandRequest)}

theorem told_update {n : Nat} {id : String} {t : Session}
    (hsessions : d'.sessionOf = Function.update d.sessionOf n (some (id, t))) :
    d'.told = Function.update d.told n (t.trace Entry.told?) := by
  funext k
  unfold told
  rw [hsessions]
  by_cases hk : k = n
  · subst hk
    simp
  · simp [hk]

/-- A session tells of more. -/
theorem Told.update (h : d.Told) (hrouted : d'.Routed) {n : Nat} {id : String} {t : Session}
    {more : List (String × Direction × String)}
    (hsessions : d'.sessionOf = Function.update d.sessionOf n (some (id, t))) (ht : t.Truthful id)
    (htold : t.trace Entry.told? = d.told n ++ more)
    (hhanded : d'.mqttTx.filterMap MqttEvent.told? = d.mqttTx.filterMap MqttEvent.told? ++ more) :
    d'.Told where
  routed := hrouted
  sessions := by
    intro m id' s hs
    rw [hsessions] at hs
    by_cases hm : m = n
    · subst hm
      rw [Function.update_self] at hs
      cases hs
      exact ht
    · rw [Function.update_of_ne hm] at hs
      exact h.sessions m id' s hs
  accounts := by
    refine (h.accounts.append (.const more n)).congr hhanded.symm fun k => ?_
    rw [told_update hsessions]
    by_cases hk : k = n
    · subst hk
      simp [htold]
    · simp [hk, Ne.symm hk]

/-- What is not a session's own step tells of no message. -/
theorem told_of_step (h : step cx d ev = some d') (hsessions : d'.sessionOf = d.sessionOf) :
    d'.mqttTx.filterMap MqttEvent.told? = d.mqttTx.filterMap MqttEvent.told? := by
  cases ev with
  | upgrade chargePointId protocolHeader =>
    cases h
    unfold wsUpgradeHandler
    split <;> rfl
  | abandon n =>
    obtain ⟨task, -, h⟩ := Option.bind_eq_some_iff.mp h
    split at h
    · cases h
      rfl
    · cases h
  | advance n now =>
    obtain ⟨task, htask, h⟩ := Option.bind_eq_some_iff.mp h
    have hstatus (upstream downstream : ConnectionState) :
        (d.mqttTx ++ [MqttEvent.stateChange task.chargePointId upstream downstream]).filterMap
          MqttEvent.told? = d.mqttTx.filterMap MqttEvent.told? := by
      rw [List.filterMap_append]
      exact List.append_nil _
    unfold advance at h
    split at h
    · cases h
      rfl
    · cases h
      exact congrArg _ (mqttTx_registerConnection n)
    · cases h
      rfl
    · cases h
      rfl
    · cases h
      exact hstatus _ _
    · cases h
      have hnone : ((Session.start (cx.session task.chargePointId) now d.stateManager).handedSince
          task.chargePointId 0).filterMap MqttEvent.told? = [] := by
        rw [Session.told_handedSince]
        exact Session.told_start (cx.session task.chargePointId) now d.stateManager
      show (d.mqttTx ++ Session.handedSince _ 0 _).filterMap _ = _
      rw [List.filterMap_append, hnone, List.append_nil]
    · split at h
      · cases h
        rfl
      · cases h
    · cases h
      rfl
    · cases h
      exact congrArg _ (@deregisterConnection_sessions d _ _).2
    · cases h
      rfl
    · cases h
      rfl
    · cases h
      exact hstatus _ _
    · cases h
  | session n e =>
    obtain ⟨task, htask, h⟩ := Option.bind_eq_some_iff.mp h
    obtain ⟨s, hs, h⟩ := Option.bind_eq_some_iff.mp h
    unfold sessionStep at h
    split at h
    · obtain ⟨t, -, rfl⟩ := Option.map_eq_some_iff.mp h
      -- the session is as before, so it logged nothing
      have hsame : some (task.chargePointId, t) = some (task.chargePointId, s) := by
        have hput := sessionOf_putSession (d := { d with
          inboxes := Function.update d.inboxes n ((d.inboxes n).take e.requests.length) })
          (s := t) htask s.log.length
        have hn := congrFun (hput.symm.trans hsessions) n
        rw [Function.update_self] at hn
        rw [hn, sessionOf, htask, Option.bind_some, hs, Option.map_some]
      obtain ⟨-, rfl⟩ := Prod.mk.inj (Option.some.inj hsame)
      show (d.mqttTx ++ Session.handedSince _ t.log.length t).filterMap _ = _
      rw [List.filterMap_append, Session.told_handedSince, List.drop_length, List.filterMap_nil,
        List.append_nil]
    · cases h
  | dispatch chargePointId request =>
    simp only [step] at h
    split at h <;> (cases h; rfl)
  | shutdown =>
    cases h
    rfl

theorem Told.move (h : d.Told) (hmove : DownstreamMove cx d d' sent) : d'.Told := by
  have hrouted := h.routed.move hmove
  cases hmove with
  | @task ev _ hstep =>
    cases sessionMove_of_step h.routed.fresh h.routed.accounted hstep with
    | idle hsessions =>
      refine ⟨hrouted, by rw [hsessions]; exact h.sessions, ?_⟩
      refine h.accounts.congr (told_of_step hstep hsessions).symm fun n => ?_
      rw [told, told, hsessions]
    | @started n id now manager hnone hsessions hhanded =>
      have htold := Session.told_start (cx.session id) now manager
      have hstart := Session.truthful_start (cx.session id) now manager
      refine @Told.update d d' h hrouted n id _ [] hsessions hstart ?_ ?_
      · rw [htold, told, hnone]
        rfl
      · rw [hhanded, List.filterMap_append, Session.told_handedSince]
        exact congrArg _ htold
    | @stepped n id s t manager e _ hsession hstep' hsessions hhanded =>
      have htells := Session.tells_of_step hstep'
      have htruthful : Session.Truthful id { s with manager } :=
        ⟨(h.sessions n id s hsession).chargePointId, (h.sessions n id s hsession).told⟩
      obtain ⟨es, hlog, -⟩ := htells.log
      have hdrop : t.log.drop s.log.length = es := by rw [hlog, List.drop_left]
      refine h.update hrouted hsessions (htruthful.tells htells)
        (?_ : _ = _ ++ es.filterMap fun e => e.2.told?) ?_
      · rw [Session.trace_append _ hlog, told, hsession]
        rfl
      · rw [hhanded, List.filterMap_append, Session.told_handedSince, hdrop]
  | shutdown hd => subst hd; exact ⟨hrouted, h.sessions, h.accounts⟩
  | manager _ hd => subst hd; exact ⟨hrouted, h.sessions, h.accounts⟩
  | dispatched _ _ hd => subst hd; exact ⟨hrouted, h.sessions, h.accounts⟩

end

end DownstreamState

namespace Process

section
variable {cx : ProxyContext} {x : Process} {config : ProxyConfig} {file : SnapshotMap}
  {events : List ProcessEvent}

theorem told_of_run (hrun : (step cx).run (start config file) events = some x) :
    x.downstream.Told := by
  refine (step cx).invariant (P := fun x => x.downstream.Told) ?_ hrun
    ⟨DownstreamState.routed_new {}, ?_, ?_⟩
  · intro x ev y hstep htold
    obtain ⟨sent, hmove, -⟩ := downstreamMove_of_moved (moved_of_step hstep).2
    exact htold.move hmove
  · simp [start, DownstreamState.new, DownstreamState.sessionOf]
  · exact .nil

/-- In every run what MQTT is told of the traffic happened. The messages that the publisher took
are some of those that the sessions told of, in the order of the telling; each of these was told of by
one session; and what a session told of are texts that it relayed, in the direction it says and in the
order of the relaying, each at most once. -/
theorem reports_of_run (hrun : (step cx).run (start config file) events = some x) :
    (x.taken.filterMap MqttEvent.told?).Sublist (x.downstream.mqttTx.filterMap MqttEvent.told?) ∧
      Accounts (x.downstream.mqttTx.filterMap MqttEvent.told?) x.downstream.told ∧
      ∀ n id s, x.downstream.sessionOf n = some (id, s) →
        (x.downstream.told n).Sublist ((s.trace Entry.relayed?).map fun r => (id, r)) := by
  have htold := told_of_run hrun
  have htaken := ((channelled_of_run hrun).events.sublist true).trans (List.take_sublist ..)
  refine ⟨?_, htold.accounts, fun n id s hs => ?_⟩
  · refine List.Sublist.filterMap _ (.trans ?_ htaken)
    rw [if_pos rfl, List.append_assoc]
    exact List.sublist_append_left ..
  · have hsession := (htold.sessions n id s hs).told
    rwa [DownstreamState.told, hs]

end

def reportEvents : List ProcessEvent :=
  relayEvents ++ List.replicate 4 .offer ++ List.replicate 4 (.receive 1)

theorem reportEvents_told :
    ((step commandedContext).run (start relayConfig ∅) reportEvents).map (fun x =>
      decide (x.taken.filterMap MqttEvent.told? =
        [("CP01", .chargerToCentral, Session.acceptance.1)])) = some true := by
  decide +kernel

theorem reports_of_run_relayed : ∃ x,
    (step commandedContext).run (start relayConfig ∅) reportEvents = some x ∧
      x.taken.filterMap MqttEvent.told? = [("CP01", .chargerToCentral, Session.acceptance.1)] ∧
      (x.taken.filterMap MqttEvent.told?).Sublist (x.downstream.mqttTx.filterMap MqttEvent.told?) ∧
      Accounts (x.downstream.mqttTx.filterMap MqttEvent.told?) x.downstream.told := by
  obtain ⟨x, hrun, hx⟩ := Option.map_eq_some_iff.mp reportEvents_told
  obtain ⟨htaken, haccounts, -⟩ := reports_of_run hrun
  exact ⟨x, hrun, of_decide_eq_true hx, htaken, haccounts⟩

end Process

end OcppProxy

import OcppProxy.HandOver

/-!
# Commands inside the publisher

A step of the publisher hands at most one request to the router, and for each request that does not
reach a session it folds a result at once. What it logs besides its buffer says so exactly.
-/

namespace OcppProxy

namespace MqttPublisher

def commandLog (p : MqttPublisher) : List PublisherEntry := p.log.filter (!·.isHandOver)

/-- Neither the connection nor what others share changes, and `entries` is what is logged besides
the buffer. -/
structure Keeps (entries : List PublisherEntry) (p q : MqttPublisher) : Prop where
  stage : q.stage = p.stage
  state : q.state = p.state
  stateManager : q.stateManager = p.stateManager
  commandRouter : q.commandRouter = p.commandRouter
  charging : q.charging = p.charging
  inboxes : q.inboxes = p.inboxes
  commandLog : q.commandLog = p.commandLog ++ entries

section
variable {crates : Crates} {now : Time} {p q r : MqttPublisher} {es es' : List PublisherEntry}
  {id : String}

theorem commandLog_append (h : q.log = p.log ++ es) :
    q.commandLog = p.commandLog ++ es.filter (!·.isHandOver) := by
  rw [commandLog, h, List.filter_append]
  rfl

theorem Keeps.trans (h : Keeps es p q) (h' : Keeps es' q r) : Keeps (es ++ es') p r where
  stage := h'.stage.trans h.stage
  state := h'.state.trans h.state
  stateManager := h'.stateManager.trans h.stateManager
  commandRouter := h'.commandRouter.trans h.commandRouter
  charging := h'.charging.trans h.charging
  inboxes := h'.inboxes.trans h.inboxes
  commandLog := by rw [h'.commandLog, h.commandLog, List.append_assoc]

theorem Keeps.refl (p : MqttPublisher) : Keeps [] p p :=
  ⟨rfl, rfl, rfl, rfl, rfl, rfl, (List.append_nil _).symm⟩

theorem Idle.commandLog (h : Idle p q) : q.commandLog = p.commandLog := by
  obtain ⟨es, hlog, hes⟩ := h.log
  rw [commandLog_append hlog, List.filter_eq_nil_iff.mpr fun e he => by simp [hes e he],
    List.append_nil]

theorem Idle.keeps (h : Idle p q) (hstage : q.stage = p.stage) (hstate : q.state = p.state)
    (hmanager : q.stateManager = p.stateManager) : Keeps [] p q :=
  ⟨hstage, hstate, hmanager, h.commandRouter, h.charging, h.inboxes,
    by rw [h.commandLog, List.append_nil]⟩

theorem keeps_drainIfConnected (p : MqttPublisher) : Keeps [] p p.drainIfConnected := by
  refine (idle_drainIfConnected p).keeps (drainIfConnected_stage p) ?_ ?_ <;>
    (unfold drainIfConnected; split <;> rfl)

theorem keeps_enqueue (message : MqttMessage) (p : MqttPublisher) :
    Keeps [] p (p.enqueue message) := by
  refine (idle_enqueue message p).keeps (enqueue_fields message p).1 (enqueue_fields message p).2 ?_
  unfold enqueue drainIfConnected
  split <;> rfl

theorem keeps_storeSnapshot (folded : Bool × ChargePointState) (p : MqttPublisher) :
    Keeps [] p (p.storeSnapshot crates id folded) := by
  unfold storeSnapshot
  dsimp only
  split
  · have hsaved : Keeps [] p { p with
        chargePointState := p.chargePointState.insert id folded.2
        snapshotStore := p.snapshotStore.save (p.chargePointState.insert id folded.2) } :=
      ⟨rfl, rfl, rfl, rfl, rfl, rfl, (List.append_nil _).symm⟩
    exact hsaved.trans (keeps_enqueue _ _)
  · exact ⟨rfl, rfl, rfl, rfl, rfl, rfl, (List.append_nil _).symm⟩

theorem keeps_note {e : PublisherEntry} (p : MqttPublisher) (he : e.isHandOver = false) :
    Keeps [e] p (p.note [e]) :=
  ⟨rfl, rfl, rfl, rfl, rfl, rfl, by simp [commandLog, note, he]⟩

theorem keeps_publishCommandResult (result : CommandResult) (p : MqttPublisher) :
    Keeps [.folded id result] p (p.publishCommandResult crates now id result) :=
  ((keeps_enqueue _ p).trans (keeps_note _ rfl)).trans (keeps_storeSnapshot _ _)

theorem keeps_trySubscribe (p : MqttPublisher) : Keeps [] p p.trySubscribe := by
  refine (idle_trySubscribe p).keeps (trySubscribe_fields p).1 (trySubscribe_fields p).2 ?_
  unfold trySubscribe
  split
  · rfl
  · split <;> rfl

/-- What a ConnAck does once the state is set. -/
theorem keeps_onConnack (p : MqttPublisher) :
    Keeps [] (p.setState .connected) (p.onConnack crates) := by
  have hreset : Keeps [] (p.setState .connected) p.connected :=
    ⟨rfl, rfl, rfl, rfl, rfl, rfl, (List.append_nil _).symm⟩
  have honline : Keeps [] p.connected p.connected.publishOnline := by
    refine (idle_publishOnline _).keeps (publishOnline_fields _).1 (publishOnline_fields _).2 ?_
    unfold publishOnline
    split <;> rfl
  have hflush (p : MqttPublisher) : Keeps [] p p.flushBuffer := by
    refine (idle_flushBuffer p).keeps ?_ ?_ ?_ <;> (unfold flushBuffer; split <;> rfl)
  have hsnapshots (p : MqttPublisher) : Keeps [] p (p.republishSnapshots crates) := by
    have hfold (es : List (Sigma fun _ : String => ChargePointState)) (p : MqttPublisher) :
        Keeps [] p (es.foldl (fun p e => p.publishChargePointState crates e.1 e.2) p) := by
      induction es generalizing p with
      | nil => exact .refl p
      | cons e es ih => exact (keeps_enqueue _ p).trans (ih _)
    exact hfold _ p
  have hpending (p : MqttPublisher) (subscribePending : Bool) :
      Keeps [] p { p with subscribePending } :=
    ⟨rfl, rfl, rfl, rfl, rfl, rfl, (List.append_nil _).symm⟩
  exact ((((hreset.trans honline).trans (hflush _)).trans (hsnapshots _)).trans
    (hpending _ _)).trans (keeps_trySubscribe _)

/-! ## Requests -/

/-- Why a request goes to a charge point: it was published on one of its command topics, or both of
its links came up while its snapshot shows an accepted limit. -/
inductive Cause (crates : Crates) (now : Time) (p : MqttPublisher) :
    PublisherInput → String → CommandRequest → Prop where
  | published {taken : Nat} {topic : String} {payload : ByteArray} {id : String}
    {kind : CommandTopic} {request : CommandRequest}
    (htopic : parseCommandTopic topic = some (id, kind))
    (hpayload : parseCommandPayload crates now kind payload = .ok request) :
    Cause crates now p (.poll taken (.publish topic payload)) id request
  | linkUp {id : String} {limitA : F64} (hup : p.wasUp id = false)
    (hlimit : p.limitToReapply id = some limitA) :
    Cause crates now p (.event (some (.stateChange id .connected .connected))) id
      (reapplyRequest now limitA)

/-- What an input makes of a command: nothing, a result that it brings or that answers it at once,
or a request handed to the router. -/
inductive Routes (crates : Crates) (now : Time) (p q : MqttPublisher) (input : PublisherInput) :
    Prop where
  | idle (hinboxes : q.inboxes = p.inboxes) (hlog : q.commandLog = p.commandLog)
  | reported {id : String} {result : CommandResult}
    (hinput : input = .event (some (.commandResult id result)))
    (hinboxes : q.inboxes = p.inboxes) (hlog : q.commandLog = p.commandLog ++ [.folded id result])
  /-- The payload of a command topic is not a command. -/
  | unreadable {taken : Nat} {topic : String} {payload : ByteArray} {id : String}
    {kind : CommandTopic} {reason : String} (hinput : input = .poll taken (.publish topic payload))
    (htopic : parseCommandTopic topic = some (id, kind))
    (hpayload : parseCommandPayload crates now kind payload = .error reason)
    (hinboxes : q.inboxes = p.inboxes)
    (hlog : q.commandLog = p.commandLog ++ [.folded id (.invalidPayload crates now reason)])
  | disabled {id : String} {request : CommandRequest} (hcause : Cause crates now p input id request)
    (hrouter : p.commandRouter = none) (hinboxes : q.inboxes = p.inboxes)
    (hlog : q.commandLog = p.commandLog ++ [.folded id (.forRequest crates now request .rejected
      (some "charger commands are disabled on this proxy"))])
  | accepted {id : String} {request : CommandRequest} {router : CommandRouter}
    (hcause : Cause crates now p input id request) (hrouter : p.commandRouter = some router)
    (hok : router.dispatch p.inboxes id request = .ok q.inboxes)
    (hlog : q.commandLog = p.commandLog ++ [.dispatched id request (.ok ())])
  | refused {id : String} {request : CommandRequest} {router : CommandRouter} {e : DispatchError}
    (hcause : Cause crates now p input id request) (hrouter : p.commandRouter = some router)
    (herror : router.dispatch p.inboxes id request = .error e) (hinboxes : q.inboxes = p.inboxes)
    (hlog : q.commandLog = p.commandLog ++ [.dispatched id request (.error e),
      .folded id (.forRequest crates now request (refusalOf e).1 (some (refusalOf e).2))])

/-- What else a step does to the connection: it keeps the state, or sets it here and in the shared
manager alike. -/
structure SameConnection (p q : MqttPublisher) : Prop where
  commandRouter : q.commandRouter = p.commandRouter
  charging : q.charging = p.charging
  mirrored : q.state = p.state ∧ q.stateManager = p.stateManager ∨
    q.stateManager = p.stateManager.map (·.transition .mqtt q.state)

variable {input : PublisherInput} {request : CommandRequest}

theorem Keeps.idle (h : Keeps [] p q) : Routes crates now p q input :=
  .idle h.inboxes (by rw [h.commandLog, List.append_nil])

theorem Keeps.sameConnection (h : Keeps es p q) : SameConnection p q :=
  ⟨h.commandRouter, h.charging, .inl ⟨h.state, h.stateManager⟩⟩

/-- What follows a handler's work does not matter. -/
theorem Routes.then (h : Routes crates now p q input) (hafter : Keeps [] q r) :
    Routes crates now p r input := by
  have hlog : r.commandLog = q.commandLog := by rw [hafter.commandLog, List.append_nil]
  cases h with
  | idle hinboxes hq => exact .idle (hafter.inboxes.trans hinboxes) (hlog.trans hq)
  | reported hinput hinboxes hq =>
    exact .reported hinput (hafter.inboxes.trans hinboxes) (hlog.trans hq)
  | unreadable hinput htopic hpayload hinboxes hq =>
    exact .unreadable hinput htopic hpayload (hafter.inboxes.trans hinboxes) (hlog.trans hq)
  | disabled hcause hrouter hinboxes hq =>
    exact .disabled hcause hrouter (hafter.inboxes.trans hinboxes) (hlog.trans hq)
  | accepted hcause hrouter hok hq =>
    exact .accepted hcause hrouter (hafter.inboxes ▸ hok) (hlog.trans hq)
  | refused hcause hrouter herror hinboxes hq =>
    exact .refused hcause hrouter herror (hafter.inboxes.trans hinboxes) (hlog.trans hq)

/-- The request of a command that `p` has a cause for, once `p` has become `q`. -/
theorem routes_dispatchCommand (hbefore : Keeps [] p q)
    (hcause : Cause crates now p input id request) :
    Routes crates now p (q.dispatchCommand crates now id request) input ∧
      SameConnection p (q.dispatchCommand crates now id request) := by
  have hlog : p.commandLog = q.commandLog := by rw [hbefore.commandLog, List.append_nil]
  have hsame {es : List PublisherEntry} {r : MqttPublisher} (h : Keeps es q r) : SameConnection p r :=
    (hbefore.trans h).sameConnection
  unfold dispatchCommand
  split
  · rename_i hrouter
    have hkept := @keeps_publishCommandResult crates now id (.forRequest crates now request
      .rejected (some "charger commands are disabled on this proxy")) q
    exact ⟨.disabled hcause (hbefore.commandRouter ▸ hrouter)
      (hkept.inboxes.trans hbefore.inboxes) (by rw [hlog, hkept.commandLog]), hsame hkept⟩
  · rename_i router hrouter
    split
    · rename_i inboxes hok
      have hnoted : Keeps [.dispatched id request (.ok ())] { q with inboxes }
          (({ q with inboxes } : MqttPublisher).note [.dispatched id request (.ok ())]) :=
        keeps_note _ rfl
      refine ⟨.accepted hcause (hbefore.commandRouter ▸ hrouter) ?_ ?_,
        hnoted.commandRouter.trans hbefore.commandRouter, hnoted.charging.trans hbefore.charging,
        .inl ⟨hnoted.state.trans hbefore.state, hnoted.stateManager.trans hbefore.stateManager⟩⟩
      · rw [hnoted.inboxes, ← hbefore.inboxes]
        exact hok
      · rw [hlog]
        exact hnoted.commandLog
    · rename_i e herror
      have hnoted : Keeps [.dispatched id request (.error e)] q
          (q.note [.dispatched id request (.error e)]) := keeps_note q rfl
      have hkept := hnoted.trans (@keeps_publishCommandResult crates now id (.forRequest crates now
        request (refusalOf e).1 (some (refusalOf e).2)) _)
      exact ⟨.refused hcause (hbefore.commandRouter ▸ hrouter) (hbefore.inboxes ▸ herror)
        (hkept.inboxes.trans hbefore.inboxes) (by rw [hlog]; exact hkept.commandLog), hsame hkept⟩

theorem routes_handleIncomingPublish (taken : Nat) (topic : String) (payload : ByteArray)
    (hbefore : Keeps [] p q) :
    Routes crates now p (q.handleIncomingPublish crates now topic payload)
        (.poll taken (.publish topic payload)) ∧
      SameConnection p (q.handleIncomingPublish crates now topic payload) := by
  have hlog : p.commandLog = q.commandLog := by rw [hbefore.commandLog, List.append_nil]
  unfold handleIncomingPublish
  split
  · exact ⟨.idle hbefore.inboxes hlog.symm, hbefore.sameConnection⟩
  · rename_i id kind htopic
    split
    · rename_i reason hpayload
      have hkept := @keeps_publishCommandResult crates now id (.invalidPayload crates now reason) q
      exact ⟨.unreadable rfl htopic hpayload (hkept.inboxes.trans hbefore.inboxes)
        (by rw [hlog, hkept.commandLog]), (hbefore.trans hkept).sameConnection⟩
    · exact routes_dispatchCommand hbefore (.published htopic ‹_›)

theorem SameConnection.trans (h : SameConnection p q) (h' : SameConnection q r) :
    SameConnection p r := by
  refine ⟨h'.commandRouter.trans h.commandRouter, h'.charging.trans h.charging, ?_⟩
  rcases h'.mirrored with ⟨hstate', hmanager'⟩ | hset'
  · rw [hstate', hmanager']
    exact h.mirrored
  · rcases h.mirrored with ⟨-, hmanager⟩ | hset
    · exact .inr (by rw [hset', hmanager])
    · refine .inr ?_
      rw [hset', hset, Option.map_map]
      cases p.stateManager <;> rfl

theorem sameConnection_onConnack (p : MqttPublisher) : SameConnection p (p.onConnack crates) := by
  have hset : SameConnection p (p.setState .connected) := ⟨rfl, rfl, .inr rfl⟩
  exact hset.trans (keeps_onConnack p).sameConnection

/-- The last state change of a charge point is looked up before this one is put in its place. -/
theorem routes_stateChange (id : String) (upstream downstream : ConnectionState)
    (p : MqttPublisher) :
    Routes crates now p (p.handleEvent crates now (.stateChange id upstream downstream))
        (.event (some (.stateChange id upstream downstream))) ∧
      SameConnection p (p.handleEvent crates now (.stateChange id upstream downstream)) := by
  obtain ⟨u, hu⟩ : ∃ u, u = p.enqueue
      { topic := statusTopic id, payload := crates.toText (statusPayload upstream downstream)
        qos := .atLeastOnce, retain := true } := ⟨_, rfl⟩
  have hidle : Idle p u := hu ▸ idle_enqueue _ p
  have hbefore : Keeps [] p { u with linkState := u.linkState.insert id (upstream, downstream) } :=
    (hu ▸ keeps_enqueue _ p : Keeps [] p u).trans
      ⟨rfl, rfl, rfl, rfl, rfl, rfl, (List.append_nil _).symm⟩
  unfold handleEvent
  dsimp only
  rw [← hu]
  split
  · rename_i hup
    obtain ⟨rfl, rfl, hwas⟩ := hup
    unfold maybeReapplyLimit
    split
    · exact ⟨hbefore.idle, hbefore.sameConnection⟩
    · rename_i limitA hlimit
      refine routes_dispatchCommand hbefore (.linkUp ?_ ?_)
      · have hlink : u.wasUp id = p.wasUp id := by
          unfold wasUp
          rw [hidle.linkState]
        simpa [hlink] using hwas
      · rw [← hlimit]
        unfold limitToReapply
        simp only [hidle.charging, hidle.chargePointState]
  · exact ⟨hbefore.idle, hbefore.sameConnection⟩

theorem routes_handleEvent (event : MqttEvent) (p : MqttPublisher) :
    Routes crates now p (p.handleEvent crates now event) (.event (some event)) ∧
      SameConnection p (p.handleEvent crates now event) := by
  cases event with
  | messageForwarded id frame direction action =>
    have hkept : Keeps [] p (p.handleEvent crates now
        (.messageForwarded id frame direction action)) :=
      (keeps_enqueue _ p).trans (keeps_storeSnapshot _ _)
    exact ⟨hkept.idle, hkept.sameConnection⟩
  | stateChange id upstream downstream => exact routes_stateChange id upstream downstream p
  | commandResult id result =>
    have hkept := @keeps_publishCommandResult crates now id result p
    exact ⟨.reported rfl hkept.inboxes hkept.commandLog, hkept.sameConnection⟩

theorem routes_onPolled (taken : Nat) (event : Polled) (p : MqttPublisher) :
    Routes crates now p ((p.afterPoll (p.takenOff taken event)).onPolled crates now event)
        (.poll taken event) ∧
      SameConnection p ((p.afterPoll (p.takenOff taken event)).onPolled crates now event) := by
  have hpolled : Keeps [] p (p.afterPoll (p.takenOff taken event)) :=
    ⟨rfl, rfl, rfl, rfl, rfl, rfl, (List.append_nil _).symm⟩
  cases event with
  | connAck =>
    have hkept := @keeps_onConnack crates (p.afterPoll taken)
    exact ⟨.idle hkept.inboxes (hkept.commandLog.trans (List.append_nil _)),
      hpolled.sameConnection.trans (sameConnection_onConnack _)⟩
  | publish topic payload =>
    obtain ⟨hroutes, hsame⟩ := @routes_handleIncomingPublish crates now p _ taken topic payload
      hpolled
    have hdrained := keeps_drainIfConnected
      ((p.afterPoll taken).handleIncomingPublish crates now topic payload)
    exact ⟨hroutes.then hdrained, hsame.trans hdrained.sameConnection⟩
  | other =>
    unfold onPolled
    dsimp only
    split
    · have hsubscribe := keeps_trySubscribe (p.afterPoll taken)
      have hdrain (u : MqttPublisher) : Keeps [] u u.drainBuffer :=
        (idle_drainBuffer u).keeps rfl rfl rfl
      have hkept := (hpolled.trans hsubscribe).trans (hdrain _)
      exact ⟨hkept.idle, hkept.sameConnection⟩
    · exact ⟨hpolled.idle, hpolled.sameConnection⟩
  | error =>
    unfold onPolled onPollError
    dsimp only
    split
    · exact ⟨.idle rfl rfl, rfl, rfl, .inr rfl⟩
    · exact ⟨.idle rfl rfl, rfl, rfl, .inl ⟨rfl, rfl⟩⟩

/-- What a step that no other task takes makes of a command. -/
theorem routes_of_stepped (h : Stepped crates now p input q)
    (hworld : ∀ router inboxes manager, input ≠ .world router inboxes manager) :
    Routes crates now p q input ∧ SameConnection p q := by
  cases h with
  | world => exact absurd rfl (hworld _ _ _)
  | enqueue message => exact ⟨(keeps_enqueue message p).idle, (keeps_enqueue message p).sameConnection⟩
  | startup => exact ⟨.idle rfl rfl, rfl, rfl, .inr rfl⟩
  | startupTimeout => exact ⟨.idle rfl rfl, rfl, rfl, .inr rfl⟩
  | started taken =>
    have hkept := @keeps_onConnack crates (p.afterPoll taken)
    have hsame := @sameConnection_onConnack crates (p.afterPoll taken)
    exact ⟨.idle hkept.inboxes (hkept.commandLog.trans (List.append_nil _)), hsame.commandRouter,
      hsame.charging, hsame.mirrored⟩
  | waited => exact ⟨.idle rfl rfl, rfl, rfl, .inl ⟨rfl, rfl⟩⟩
  | polled taken event => exact routes_onPolled taken event p
  | handled event => exact routes_handleEvent event p
  | stopped => exact ⟨.idle rfl rfl, rfl, rfl, .inl ⟨rfl, rfl⟩⟩

end

end MqttPublisher

end OcppProxy

import OcppProxy.ResultAccount

/-!
# No command is passed over

What the publisher reads from a command topic while it runs, what it finds due for re-applying and
what results it is brought it deals with at once and one after the other. It hands on no request and
publishes no result besides.
-/

namespace OcppProxy

/-- What the publisher learns of a command. -/
inductive Heard where
  /-- The payload of a command topic as it was parsed, or a limit that is to be re-applied. -/
  | asked (chargePointId : String) (parsed : Except String CommandRequest)
  | result (chargePointId : String) (result : CommandResult)

namespace MqttPublisher

/-- What an input tells of commands; messages read before the first ConnAck tell nothing. -/
def hears (crates : Crates) (now : Time) (p : MqttPublisher) : PublisherInput → List Heard
  | .poll _ (.publish topic payload) =>
    match parseCommandTopic topic with
    | some (id, kind) =>
      if p.stage = .running then [.asked id (parseCommandPayload crates now kind payload)] else []
    | none => []
  | .event (some (.stateChange id .connected .connected)) =>
    if p.wasUp id then []
    else (p.limitToReapply id).toList.map fun limitA => .asked id (.ok (reapplyRequest now limitA))
  | .event (some (.commandResult id result)) => [.result id result]
  | _ => []

/-- What is logged of a command: the request went into a session's channel, or a result for it was
published and folded in. -/
inductive Answers (crates : Crates) : Heard → List PublisherEntry → Prop
  | unreadable (id reason : String) (now : Time) :
      Answers crates (.asked id (.error reason)) [.folded id (.invalidPayload crates now reason)]
  | disabled (id : String) (request : CommandRequest) (now : Time) :
      Answers crates (.asked id (.ok request)) [.folded id (.forRequest crates now request .rejected
        (some "charger commands are disabled on this proxy"))]
  | accepted (id : String) (request : CommandRequest) :
      Answers crates (.asked id (.ok request)) [.dispatched id request (.ok ())]
  | refused (id : String) (request : CommandRequest) (e : DispatchError) (now : Time) :
      Answers crates (.asked id (.ok request)) [.dispatched id request (.error e),
        .folded id (.forRequest crates now request (refusalOf e).1 (some (refusalOf e).2))]
  | reported (id : String) (result : CommandResult) :
      Answers crates (.result id result) [.folded id result]

/-- From `p` to `q` the log grows by the answers to what was heard. -/
def Deals (crates : Crates) (heard : List Heard) (p q : MqttPublisher) : Prop :=
  ∃ chunks, List.Forall₂ (Answers crates) heard chunks ∧
    q.commandLog = p.commandLog ++ chunks.flatten

section
variable {crates : Crates} {now : Time} {p q r : MqttPublisher} {input : PublisherInput}
  {id : String} {heard : List Heard} {es : List PublisherEntry}

theorem Keeps.deals (h : Keeps [] p q) : Deals crates [] p q :=
  ⟨[], .nil, h.commandLog⟩

theorem Keeps.answers {what : Heard} (h : Keeps es p q) (hanswers : Answers crates what es) :
    Deals crates [what] p q :=
  ⟨[es], .cons hanswers .nil, by rw [h.commandLog, List.flatten_singleton]⟩

/-- What comes before and after does not matter. -/
theorem Deals.within {p' q' : MqttPublisher} (h : Deals crates heard p q) (hbefore : Keeps [] p' p)
    (hafter : Keeps [] q q') : Deals crates heard p' q' := by
  obtain ⟨chunks, hchunks, hlog⟩ := h
  refine ⟨chunks, hchunks, ?_⟩
  rw [hafter.commandLog, hlog, hbefore.commandLog, List.append_nil, List.append_nil]

theorem deals_dispatchCommand (request : CommandRequest) (p : MqttPublisher) :
    Deals crates [.asked id (.ok request)] p (p.dispatchCommand crates now id request) := by
  unfold dispatchCommand
  split
  · exact (keeps_publishCommandResult _ p).answers (.disabled id request now)
  · split
    · refine ⟨[_], .cons (.accepted id request) .nil, ?_⟩
      simp [commandLog, note, PublisherEntry.isHandOver]
    · rename_i e _
      have hnoted : Keeps [.dispatched id request (.error e)] p
          (p.note [.dispatched id request (.error e)]) := keeps_note p rfl
      exact (hnoted.trans (keeps_publishCommandResult _ _)).answers (.refused id request e now)

theorem deals_handleIncomingPublish {topic : String} {payload : ByteArray} (taken : Nat)
    (hstage : p.stage = .running) :
    Deals crates (p.hears crates now (.poll taken (.publish topic payload))) p
      (p.handleIncomingPublish crates now topic payload) := by
  cases htopic : parseCommandTopic topic with
  | none =>
    simp only [handleIncomingPublish, hears, htopic]
    exact (Keeps.refl p).deals
  | some command =>
    obtain ⟨id, kind⟩ := command
    simp only [handleIncomingPublish, hears, htopic, if_pos hstage]
    cases parseCommandPayload crates now kind payload with
    | error reason => exact (keeps_publishCommandResult _ p).answers (.unreadable id reason now)
    | ok request => exact deals_dispatchCommand request p

theorem deals_stateChange (id : String) (upstream downstream : ConnectionState)
    (p : MqttPublisher) :
    Deals crates (p.hears crates now (.event (some (.stateChange id upstream downstream)))) p
      (p.handleEvent crates now (.stateChange id upstream downstream)) := by
  obtain ⟨u, hu⟩ : ∃ u, u = p.enqueue
      { topic := statusTopic id, payload := crates.toText (statusPayload upstream downstream)
        qos := .atLeastOnce, retain := true } := ⟨_, rfl⟩
  have hidle : Idle p u := hu ▸ idle_enqueue _ p
  have hbefore : Keeps [] p { u with linkState := u.linkState.insert id (upstream, downstream) } :=
    (hu ▸ keeps_enqueue _ p : Keeps [] p u).trans
      ⟨rfl, rfl, rfl, rfl, rfl, rfl, (List.append_nil _).symm⟩
  have hwas : u.wasUp id = p.wasUp id := by
    unfold wasUp
    rw [hidle.linkState]
  unfold handleEvent
  dsimp only
  rw [← hu]
  split
  · rename_i hup
    obtain ⟨rfl, rfl, hdown⟩ := hup
    have hlimit : limitToReapply { u with
        linkState := u.linkState.insert id (.connected, .connected) } id = p.limitToReapply id := by
      unfold limitToReapply
      simp only [hidle.charging, hidle.chargePointState]
    have hdown : p.wasUp id = false := by simpa [hwas] using hdown
    simp only [maybeReapplyLimit, hears, hlimit, hdown, Bool.false_eq_true, if_false]
    cases p.limitToReapply id with
    | none => exact hbefore.deals
    | some limitA => exact (deals_dispatchCommand _ _).within hbefore (.refl _)
  · rename_i hnot
    have hnone : p.hears crates now (.event (some (.stateChange id upstream downstream))) = [] := by
      unfold hears
      split
      · rename_i heq
        cases heq
      · rename_i heq
        cases heq
        refine if_pos ?_
        by_contra hdown
        exact hnot ⟨rfl, rfl, by simpa [hwas] using hdown⟩
      · rename_i heq
        cases heq
      · rfl
    rw [hnone]
    exact hbefore.deals

theorem deals_handleEvent (event : MqttEvent) (p : MqttPublisher) :
    Deals crates (p.hears crates now (.event (some event))) p (p.handleEvent crates now event) := by
  cases event with
  | messageForwarded id frame direction action =>
    exact ((keeps_enqueue _ p).trans (keeps_storeSnapshot _ _)).deals
  | stateChange id upstream downstream => exact deals_stateChange id upstream downstream p
  | commandResult id result =>
    exact (keeps_publishCommandResult result p).answers (.reported id result)

theorem deals_of_stepped (h : Stepped crates now p input q)
    (hworld : ∀ router inboxes manager, input ≠ .world router inboxes manager) :
    Deals crates (p.hears crates now input) p q := by
  have hsilent {q : MqttPublisher} (hlog : q.commandLog = p.commandLog) : Deals crates [] p q :=
    ⟨[], .nil, by rw [hlog]; exact (List.append_nil _).symm⟩
  have hpolled (taken : Nat) : Keeps [] p (p.afterPoll taken) :=
    ⟨rfl, rfl, rfl, rfl, rfl, rfl, (List.append_nil _).symm⟩
  cases h with
  | world => exact absurd rfl (hworld _ _ _)
  | enqueue message => exact (keeps_enqueue message p).deals
  | startup => exact hsilent rfl
  | startupTimeout => exact hsilent rfl
  | started taken =>
    exact hsilent (((@keeps_onConnack crates (p.afterPoll taken)).commandLog).trans
      (List.append_nil _))
  | waited taken event backoff hstage =>
    have hnone : p.hears crates now (.poll taken event) = [] := by
      cases event with
      | publish topic payload =>
        cases htopic : parseCommandTopic topic <;> simp [hears, htopic, hstage]
      | _ => rfl
    rw [hnone]
    exact hsilent rfl
  | polled taken event hstage =>
    by_cases hpublish : ∃ topic payload, event = .publish topic payload
    · obtain ⟨topic, payload, rfl⟩ := hpublish
      have hdealt : Deals crates _ _ _ := @deals_handleIncomingPublish crates now (p.afterPoll taken)
        topic payload taken hstage
      exact hdealt.within (hpolled taken) (keeps_drainIfConnected _)
    · have hother (topic : String) (payload : ByteArray) : event ≠ .publish topic payload :=
        fun hevent => hpublish ⟨topic, payload, hevent⟩
      have hnone : p.hears crates now (.poll taken event) = [] := by
        cases event with
        | publish topic payload => exact absurd rfl (hother topic payload)
        | _ => rfl
      rw [hnone]
      cases (@routes_onPolled crates now taken event p).1 with
      | idle _ hlog => exact hsilent hlog
      | reported hinput => cases hinput
      | unreadable hinput =>
        cases hinput
        exact absurd rfl (hother _ _)
      | disabled hcause | accepted hcause | refused hcause =>
        cases hcause
        exact absurd rfl (hother _ _)
  | handled event => exact deals_handleEvent event p
  | stopped => exact hsilent rfl

end

end MqttPublisher

namespace Process

def hears (cx : ProxyContext) (x : Process) : ProcessEvent → List Heard
  | .publisher ev => if ev.input.isBroker then x.seen.hears cx.crates ev.now ev.input else []
  | .receive now => x.events.head?.toList.flatMap fun event =>
      x.seen.hears cx.crates now (.event (some event))
  | _ => []

section
variable {cx : ProxyContext} {x y : Process} {ev : ProcessEvent} {config : ProxyConfig}
  {file : SnapshotMap} {events : List ProcessEvent}

theorem deals_of_step (h : step cx x ev = some y) :
    MqttPublisher.Deals cx.crates (x.hears cx ev) x.publisher y.publisher := by
  have hquiet : MqttPublisher.Deals cx.crates [] x.publisher x.publisher :=
    ⟨[], .nil, (List.append_nil _).symm⟩
  have hstepped {ev : PublisherEvent} {p : MqttPublisher}
      (hp : MqttPublisher.step cx.crates x.seen ev = some p)
      (hworld : ∀ router inboxes manager, ev.input ≠ .world router inboxes manager) :
      MqttPublisher.Deals cx.crates (x.seen.hears cx.crates ev.now ev.input) x.publisher p :=
    MqttPublisher.deals_of_stepped (MqttPublisher.stepped_of_step hp) hworld
  cases (moved_of_step h).2 with
  | @publisher ev p hbroker hp =>
    have hhears : x.hears cx (.publisher ev) = x.seen.hears cx.crates ev.now ev.input :=
      if_pos hbroker
    rw [hhears]
    refine hstepped hp fun router inboxes manager hinput => ?_
    rw [hinput] at hbroker
    cases hbroker
  | @received now event events p hevents hp =>
    have hhears : x.hears cx (.receive now) = x.seen.hears cx.crates now (.event (some event)) := by
      simp [hears, hevents]
    rw [hhears]
    exact hstepped hp (by simp)
  | _ => exact hquiet

/-- In every run the publisher answers every command it hears of exactly once, at once and in the
order in which it hears of them: a payload that is no command and a request that is refused with a
result, any other request by handing it on. Besides that, it hands on nothing and publishes no
result. -/
theorem answered_of_heard (hrun : (step cx).run (start config file) events = some x) : ∃ chunks,
    List.Forall₂ (MqttPublisher.Answers cx.crates)
        ((step cx).outputs (hears cx) (start config file) events) chunks ∧
      x.publisher.commandLog = chunks.flatten := by
  have hstep (x ev y) (hstep : step cx x ev = some y) :
      ∃ chunks, List.Forall₂ (MqttPublisher.Answers cx.crates) (x.hears cx ev) chunks ∧
        y.publisher.commandLog = x.publisher.commandLog ++ chunks.flatten := deals_of_step hstep
  obtain ⟨chunks, hchunks, hlog⟩ := (step cx).answered_of_run hstep hrun
  refine ⟨chunks, hchunks, hlog.trans ?_⟩
  have hstart : (start config file).publisher.commandLog = [] := by
    have hnone : (MqttPublisher.build (config.publisherSetup file)).log = [] :=
      (MqttPublisher.build_fields _).2.1
    simp [MqttPublisher.commandLog, start, hnone]
  rw [hstart, List.nil_append]

end

/-- The request is heard of, and the charger's answer to it. -/
theorem commandedEvents_heard :
    ((step commandedContext).run (start commandedConfig ∅) commandedEvents).map (fun _ =>
      ((step commandedContext).outputs (hears commandedContext) (start commandedConfig ∅)
        commandedEvents).length) = some 2 := by
  decide +kernel

theorem answered_of_heard_commanded : ∃ x chunks,
    (step commandedContext).run (start commandedConfig ∅) commandedEvents = some x ∧
      List.Forall₂ (MqttPublisher.Answers commandedContext.crates)
        ((step commandedContext).outputs (hears commandedContext) (start commandedConfig ∅)
          commandedEvents) chunks ∧
      x.publisher.commandLog = chunks.flatten ∧ chunks.length = 2 := by
  obtain ⟨x, hrun, hheard⟩ := Option.map_eq_some_iff.mp commandedEvents_heard
  obtain ⟨chunks, hchunks, hlog⟩ := answered_of_heard hrun
  exact ⟨x, chunks, hrun, hchunks, hlog, hchunks.length_eq.symm.trans hheard⟩

end Process

end OcppProxy

import OcppProxy.SnapshotRestart
import OcppProxy.StoredSnapshots

/-!
# The history behind the snapshots

What the publisher remembers of the charge points is its file with the messages and results folded
in since, one by one. The messages are those that the sessions' events brought, the results those
that were published, each in its order, whatever the broker, the sessions and main did in between.
-/

namespace OcppProxy

def foldSnapshots (crates : Crates) (snapshots : String → ChargePointState)
    (folds : List (String × SnapshotFold)) : String → ChargePointState :=
  folds.foldl (fun snapshots f =>
    Function.update snapshots f.1 (f.2.applyTo crates (snapshots f.1)).2) snapshots

def foldsOf (id : String) (folds : List (String × SnapshotFold)) : List SnapshotFold :=
  folds.filterMap fun f => if f.1 = id then some f.2 else none

def MqttEvent.message? : MqttEvent → Option (String × String × OcppMessageType × String)
  | messageForwarded id frame _ action => some (id, action, frame.messageType, frame.raw)
  | _ => none

def messageOf : String × SnapshotFold → Option (String × String × OcppMessageType × String)
  | (id, .message m) => some (id, m.action, m.messageType, m.raw)
  | _ => none

def resultOf : String × SnapshotFold → Option (String × CommandResult)
  | (id, .commandResult _ result) => some (id, result)
  | _ => none

/-- What a snapshot says about the open session and about the one that ended last is what the
history says. -/
structure TellsSessions (crates : Crates) (folds : List SnapshotFold) (st : ChargePointState) :
    Prop where
  opened : TracksSession crates folds st
  closed : ∀ before stop after args, folds = before ++ stop :: after →
    stop.callArgs crates "StopTransaction" = some args →
    (∀ f ∈ after, f.callArgs crates "StopTransaction" = none) →
      st.lastSession = ((foldAll crates before).closed args).lastSession

section
variable {crates : Crates} {snapshots : String → ChargePointState}
  {folds folds' : List (String × SnapshotFold)} {id : String}

theorem foldSnapshots_append : foldSnapshots crates snapshots (folds ++ folds') =
    foldSnapshots crates (foldSnapshots crates snapshots folds) folds' :=
  List.foldl_append

/-- The charge points do not touch each other's snapshots. -/
theorem foldSnapshots_apply (id : String) : foldSnapshots crates snapshots folds id =
    (foldsOf id folds).foldl (fun st f => (f.applyTo crates st).2) (snapshots id) := by
  induction folds generalizing snapshots with
  | nil => rfl
  | cons f folds ih =>
    show foldSnapshots crates (Function.update snapshots f.1 _) folds id = _
    rw [ih]
    by_cases hid : f.1 = id
    · subst hid
      simp [foldsOf]
    · simp [foldsOf, hid, Function.update_of_ne (Ne.symm hid)]

theorem foldl_lastSession (after : List SnapshotFold) (st : ChargePointState)
    (h : ∀ f ∈ after, f.callArgs crates "StopTransaction" = none) :
    (after.foldl (fun st f => (f.applyTo crates st).2) st).lastSession = st.lastSession := by
  induction after generalizing st with
  | nil => rfl
  | cons f after ih =>
    obtain ⟨hf, hafter⟩ := List.forall_mem_cons.mp h
    rw [List.foldl_cons, ih _ hafter]
    exact (SnapshotFold.applyTo_other hf).1

/-- A snapshot that was empty at first tells the sessions of its history. -/
theorem tellsSessions (hempty : snapshots id = {}) :
    TellsSessions crates (foldsOf id folds) (foldSnapshots crates snapshots folds id) := by
  have hall : foldSnapshots crates snapshots folds id = foldAll crates (foldsOf id folds) := by
    rw [foldSnapshots_apply, hempty]
    rfl
  rw [hall]
  refine ⟨tracksSession crates _, fun before stop after args hfolds hstop hafter => ?_⟩
  obtain ⟨updated, hclosed⟩ :=
    @SnapshotFold.applyTo_stop crates stop (foldAll crates before) args hstop
  have hsplit : foldAll crates (before ++ stop :: after) =
      after.foldl (fun st f => (f.applyTo crates st).2)
        (stop.applyTo crates (foldAll crates before)).2 := by
    simp only [foldAll, List.foldl_append, List.foldl_cons]
  rw [hfolds, hsplit, foldl_lastSession after _ hafter, hclosed]
  rfl

end

namespace MqttPublisher

/-- From `p` to `q` the folds go into the snapshots, and their results are published. -/
structure Folds (crates : Crates) (folds : List (String × SnapshotFold)) (p q : MqttPublisher) :
    Prop where
  snapshots : q.snapshotOf = foldSnapshots crates p.snapshotOf folds
  published : q.published = p.published ++ folds.filterMap resultOf

section
variable {crates : Crates} {now : Time} {p q r : MqttPublisher} {input : PublisherInput}
  {id : String} {folds folds' : List (String × SnapshotFold)}

theorem Folds.of_same (hstate : q.chargePointState = p.chargePointState)
    (hlog : q.commandLog = p.commandLog) : Folds crates [] p q where
  snapshots := by
    funext id
    unfold snapshotOf
    rw [hstate]
    rfl
  published := by
    unfold MqttPublisher.published
    rw [hlog]
    exact (List.append_nil _).symm

theorem Folds.idle (h : Idle p q) : Folds crates [] p q :=
  .of_same h.chargePointState h.commandLog

theorem Folds.trans (h : Folds crates folds p q) (h' : Folds crates folds' q r) :
    Folds crates (folds ++ folds') p r where
  snapshots := by rw [h'.snapshots, h.snapshots, foldSnapshots_append]
  published := by rw [h'.published, h.published, List.filterMap_append, List.append_assoc]

theorem storeSnapshot_snapshotOf (folded : Bool × ChargePointState) :
    (p.storeSnapshot crates id folded).snapshotOf =
      Function.update p.snapshotOf id folded.2 := by
  funext id'
  have hinsert := p.snapshotOf_insert id folded.2 id'
  unfold storeSnapshot
  dsimp only
  rw [Function.update_apply, ← hinsert]
  split
  · unfold publishChargePointState snapshotOf
    rw [(idle_enqueue _ _).chargePointState]
  · rfl

theorem folds_message (m : ForwardedMessage) : Folds crates [(id, .message m)] p
    (p.storeSnapshot crates id (SnapshotFold.applyTo crates (p.snapshotOf id) (.message m))) where
  snapshots := storeSnapshot_snapshotOf _
  published := by
    unfold MqttPublisher.published
    rw [(keeps_storeSnapshot _ p).commandLog]
    simp [resultOf]

theorem folds_publishCommandResult (result : CommandResult) (p : MqttPublisher) :
    Folds crates [(id, .commandResult now result)] p
      (p.publishCommandResult crates now id result) where
  snapshots := by
    obtain ⟨u, hu⟩ : ∃ u, u = p.enqueue
        { topic := commandResultTopic id, payload := crates.toText result.toJson
          qos := .atLeastOnce, retain := false } := ⟨_, rfl⟩
    have hqueued : u.snapshotOf = p.snapshotOf :=
      (Folds.idle (hu ▸ idle_enqueue _ p : Idle p u) : Folds crates [] p u).snapshots
    unfold publishCommandResult
    dsimp only
    rw [← hu, storeSnapshot_snapshotOf]
    show Function.update u.snapshotOf id _ = _
    rw [hqueued]
    rfl
  published := by
    unfold MqttPublisher.published
    rw [(keeps_publishCommandResult result p).commandLog, List.filterMap_append]
    rfl

/-- What refuses a request folds in its own answer alone. -/
theorem folds_dispatchCommand (request : CommandRequest) (p : MqttPublisher) : ∃ folds,
    Folds crates folds p (p.dispatchCommand crates now id request) ∧
      folds.filterMap messageOf = [] := by
  unfold dispatchCommand
  split
  · exact ⟨_, folds_publishCommandResult _ p, rfl⟩
  · split
    · refine ⟨[], ⟨rfl, ?_⟩, rfl⟩
      simp [MqttPublisher.published, commandLog, note, PublisherEntry.isHandOver, PublisherEntry.folded?]
    · rename_i e _
      have hnoted : Folds crates [] p (p.note [.dispatched id request (.error e)]) := by
        refine ⟨rfl, ?_⟩
        simp [MqttPublisher.published, commandLog, note, PublisherEntry.isHandOver, PublisherEntry.folded?]
      exact ⟨_, hnoted.trans (folds_publishCommandResult _ _), rfl⟩

theorem folds_handleIncomingPublish (topic : String) (payload : ByteArray) (p : MqttPublisher) :
    ∃ folds, Folds crates folds p (p.handleIncomingPublish crates now topic payload) ∧
      folds.filterMap messageOf = [] := by
  unfold handleIncomingPublish
  split
  · exact ⟨[], .of_same rfl rfl, rfl⟩
  · split
    · exact ⟨_, folds_publishCommandResult _ p, rfl⟩
    · exact folds_dispatchCommand _ p

/-- An event brings at most one message, and that is folded in. -/
theorem folds_handleEvent (event : MqttEvent) (p : MqttPublisher) : ∃ folds,
    Folds crates folds p (p.handleEvent crates now event) ∧
      folds.filterMap messageOf = event.message?.toList := by
  cases event with
  | messageForwarded id frame direction action =>
    exact ⟨_, (Folds.idle (idle_enqueue _ p)).trans
      (folds_message ⟨now, action, frame.messageType, frame.raw⟩), rfl⟩
  | stateChange id upstream downstream =>
    obtain ⟨u, hu⟩ : ∃ u, u = p.enqueue
        { topic := statusTopic id, payload := crates.toText (statusPayload upstream downstream)
          qos := .atLeastOnce, retain := true } := ⟨_, rfl⟩
    have hqueued : Folds crates [] p u := .idle (hu ▸ idle_enqueue _ p)
    have hlinked : Folds crates [] p
        { u with linkState := u.linkState.insert id (upstream, downstream) } :=
      hqueued.trans (.of_same rfl rfl)
    unfold handleEvent
    dsimp only
    rw [← hu]
    split
    · unfold maybeReapplyLimit
      split
      · exact ⟨[], hlinked, rfl⟩
      · obtain ⟨folds, hfolds, hnone⟩ := @folds_dispatchCommand crates now id _ _
        exact ⟨folds, hlinked.trans hfolds, hnone⟩
    · exact ⟨[], hlinked, rfl⟩
  | commandResult id result => exact ⟨_, folds_publishCommandResult result p, rfl⟩

theorem folds_of_stepped (h : Stepped crates now p input q) : ∃ folds, Folds crates folds p q ∧
    folds.filterMap messageOf = input.handled.filterMap MqttEvent.message? := by
  cases h with
  | world => exact ⟨[], .of_same rfl rfl, rfl⟩
  | enqueue message => exact ⟨[], .idle (idle_enqueue message p), rfl⟩
  | startup => exact ⟨[], .of_same rfl rfl, rfl⟩
  | startupTimeout => exact ⟨[], .of_same rfl rfl, rfl⟩
  | started taken =>
    have hconnected := idle_onConnack crates (p.afterPoll taken)
    exact ⟨[], .of_same hconnected.chargePointState hconnected.commandLog, rfl⟩
  | waited taken => exact ⟨[], .of_same rfl rfl, rfl⟩
  | polled taken event =>
    by_cases hpublish : ∃ topic payload, event = .publish topic payload
    · obtain ⟨topic, payload, rfl⟩ := hpublish
      obtain ⟨folds, hfolds, hnone⟩ :=
        @folds_handleIncomingPublish crates now topic payload (p.afterPoll taken)
      refine ⟨folds ++ [], ?_, ?_⟩
      · exact Folds.trans ⟨hfolds.snapshots, hfolds.published⟩ (.idle (idle_drainIfConnected _))
      · rw [List.append_nil]
        exact hnone
    · have hother (topic : String) (payload : ByteArray) : event ≠ .publish topic payload :=
        fun hevent => hpublish ⟨topic, payload, hevent⟩
      refine ⟨[], .of_same (onPolled_chargePointState event _ hother) ?_, rfl⟩
      cases (@routes_onPolled crates now taken event p).1 with
      | idle _ hlog => exact hlog
      | reported hinput => cases hinput
      | unreadable hinput =>
        cases hinput
        exact absurd rfl (hother _ _)
      | disabled hcause | accepted hcause | refused hcause =>
        cases hcause
        exact absurd rfl (hother _ _)
  | handled event =>
    obtain ⟨folds, hfolds, hmessages⟩ := @folds_handleEvent crates now event p
    refine ⟨folds, hfolds, hmessages.trans ?_⟩
    cases hm : event.message? <;> simp [PublisherInput.handled, hm]
  | stopped => exact ⟨[], .of_same rfl rfl, rfl⟩

end

end MqttPublisher

namespace Process

section
variable {cx : ProxyContext} {x y : Process} {ev : ProcessEvent} {config : ProxyConfig}
  {file : SnapshotMap} {events : List ProcessEvent}

theorem folds_of_moved (h : Moved cx x ev y) : ∃ folds,
    MqttPublisher.Folds cx.crates folds x.publisher y.publisher ∧
      y.taken.filterMap MqttEvent.message? =
        x.taken.filterMap MqttEvent.message? ++ folds.filterMap messageOf := by
  have hstepped {ev : PublisherEvent} {p : MqttPublisher}
      (hp : MqttPublisher.step cx.crates x.seen ev = some p) : ∃ folds,
      MqttPublisher.Folds cx.crates folds x.publisher p ∧
        folds.filterMap messageOf = ev.input.handled.filterMap MqttEvent.message? := by
    obtain ⟨folds, hfolds, hmessages⟩ :=
      MqttPublisher.folds_of_stepped (MqttPublisher.stepped_of_step hp)
    exact ⟨folds, ⟨hfolds.snapshots, hfolds.published⟩, hmessages⟩
  have hquiet {z : Process} (hpublisher : z.publisher.chargePointState =
      x.publisher.chargePointState) (hlog : z.publisher.commandLog = x.publisher.commandLog)
      (htaken : z.taken = x.taken) : ∃ folds,
      MqttPublisher.Folds cx.crates folds x.publisher z.publisher ∧
        z.taken.filterMap MqttEvent.message? =
          x.taken.filterMap MqttEvent.message? ++ folds.filterMap messageOf :=
    ⟨[], .of_same hpublisher hlog, by rw [htaken]; exact (List.append_nil _).symm⟩
  cases h with
  | @publisher ev p hbroker hp =>
    obtain ⟨folds, hfolds, hmessages⟩ := hstepped hp
    refine ⟨folds, hfolds, ?_⟩
    have hnone : ev.input.handled = [] := by
      obtain ⟨now, input⟩ := ev
      cases input <;> first | rfl | cases hbroker
    rw [hmessages, hnone, List.filterMap_nil, List.append_nil]
    rfl
  | @received now event events p hevents hp =>
    obtain ⟨folds, hfolds, hmessages⟩ := hstepped hp
    refine ⟨folds, hfolds, ?_⟩
    rw [hmessages]
    exact List.filterMap_append
  | _ => exact hquiet rfl rfl rfl

/-- In every run what the publisher remembers of the charge points is the file with a history folded
in: the messages of the history are those of the events it took, in their order, and its results
those that were published, in theirs. A charge point that the file did not know is told about by its
own history alone: its open session, and the one that ended last. -/
theorem snapshots_of_run (hrun : (step cx).run (start config file) events = some x) : ∃ folds,
    x.publisher.snapshotOf =
        foldSnapshots cx.crates (start config file).publisher.snapshotOf folds ∧
      folds.filterMap messageOf = x.taken.filterMap MqttEvent.message? ∧
      folds.filterMap resultOf = x.publisher.published ∧
      ∀ id, (start config file).publisher.snapshotOf id = {} →
        TellsSessions cx.crates (foldsOf id folds) (x.publisher.snapshotOf id) := by
  -- the history grows by what each step folds
  have hfolded : ∃ folds,
      MqttPublisher.Folds cx.crates folds (start config file).publisher x.publisher ∧
        x.taken.filterMap MqttEvent.message? = folds.filterMap messageOf := by
    refine (step cx).invariant (P := fun x => ∃ folds,
      MqttPublisher.Folds cx.crates folds (start config file).publisher x.publisher ∧
        x.taken.filterMap MqttEvent.message? = folds.filterMap messageOf) ?_ hrun
      ⟨[], .of_same rfl rfl, rfl⟩
    rintro x ev y hstep ⟨folds, hfolds, hmessages⟩
    obtain ⟨new, hnew, htaken⟩ := folds_of_moved (moved_of_step hstep).2
    refine ⟨folds ++ new, hfolds.trans hnew, ?_⟩
    rw [htaken, hmessages, List.filterMap_append]
  obtain ⟨folds, hfolds, hmessages⟩ := hfolded
  have hnone : (start config file).publisher.published = [] := by
    have hlog : (MqttPublisher.build (config.publisherSetup file)).log = [] :=
      (MqttPublisher.build_fields _).2.1
    simp [MqttPublisher.published, MqttPublisher.commandLog, start, hlog]
  have hpublished := hfolds.published
  rw [hnone, List.nil_append] at hpublished
  refine ⟨folds, hfolds.snapshots, hmessages.symm, hpublished.symm, fun id hempty => ?_⟩
  rw [hfolds.snapshots]
  exact tellsSessions hempty

end

theorem snapshots_of_run_commanded : ∃ x folds,
    (step commandedContext).run (start commandedConfig ∅) commandedEvents = some x ∧
      x.publisher.snapshotOf = foldSnapshots commandedContext.crates
        (start commandedConfig ∅).publisher.snapshotOf folds ∧
      folds.filterMap resultOf = x.publisher.published ∧
      (x.publisher.snapshotOf "CP01").currentLimitA = some 10 := by
  obtain ⟨x, hrun, hlimit⟩ := Option.map_eq_some_iff.mp commandedEvents_remembered
  obtain ⟨folds, hsnapshots, -, hresults, -⟩ := snapshots_of_run hrun
  exact ⟨x, folds, hrun, hsnapshots, hresults, of_decide_eq_true hlimit⟩

end Process

end OcppProxy

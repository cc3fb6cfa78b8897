import OcppProxy.PublisherSteps

/-!
# The standing limit

The snapshot of a charge point says what its limit results have left standing and how the last of
them ended. A link that comes up again re-sends the limit only if that last one was accepted.
-/

namespace OcppProxy

open Relation (ReflTransGen)

/-- The limit that results leave standing: the last accepted one decides, and before any of them
what was loaded. -/
def standingLimit (loaded : Option F64) (results : List CommandResult) : Option F64 :=
  match (results.filter fun r => decide (r.status = .accepted)).getLast? with
  | some r => if r.action = some "SetChargingProfile" then r.appliedLimitA else none
  | none => loaded

def lastStatus (loaded : Option String) (results : List CommandResult) : Option String :=
  match results.getLast? with
  | some r => some r.status.asStr
  | none => loaded

theorem standingLimit_concat (loaded : Option F64) (results : List CommandResult)
    (r : CommandResult) : standingLimit loaded (results ++ [r]) =
      if r.status = .accepted then
        if r.action = some "SetChargingProfile" then r.appliedLimitA else none
      else standingLimit loaded results := by
  by_cases h : r.status = .accepted <;> simp [standingLimit, List.filter_append, h]

theorem lastStatus_concat (loaded : Option String) (results : List CommandResult)
    (r : CommandResult) : lastStatus loaded (results ++ [r]) = some r.status.asStr := by
  simp [lastStatus]

namespace MqttPublisher

def limitResults (p : MqttPublisher) (chargePointId : String) : List CommandResult :=
  (p.trace PublisherEntry.folded?).filterMap fun r =>
    if r.1 = chargePointId ∧ r.2.isLimitResult = true then some r.2 else none

/-- The snapshots say what the results so far have left, from the snapshots that were loaded. -/
def Remembers (loaded : String → ChargePointState) (p : MqttPublisher) : Prop :=
  ∀ id, (p.snapshotOf id).currentLimitA =
      standingLimit (loaded id).currentLimitA (p.limitResults id) ∧
    (p.snapshotOf id).currentLimitStatus =
      lastStatus (loaded id).currentLimitStatus (p.limitResults id)

section
variable {crates : Crates} {now : Time} {input : PublisherInput} {N : String → Prop}
  {p q : MqttPublisher} {setup : PublisherSetup} {loaded : String → ChargePointState}
  {chargePointId : String}

theorem snapshotOf_insert (id : String) (snapshot : ChargePointState) (id' : String) :
    snapshotOf { p with chargePointState := p.chargePointState.insert id snapshot } id' =
      if id' = id then snapshot else p.snapshotOf id' := by
  unfold snapshotOf
  by_cases h : id' = id
  · subst h
    simp
  · simp [h]

theorem Remembers.congr (h : p.Remembers loaded) (hstate : q.chargePointState = p.chargePointState)
    (hfolded : q.trace PublisherEntry.folded? = p.trace PublisherEntry.folded?) :
    q.Remembers loaded := by
  intro id
  unfold snapshotOf limitResults
  rw [hstate, hfolded]
  exact h id

theorem Remembers.idle (h : p.Remembers loaded) (hidle : Idle p q) : q.Remembers loaded :=
  h.congr hidle.chargePointState hidle.folded

theorem Remembers.works (h : Works crates now N p q) (hp : p.Remembers loaded) :
    q.Remembers loaded := by
  induction h with
  | refl => exact hp
  | @tail u _ _ hwork ih =>
    cases hwork with
    | enqueue message _ => exact ih.idle (idle_enqueue message u)
    | @message id _ action messageType raw =>
      intro id'
      have hlimit := (u.snapshotOf id).apply_limit crates now action messageType raw
      rw [snapshotOf_insert]
      split
      · rename_i heq
        rw [hlimit.1, hlimit.2, heq]
        exact ih id
      · exact ih id'
    | @result id _ result =>
      intro id'
      have hlimit := (u.snapshotOf id).applyCommandResult_limit crates now result
      have hsnapshot := snapshotOf_insert (p := u) id
        ((u.snapshotOf id).applyCommandResult crates now result).2 id'
      have hresults : limitResults (u.note [.folded id result]) id' = u.limitResults id' ++
          if id = id' ∧ result.isLimitResult = true then [result] else [] := by
        unfold limitResults
        rw [trace_append (p := u) PublisherEntry.folded? rfl, List.filterMap_append]
        split <;> simp [PublisherEntry.folded?, *]
      suffices hfold : ∀ st : ChargePointState,
          st = (if id' = id then ((u.snapshotOf id).applyCommandResult crates now result).2
            else u.snapshotOf id') →
          st.currentLimitA = standingLimit (loaded id').currentLimitA
              (limitResults (u.note [.folded id result]) id') ∧
            st.currentLimitStatus = lastStatus (loaded id').currentLimitStatus
              (limitResults (u.note [.folded id result]) id') from hfold _ hsnapshot
      rintro st rfl
      rw [hresults]
      by_cases hid : id = id'
      · subst hid
        rw [if_pos rfl, hlimit.1, hlimit.2]
        cases hkind : result.isLimitResult with
        | true =>
          simp only [true_and, if_true, standingLimit_concat, lastStatus_concat, (ih id).1,
            and_true]
        | false => simpa using ih id
      · simpa [hid, Ne.symm hid] using ih id'
    | save => exact ih.congr rfl rfl
    | dispatch id request outcome inboxes =>
      refine ih.congr rfl ?_
      rw [trace_append (p := u) PublisherEntry.folded? rfl]
      simp [PublisherEntry.folded?]
    | link => exact ih.congr rfl rfl

/-- From `p` to `q` the results folded are remembered, and what decides about re-applying is the
same. -/
structure Recalled (p q : MqttPublisher) : Prop where
  charging : q.charging = p.charging
  router : q.commandRouter.isSome = p.commandRouter.isSome
  remembers : ∀ loaded, p.Remembers loaded → q.Remembers loaded

theorem Recalled.idle (h : Idle p q) : Recalled p q :=
  ⟨h.charging, congrArg Option.isSome h.commandRouter, fun _ hp => hp.idle h⟩

theorem Recalled.trans {r : MqttPublisher} (h : Recalled p q) (h' : Recalled q r) :
    Recalled p r :=
  ⟨h'.charging.trans h.charging, h'.router.trans h.router,
    fun loaded hp => h'.remembers loaded (h.remembers loaded hp)⟩

theorem Works.commandRouter (h : Works crates now N p q) : q.commandRouter = p.commandRouter := by
  induction h with
  | refl => rfl
  | tail _ hwork ih =>
    cases hwork with
    | enqueue message _ => exact (idle_enqueue message _).commandRouter.trans ih
    | _ => exact ih

theorem Recalled.works (h : Works crates now N p q) : Recalled p q := by
  refine ⟨?_, congrArg Option.isSome h.commandRouter, fun _ hp => hp.works h⟩
  induction h with
  | refl => rfl
  | tail _ hwork ih =>
    cases hwork with
    | enqueue message _ => exact (idle_enqueue message _).charging.trans ih
    | _ => exact ih

/-- Of what a poll returns, only a message from a subscribed topic has to do with commands. -/
theorem onPolled_cases (now : Time) (event : Polled) (p : MqttPublisher) :
    Idle p (p.onPolled crates now event) ∨ ∃ topic payload, event = .publish topic payload ∧
      Idle (p.handleIncomingPublish crates now topic payload) (p.onPolled crates now event) := by
  cases event with
  | connAck => exact .inl (idle_onConnack crates p)
  | publish topic payload => exact .inr ⟨topic, payload, rfl, idle_drainIfConnected _⟩
  | other =>
    refine .inl ?_
    unfold onPolled
    dsimp only
    split
    · exact (idle_trySubscribe p).trans (idle_drainBuffer _)
    · exact .refl p
  | error =>
    refine .inl ?_
    unfold onPolled onPollError
    dsimp only
    split <;> exact .of_same rfl rfl rfl rfl rfl rfl

theorem recalled_onPolled (now : Time) (event : Polled) (p : MqttPublisher) :
    Recalled p (p.onPolled crates now event) := by
  rcases @onPolled_cases crates now event p with hidle | ⟨topic, payload, -, hidle⟩
  · exact .idle hidle
  · exact (Recalled.works (works_handleIncomingPublish crates now nameClass_true payload
      fun _ _ => trivial)).trans (.idle hidle)

theorem recalled_of_stepped (h : Stepped crates now p input q) : Recalled p q := by
  have hpolled (taken : Nat) : Idle p (p.afterPoll taken) := .of_same rfl rfl rfl rfl rfl rfl
  cases h with
  | world =>
    refine ⟨rfl, ?_, fun loaded hp => hp.congr rfl rfl⟩
    cases p.commandRouter <;> rfl
  | enqueue message => exact .idle (idle_enqueue message p)
  | startup => exact .idle (.of_same rfl rfl rfl rfl rfl rfl)
  | startupTimeout => exact .idle (.of_same rfl rfl rfl rfl rfl rfl)
  | started taken =>
    have hrunning (p : MqttPublisher) : Idle p { p with stage := .running } :=
      .of_same rfl rfl rfl rfl rfl rfl
    exact .idle (((hpolled taken).trans (idle_onConnack crates _)).trans (hrunning _))
  | waited taken => exact .idle (.of_same rfl rfl rfl rfl rfl rfl)
  | polled taken event => exact (Recalled.idle (hpolled _)).trans (recalled_onPolled now event _)
  | handled event =>
    have hnames : NamesIn (fun _ => True) event := by cases event <;> simp [NamesIn]
    exact .works (works_handleEvent crates now nameClass_true hnames)
  | stopped => exact .idle (.of_same rfl rfl rfl rfl rfl rfl)

/-! ## Re-applying -/

theorem storeSnapshot_dispatched (folded : Bool × ChargePointState) :
    (p.storeSnapshot crates chargePointId folded).trace PublisherEntry.dispatched? =
      p.trace PublisherEntry.dispatched? := by
  unfold storeSnapshot
  dsimp only
  split
  · exact (idle_enqueue _ _).dispatched
  · rfl

theorem publishCommandResult_dispatched (result : CommandResult) :
    (p.publishCommandResult crates now chargePointId result).trace PublisherEntry.dispatched? =
      p.trace PublisherEntry.dispatched? := by
  unfold publishCommandResult
  dsimp only
  rw [storeSnapshot_dispatched, trace_append _ rfl, (idle_enqueue _ _).dispatched]
  simp [PublisherEntry.dispatched?]

theorem dispatchCommand_dispatched (request : CommandRequest)
    (hrouter : p.commandRouter.isSome = true) :
    (p.dispatchCommand crates now chargePointId request).trace PublisherEntry.dispatched? =
      p.trace PublisherEntry.dispatched? ++ [(chargePointId, request)] := by
  obtain ⟨router, hrouter⟩ := Option.isSome_iff_exists.mp hrouter
  unfold dispatchCommand
  rw [hrouter]
  dsimp only
  split
  · rw [trace_append (p := p) _ rfl]
    simp [PublisherEntry.dispatched?]
  · rw [publishCommandResult_dispatched, trace_append (p := p) _ rfl]
    simp [PublisherEntry.dispatched?]

/-- What `maybe_reapply_limit` reads off the snapshot. -/
theorem limitToReapply_eq (hcharging : p.charging.any (·.reapplyOnConnect) = true) :
    p.limitToReapply chargePointId =
      if (p.snapshotOf chargePointId).currentLimitStatus = some "accepted" then
        (p.snapshotOf chargePointId).currentLimitA
      else none := by
  unfold limitToReapply snapshotOf
  rw [if_pos hcharging]
  cases p.chargePointState.lookup chargePointId with
  | none => simp
  | some st =>
    by_cases h : st.currentLimitStatus = some "accepted" <;> simp [Option.filter, h]

/-- What a state change does: it is published, remembered, and then may re-apply. -/
theorem handleEvent_stateChange (upstream downstream : ConnectionState) : ∃ u, Idle p u ∧
    p.handleEvent crates now (.stateChange chargePointId upstream downstream) =
      if upstream = .connected ∧ downstream = .connected ∧ p.wasUp chargePointId = false then
        maybeReapplyLimit crates now chargePointId
          { u with linkState := u.linkState.insert chargePointId (upstream, downstream) }
      else { u with linkState := u.linkState.insert chargePointId (upstream, downstream) } := by
  obtain ⟨message, hevent⟩ : ∃ message,
      p.handleEvent crates now (.stateChange chargePointId upstream downstream) =
        let u := p.enqueue message
        if upstream = .connected ∧ downstream = .connected ∧
            (!u.wasUp chargePointId) = true then
          maybeReapplyLimit crates now chargePointId
            { u with linkState := u.linkState.insert chargePointId (upstream, downstream) }
        else { u with linkState := u.linkState.insert chargePointId (upstream, downstream) } :=
    ⟨_, rfl⟩
  have hidle : Idle p (p.enqueue message) := idle_enqueue message p
  have hup : (p.enqueue message).wasUp chargePointId = p.wasUp chargePointId := by
    unfold wasUp
    rw [hidle.linkState]
  refine ⟨_, hidle, ?_⟩
  rw [hevent]
  simp only [hup, Bool.not_eq_true']

theorem limitToReapply_congr (hcharging : q.charging = p.charging)
    (hstate : q.chargePointState = p.chargePointState) :
    q.limitToReapply chargePointId = p.limitToReapply chargePointId := by
  unfold limitToReapply
  rw [hcharging, hstate]

/-- A link that comes up dispatches the limit to re-apply, and nothing else. -/
theorem linkUp_dispatched (hrouter : p.commandRouter.isSome = true)
    (hdown : p.wasUp chargePointId = false) :
    (p.handleEvent crates now (.stateChange chargePointId .connected .connected)).trace
        PublisherEntry.dispatched? =
      p.trace PublisherEntry.dispatched? ++ (p.limitToReapply chargePointId).toList.map
        fun limitA => (chargePointId, reapplyRequest now limitA) := by
  obtain ⟨u, hidle, hevent⟩ :=
    @handleEvent_stateChange crates now p chargePointId .connected .connected
  obtain ⟨v, hv⟩ : ∃ v, v = { u with
      linkState := u.linkState.insert chargePointId (.connected, .connected) } := ⟨_, rfl⟩
  have hlimit : v.limitToReapply chargePointId = p.limitToReapply chargePointId :=
    limitToReapply_congr (hv ▸ hidle.charging) (hv ▸ hidle.chargePointState)
  have hdispatched : v.trace PublisherEntry.dispatched? = p.trace PublisherEntry.dispatched? :=
    hv ▸ hidle.dispatched
  rw [hevent, if_pos ⟨rfl, rfl, hdown⟩, ← hv, ← hdispatched]
  unfold maybeReapplyLimit
  rw [hlimit]
  cases p.limitToReapply chargePointId with
  | none => simp
  | some limitA =>
    refine dispatchCommand_dispatched _ ?_
    rw [hv]
    exact hidle.commandRouter ▸ hrouter

/-- When the link of a charge point comes up, its standing limit is re-applied, and nothing where
none stands, if and only if no limit stands or the last limit result was accepted. -/
theorem reapplied_iff {events : List PublisherEvent} {router : CommandRouter}
    {charging : ChargingConfig} (hrun : (step crates).run (build setup) events = some p)
    (hcommands : setup.commands = some (router, charging))
    (hreapply : charging.reapplyOnConnect = true) (hdown : p.wasUp chargePointId = false)
    (now : Time) :
    let loaded := (build setup).snapshotOf chargePointId
    let standing := standingLimit loaded.currentLimitA (p.limitResults chargePointId)
    ∃ requests, (p.handleEvent crates now
        (.stateChange chargePointId .connected .connected)).trace PublisherEntry.dispatched? =
          p.trace PublisherEntry.dispatched? ++ requests ∧
      ((∀ x, (∃ request, (chargePointId, request) ∈ requests ∧ request.source = .reapply ∧
          request.command = .setCurrentLimit x) ↔ standing = some x) ↔
        standing = none ∨ lastStatus loaded.currentLimitStatus (p.limitResults chargePointId) =
          some CommandStatus.accepted.asStr) := by
  intro loaded standing
  have hbuild : (build setup).charging = some charging ∧
      (build setup).commandRouter = some router ∧ (build setup).log = [] := by
    unfold build
    rw [hcommands]
    cases setup.stateManager <;> exact ⟨rfl, rfl, rfl⟩
  have hremember : (build setup).Remembers (build setup).snapshotOf := by
    intro id
    simp [limitResults, trace, hbuild.2.2, standingLimit, lastStatus]
  have hrecalled : Recalled (build setup) p :=
    (step crates).invariant (P := Recalled (build setup))
      (fun s ev t hs h => h.trans (recalled_of_stepped (stepped_of_step hs))) hrun
      (.idle (.refl _))
  have hrouter : p.commandRouter.isSome = true := by
    rw [hrecalled.router, hbuild.2.1]
    rfl
  have hcharging : p.charging.any (·.reapplyOnConnect) = true := by
    rw [hrecalled.charging, hbuild.1]
    exact hreapply
  obtain ⟨hlimit, hstatus⟩ := hrecalled.remembers _ hremember chargePointId
  -- the decision is made on the last status, the limit on the last accepted result
  have hdecision : p.limitToReapply chargePointId =
      if lastStatus loaded.currentLimitStatus (p.limitResults chargePointId) =
        some CommandStatus.accepted.asStr then standing else none := by
    rw [limitToReapply_eq hcharging, hlimit, hstatus]
    rfl
  refine ⟨_, linkUp_dispatched hrouter hdown, ?_⟩
  rw [hdecision]
  by_cases haccepted : lastStatus loaded.currentLimitStatus (p.limitResults chargePointId) =
      some CommandStatus.accepted.asStr
  · refine iff_of_true (fun x => ?_) (.inr haccepted)
    rw [if_pos haccepted]
    constructor
    · rintro ⟨request, hmem, -, hcommand⟩
      obtain ⟨limitA, hlimitA, heq⟩ := List.mem_map.mp hmem
      obtain ⟨-, rfl⟩ := Prod.mk.inj heq
      obtain rfl : limitA = x := ProxyCommand.setCurrentLimit.inj hcommand
      exact Option.mem_toList.mp hlimitA
    · exact fun hx => ⟨reapplyRequest now x, by simp [hx], rfl, rfl⟩
  · rw [if_neg haccepted]
    constructor
    · -- nothing is re-applied, so nothing may stand
      refine fun h => .inl (Option.eq_none_iff_forall_ne_some.mpr fun x hx => ?_)
      obtain ⟨request, hmem, -⟩ := (h x).mpr hx
      simp at hmem
    · rintro (hnone | h)
      · simp [hnone]
      · exact absurd h haccepted

/-- A publisher with commands for one charger, which is registered. -/
def commandSetup : PublisherSetup where
  commands := some (CommandRouter.empty.register "CP01" 0 0, {})

def limitResult (limitA : F64) (status : CommandStatus) : MqttEvent :=
  let request : CommandRequest := .new 0 "a" (.setCurrentLimit limitA) .mqtt
  .commandResult "CP01" (.forInFlight (.ofTable []) 0
    { request, sentAt := 0
      prepared := { uniqueId := "proxy-0-1", action := "SetChargingProfile", raw := ""
                    appliedLimitA := some limitA, detail := none } } status none none)

theorem reapplied_iff_accepted :
    ∃ p q, (step (.ofTable [])).run (build commandSetup)
        [⟨0, .startup⟩, ⟨1, .poll 0 .connAck⟩, ⟨2, .event (some (limitResult 16 .accepted))⟩] =
          some p ∧
      q = p.handleEvent (.ofTable []) 3 (.stateChange "CP01" .connected .connected) ∧
      ∃ requests, q.trace PublisherEntry.dispatched? =
        p.trace PublisherEntry.dispatched? ++ requests ∧ requests ≠ [] := by
  have hseen : ((step (.ofTable [])).run (build commandSetup)
      [⟨0, .startup⟩, ⟨1, .poll 0 .connAck⟩, ⟨2, .event (some (limitResult 16 .accepted))⟩]).map
      (fun p => (p.wasUp "CP01", standingLimit ((build commandSetup).snapshotOf "CP01").currentLimitA
          (p.limitResults "CP01"),
        lastStatus ((build commandSetup).snapshotOf "CP01").currentLimitStatus
          (p.limitResults "CP01"))) =
      some (false, some 16, some "accepted") := by decide +kernel
  obtain ⟨p, hrun, hp⟩ := Option.map_eq_some_iff.mp hseen
  obtain ⟨hdown, hstanding, hlast⟩ := by simpa only [Prod.mk.injEq] using hp
  obtain ⟨requests, hrequests, hiff⟩ := reapplied_iff hrun rfl rfl hdown 3
  refine ⟨p, _, hrun, rfl, requests, hrequests, ?_⟩
  obtain ⟨request, hmem, -⟩ := (hiff.mpr (.inr hlast) 16).mpr hstanding
  exact List.ne_nil_of_mem hmem

/-- A limit that the charger refuses leaves the accepted one standing, and the next link-up
re-applies nothing. -/
theorem not_reapplied_refused :
    ∃ p q, (step (.ofTable [])).run (build commandSetup)
        [⟨0, .startup⟩, ⟨1, .poll 0 .connAck⟩, ⟨2, .event (some (limitResult 16 .accepted))⟩,
          ⟨3, .event (some (limitResult 10 .rejected))⟩] = some p ∧
      p.wasUp "CP01" = false ∧
      standingLimit ((build commandSetup).snapshotOf "CP01").currentLimitA
        (p.limitResults "CP01") = some 16 ∧
      q = p.handleEvent (.ofTable []) 4 (.stateChange "CP01" .connected .connected) ∧
      q.trace PublisherEntry.dispatched? = [] := by
  have hseen : ((step (.ofTable [])).run (build commandSetup)
      [⟨0, .startup⟩, ⟨1, .poll 0 .connAck⟩, ⟨2, .event (some (limitResult 16 .accepted))⟩,
        ⟨3, .event (some (limitResult 10 .rejected))⟩]).map
      (fun p => (p.wasUp "CP01", standingLimit ((build commandSetup).snapshotOf "CP01").currentLimitA
          (p.limitResults "CP01"),
        (p.handleEvent (.ofTable []) 4 (.stateChange "CP01" .connected .connected)).trace
          PublisherEntry.dispatched?)) = some (false, some 16, []) := by decide +kernel
  obtain ⟨p, hrun, hp⟩ := Option.map_eq_some_iff.mp hseen
  obtain ⟨hdown, hstanding, hdispatched⟩ := by simpa only [Prod.mk.injEq] using hp
  exact ⟨p, _, hrun, hdown, hstanding, rfl, hdispatched⟩

end

end MqttPublisher

end OcppProxy

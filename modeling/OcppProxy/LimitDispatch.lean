import OcppProxy.StandingLimit

/-!
# The publisher's part in a charge point's limit

Of a charge point the publisher keeps the limit and how its last limit command ended, and the router
leads into one channel. A dispatch puts the request there, or answers for it and notes the refusal.
-/

namespace OcppProxy

/-- What the publisher has to do with a charge point's limit. -/
structure LimitView where
  limit : Option F64
  status : Option String
  inbox : Inbox

def LimitView.fold (result : CommandResult) (v : LimitView) : LimitView :=
  { v with limit := standingLimit v.limit [result], status := some result.status.asStr }

namespace CommandRouter

def leadsOnly (chargePointId : String) (tx : Nat) (router : CommandRouter) : Bool :=
  router.registrations.entries.all fun e => e.2.tx != tx || e.1 == chargePointId

theorem leadsOnly_find? {id id' : String} {tx : Nat} {router : CommandRouter}
    {registration : Registration} (h : router.leadsOnly id tx = true)
    (hfind : router.find? id' = some registration) (htx : registration.tx = tx) : id' = id := by
  have hmem : (⟨id', registration⟩ : Sigma fun _ : String => Registration) ∈
      router.registrations.entries := AList.mem_lookup_iff.mp hfind
  have hentry := List.all_eq_true.mp h _ hmem
  simpa [htx] using hentry

end CommandRouter

/-- Whether an input is neither an event of a session nor another task's change. -/
def PublisherInput.isOwn : PublisherInput → Bool
  | .world .. | .event (some _) => false
  | _ => true

namespace MqttPublisher

def limitView (chargePointId : String) (tx : Nat) (p : MqttPublisher) : LimitView where
  limit := (p.snapshotOf chargePointId).currentLimitA
  status := (p.snapshotOf chargePointId).currentLimitStatus
  inbox := p.inboxes tx

def leadsTo (chargePointId : String) (tx : Nat) (p : MqttPublisher) : Bool :=
  (p.commandRouter.bind (·.find? chargePointId)).any (·.tx == tx)

/-- No other charge point's registration leads to the channel. -/
def Routed (chargePointId : String) (tx : Nat) (p : MqttPublisher) : Prop :=
  ∀ router ∈ p.commandRouter, router.leadsOnly chargePointId tx = true

/-- What a dispatch of the request does: it changes nothing here, it is answered for with a refusal,
or it goes into the channel. -/
inductive Dispatches (chargePointId : String) (tx : Nat) (request : CommandRequest)
    (p q : MqttPublisher) : Prop where
  | nothing (h : q.limitView chargePointId tx = p.limitView chargePointId tx)
  | refused {status : CommandStatus} (hne : status ≠ .accepted)
    (h : q.limitView chargePointId tx =
      { p.limitView chargePointId tx with status := some status.asStr })
  | put (hleads : p.leadsTo chargePointId tx = true) (h : q.limitView chargePointId tx =
      { p.limitView chargePointId tx with inbox := (p.inboxes tx).put request })

section
variable {crates : Crates} {now : Time} {p q r : MqttPublisher} {request : CommandRequest}
  {id id' : String} {tx : Nat}

theorem limitView_congr (hstate : q.chargePointState = p.chargePointState)
    (hinboxes : q.inboxes = p.inboxes) : q.limitView id tx = p.limitView id tx := by
  unfold limitView snapshotOf
  rw [hstate, hinboxes]

theorem Idle.limitView (h : Idle p q) : q.limitView id tx = p.limitView id tx :=
  limitView_congr h.chargePointState h.inboxes

theorem limitView_storeSnapshot (folded : Bool × ChargePointState) :
    (p.storeSnapshot crates id' folded).limitView id tx =
      if id = id' then ⟨folded.2.currentLimitA, folded.2.currentLimitStatus, p.inboxes tx⟩
      else p.limitView id tx := by
  have hinserted : limitView id tx
      { p with chargePointState := p.chargePointState.insert id' folded.2 } =
        if id = id' then ⟨folded.2.currentLimitA, folded.2.currentLimitStatus, p.inboxes tx⟩
        else p.limitView id tx := by
    unfold limitView
    rw [snapshotOf_insert]
    split <;> rfl
  rw [← hinserted]
  unfold storeSnapshot
  dsimp only
  split
  · exact ((idle_enqueue _ _).limitView).trans (limitView_congr rfl rfl)
  · rfl

theorem limitView_publishCommandResult (result : CommandResult) :
    (p.publishCommandResult crates now id' result).limitView id tx =
      if id = id' ∧ result.isLimitResult = true then (p.limitView id tx).fold result
      else p.limitView id tx := by
  obtain ⟨u, hu, hidle, hresult⟩ : ∃ u : MqttPublisher, u.limitView id tx = p.limitView id tx ∧
      u.snapshotOf id' = p.snapshotOf id' ∧ p.publishCommandResult crates now id' result =
        u.storeSnapshot crates id' ((u.snapshotOf id').applyCommandResult crates now result) := by
    obtain ⟨message, hmessage⟩ : ∃ message, p.publishCommandResult crates now id' result =
        ((p.enqueue message).note [.folded id' result]).storeSnapshot crates id'
          (((p.enqueue message).snapshotOf id').applyCommandResult crates now result) := ⟨_, rfl⟩
    refine ⟨(p.enqueue message).note [.folded id' result], (idle_enqueue message p).limitView, ?_,
      hmessage⟩
    unfold snapshotOf
    rw [← (idle_enqueue message p).chargePointState]
    rfl
  have hlimit := (u.snapshotOf id').applyCommandResult_limit crates now result
  rw [hresult, limitView_storeSnapshot, hlimit.1, hlimit.2, hu, hidle]
  by_cases hid : id = id'
  · subst hid
    have hinbox : u.inboxes tx = p.inboxes tx := congrArg LimitView.inbox hu
    rw [if_pos rfl, hinbox]
    cases hkind : result.isLimitResult with
    | false => simp [MqttPublisher.limitView]
    | true =>
      have hstanding := standingLimit_concat (p.snapshotOf id).currentLimitA [] result
      simp only [List.nil_append] at hstanding
      simp [LimitView.fold, MqttPublisher.limitView, hstanding]
      rfl
  · simp [hid]

/-- A forwarded frame changes no limit. -/
theorem limitView_messageForwarded (frame : OcppFrame) (direction : Direction) (action : String) :
    (p.handleEvent crates now (.messageForwarded id' frame direction action)).limitView id tx =
      p.limitView id tx := by
  obtain ⟨message, hevent⟩ : ∃ message,
      p.handleEvent crates now (.messageForwarded id' frame direction action) =
        (p.enqueue message).storeSnapshot crates id' (((p.enqueue message).snapshotOf id').apply
          crates now action frame.messageType frame.raw) := ⟨_, rfl⟩
  have hlimit := ((p.enqueue message).snapshotOf id').apply_limit crates now action
    frame.messageType frame.raw
  rw [hevent, limitView_storeSnapshot, hlimit.1, hlimit.2, ← (idle_enqueue message p).limitView]
  split
  · rename_i hid
    subst hid
    rfl
  · rfl

theorem Dispatches.congr {p' : MqttPublisher} (h : Dispatches id tx request p' q)
    (hp : p'.limitView id tx = p.limitView id tx) (hrouter : p'.commandRouter = p.commandRouter) :
    Dispatches id tx request p q := by
  have hinbox : p'.inboxes tx = p.inboxes tx := congrArg LimitView.inbox hp
  cases h with
  | nothing h => exact .nothing (h.trans hp)
  | refused hne h => exact .refused hne (by rw [h, hp])
  | put hleads h =>
    refine .put ?_ (by rw [h, hp, hinbox])
    unfold leadsTo at hleads ⊢
    rw [← hrouter]
    exact hleads

theorem Dispatches.idle (h : Dispatches id tx request p q) (hidle : Idle q r) :
    Dispatches id tx request p r := by
  have hview := @Idle.limitView q r id tx hidle
  cases h with
  | nothing h => exact .nothing (hview.trans h)
  | refused hne h => exact .refused hne (hview.trans h)
  | put hleads h => exact .put hleads (hview.trans h)

theorem dispatches_refusal {status : CommandStatus} (detail : Option String)
    (hne : status ≠ .accepted) : Dispatches id tx request p (p.publishCommandResult crates now id
      (.forRequest crates now request status detail)) := by
  obtain ⟨result, hresult⟩ : ∃ result, result =
      CommandResult.forRequest crates now request status detail := ⟨_, rfl⟩
  have hstatus : result.status = status := hresult ▸ rfl
  rw [← hresult]
  by_cases hlimit : id = id ∧ result.isLimitResult = true
  · refine .refused hne ?_
    have hstanding := standingLimit_concat (p.limitView id tx).limit [] result
    rw [hstatus, if_neg hne, List.nil_append] at hstanding
    rw [limitView_publishCommandResult, if_pos hlimit, LimitView.fold, hstanding, hstatus]
    rfl
  · exact .nothing (by rw [limitView_publishCommandResult, if_neg hlimit])

theorem refusalOf_ne_accepted (e : DispatchError) : (refusalOf e).1 ≠ .accepted := by
  cases e <;> simp [refusalOf]

theorem dispatches_dispatchCommand :
    Dispatches id tx request p (p.dispatchCommand crates now id request) := by
  unfold dispatchCommand
  cases hrouter : p.commandRouter with
  | none => exact dispatches_refusal _ (by decide)
  | some router =>
    dsimp only
    split
    · rename_i inboxes hok
      obtain ⟨registration, hfind, -, -, rfl⟩ := (router.dispatch_eq_ok id).mp hok
      by_cases htx : registration.tx = tx
      · subst htx
        refine .put ?_ ?_
        · simp [leadsTo, hrouter, hfind]
        · simp [MqttPublisher.limitView, note, snapshotOf]
      · refine .nothing ?_
        simp [MqttPublisher.limitView, note, snapshotOf, Function.update_of_ne (Ne.symm htx)]
    · rename_i e _
      have hrefused := @dispatches_refusal crates now
        (p.note [.dispatched id request (.error e)]) request id tx (refusalOf e).1
        (some (refusalOf e).2) (refusalOf_ne_accepted e)
      exact hrefused.congr rfl rfl

/-- What is for another charge point does not come here. -/
theorem limitView_dispatchCommand_other (hrouted : p.Routed id tx) (hid : id ≠ id') :
    (p.dispatchCommand crates now id' request).limitView id tx = p.limitView id tx := by
  have hother (u : MqttPublisher) (result : CommandResult) :
      (u.publishCommandResult crates now id' result).limitView id tx = u.limitView id tx := by
    rw [limitView_publishCommandResult, if_neg fun h => hid h.1]
  unfold dispatchCommand
  cases hrouter : p.commandRouter with
  | none => exact hother p _
  | some router =>
    dsimp only
    split
    · rename_i inboxes hok
      obtain ⟨registration, hfind, -, -, rfl⟩ := (router.dispatch_eq_ok id').mp hok
      have htx : registration.tx ≠ tx := fun htx =>
        hid (CommandRouter.leadsOnly_find? (hrouted router hrouter) hfind htx).symm
      simp [MqttPublisher.limitView, note, snapshotOf, Function.update_of_ne (Ne.symm htx)]
    · exact (hother _ _).trans (limitView_congr rfl rfl)

end

def limitReapplied (chargePointId : String) (event : MqttEvent) (p : MqttPublisher) : Option F64 :=
  match event with
  | .stateChange id upstream downstream =>
    if id = chargePointId ∧ upstream = .connected ∧ downstream = .connected ∧
        p.wasUp chargePointId = false then
      p.limitToReapply chargePointId
    else none
  | _ => none

section
variable {crates : Crates} {now : Time} {p q : MqttPublisher} {id id' : String} {tx : Nat}

/-- A state change dispatches the Reapply of the standing limit, or does nothing here. -/
theorem limitView_stateChange (hrouted : p.Routed id tx) (upstream downstream : ConnectionState) :
    (∃ limitA, p.limitReapplied id (.stateChange id' upstream downstream) = some limitA ∧
      Dispatches id tx (reapplyRequest now limitA) p
        (p.handleEvent crates now (.stateChange id' upstream downstream))) ∨
    (p.handleEvent crates now (.stateChange id' upstream downstream)).limitView id tx =
      p.limitView id tx := by
  obtain ⟨u, hidle, hevent⟩ := @handleEvent_stateChange crates now p id' upstream downstream
  obtain ⟨v, hv⟩ : ∃ v, v = { u with
      linkState := u.linkState.insert id' (upstream, downstream) } := ⟨_, rfl⟩
  have hview : v.limitView id tx = p.limitView id tx :=
    (limitView_congr (by rw [hv]) (by rw [hv])).trans hidle.limitView
  have hrouter : v.commandRouter = p.commandRouter := by
    rw [hv]
    exact hidle.commandRouter
  rw [hevent, ← hv]
  split
  · rename_i hup
    have hreapply : v.limitToReapply id' = p.limitToReapply id' :=
      limitToReapply_congr (hv ▸ hidle.charging) (hv ▸ hidle.chargePointState)
    unfold maybeReapplyLimit
    rw [hreapply]
    cases hlimit : p.limitToReapply id' with
    | none => exact .inr hview
    | some limitA =>
      by_cases hid : id = id'
      · subst hid
        refine .inl ⟨limitA, ?_, dispatches_dispatchCommand.congr hview hrouter⟩
        unfold limitReapplied
        dsimp only
        rw [if_pos ⟨rfl, hup⟩, hlimit]
      · refine .inr ((limitView_dispatchCommand_other ?_ hid).trans hview)
        intro router hmem
        exact hrouted router (hrouter ▸ hmem)
  · exact .inr hview

theorem parseCommandPayload_source {kind : CommandTopic} {payload : ByteArray}
    {request : CommandRequest} (h : parseCommandPayload crates now kind payload = .ok request) :
    request.source = .mqtt := by
  have hobject {text : String} (h : parseCommandObject crates now text = .ok request) :
      request.source = .mqtt := by
    unfold parseCommandObject at h
    split at h
    · cases h
    · split at h
      · cases h
      · rename_i fields _
        cases hid : readId crates now (fields.lookup "id") with
        | error e =>
          rw [hid] at h
          cases h
        | ok id =>
          rw [hid] at h
          dsimp only [Except.bind] at h
          split at h <;> cases h
          rfl
  unfold parseCommandPayload at h
  split at h
  · cases h
  · dsimp only at h
    split at h
    · cases h
    · split at h
      · unfold parseCurrentLimit at h
        dsimp only at h
        split at h
        · cases h
          rfl
        · split at h <;> cases h
          rfl
      · exact hobject h

structure Commands (chargePointId : String) (tx : Nat) (p q : MqttPublisher) : Prop where
  router : q.commandRouter = p.commandRouter
  limit : (∃ request : CommandRequest, request.source = .mqtt ∧
      Dispatches chargePointId tx request p q) ∨
    q.limitView chargePointId tx = p.limitView chargePointId tx

theorem Commands.of_idle (h : Idle p q) : Commands id tx p q := ⟨h.commandRouter, .inr h.limitView⟩

theorem Commands.idle {r : MqttPublisher} (h : Commands id tx p q) (hidle : Idle q r) :
    Commands id tx p r := by
  refine ⟨hidle.commandRouter.trans h.router, ?_⟩
  rcases h.limit with ⟨request, hsource, hdispatches⟩ | hsame
  · exact .inl ⟨request, hsource, hdispatches.idle hidle⟩
  · exact .inr (hidle.limitView.trans hsame)

theorem Commands.after {r : MqttPublisher} (h : Commands id tx q r) (hidle : Idle p q) :
    Commands id tx p r := by
  refine ⟨h.router.trans hidle.commandRouter, ?_⟩
  rcases h.limit with ⟨request, hsource, hdispatches⟩ | hsame
  · exact .inl ⟨request, hsource, hdispatches.congr hidle.limitView hidle.commandRouter⟩
  · exact .inr (hsame.trans hidle.limitView)

theorem commands_handleIncomingPublish (hrouted : p.Routed id tx) (topic : String)
    (payload : ByteArray) :
    Commands id tx p (p.handleIncomingPublish crates now topic payload) := by
  refine ⟨(works_handleIncomingPublish crates now nameClass_true payload
    fun _ _ => trivial).commandRouter, ?_⟩
  unfold handleIncomingPublish
  split
  · exact .inr rfl
  · rename_i id' kind _
    split
    · exact .inr (by rw [limitView_publishCommandResult, if_neg (by rintro ⟨-, h⟩; cases h)])
    · rename_i request hparse
      by_cases hid : id = id'
      · subst hid
        exact .inl ⟨request, parseCommandPayload_source hparse, dispatches_dispatchCommand⟩
      · exact .inr (limitView_dispatchCommand_other hrouted hid)

theorem commands_of_stepped {input : PublisherInput} (h : Stepped crates now p input q)
    (hown : input.isOwn = true) (hrouted : p.Routed id tx) : Commands id tx p q := by
  have hpolled (taken : Nat) : Idle p (p.afterPoll taken) := .of_same rfl rfl rfl rfl rfl rfl
  cases h with
  | world => cases hown
  | enqueue message => exact .of_idle (idle_enqueue message p)
  | startup => exact .of_idle (.of_same rfl rfl rfl rfl rfl rfl)
  | startupTimeout => exact .of_idle (.of_same rfl rfl rfl rfl rfl rfl)
  | started taken =>
    have hstage (u : MqttPublisher) : Idle u { u with stage := .running } :=
      .of_same rfl rfl rfl rfl rfl rfl
    exact .of_idle (((hpolled taken).trans (idle_onConnack crates _)).trans (hstage _))
  | waited taken => exact .of_idle (.of_same rfl rfl rfl rfl rfl rfl)
  | polled taken event =>
    obtain ⟨u, hu⟩ : ∃ u, u = p.afterPoll (p.takenOff taken event) := ⟨_, rfl⟩
    have hafter : Idle p u := hu ▸ hpolled _
    rw [← hu]
    rcases @onPolled_cases crates now event u with hidle | ⟨_, _, -, hidle⟩
    · exact .of_idle (hafter.trans hidle)
    · have hincoming := @commands_handleIncomingPublish crates now u id tx (hu ▸ hrouted)
      exact ((hincoming _ _).idle hidle).after hafter
  | handled event => cases hown
  | stopped => exact .of_idle (.of_same rfl rfl rfl rfl rfl rfl)

end

end MqttPublisher

end OcppProxy

import OcppProxy.LimitDispatch
import OcppProxy.LimitOrder
import OcppProxy.SessionCommands
import OcppProxy.SessionStatus

/-!
# Limit commands between the publisher and a session

The parties to the limit of one charge point: the publisher with its snapshot, the channel into the
session, the session with its queue, and the events on their way back. Each of them moves at any
time. A link that comes up re-applies what the snapshot says then, while newer limit commands may be
on their way; where none is, no re-apply overrides a newer limit.
-/

namespace OcppProxy

structure Connection where
  cx : SessionContext
  tx : Nat

structure Parties where
  publisher : MqttPublisher
  session : Session
  events : List MqttEvent

inductive PartyEvent where
  /-- An input of the publisher's own. -/
  | publisher (ev : PublisherEvent)
  /-- The publisher takes the next event. -/
  | handle (now : Time)
  | session (ev : Event)
  /-- Another task hands an event over. -/
  | handed (event : MqttEvent)
  /-- A full channel has not taken the `n`th event. -/
  | lose (n : Nat)
  /-- Other tasks changed what they share with the publisher. -/
  | world (router : CommandRouter) (inboxes : Inboxes) (manager : ConnectionStateManager)

def MqttEvent.limitResult? (chargePointId : String) : MqttEvent → Option CommandResult
  | .commandResult id result =>
    if id = chargePointId ∧ result.isLimitResult = true then some result else none
  | _ => none

namespace Parties

def inbox (c : Connection) (x : Parties) : Inbox := x.publisher.inboxes c.tx

def unread (c : Connection) (x : Parties) : List CommandResult :=
  x.events.filterMap (·.limitResult? c.cx.chargePointId)

def held (c : Connection) (x : Parties) : List CommandRequest :=
  x.session.localCalls.held ++ (x.inbox c).queue

def admits (c : Connection) (x : Parties) : Input → Bool
  | .command (some request) | .tryRecv (some request) => (x.inbox c).queue.head? == some request
  | .command none | .tryRecv none => (x.inbox c).queue.isEmpty
  | _ => true

def start (c : Connection) (now : Time) (manager : ConnectionStateManager)
    (publisher : MqttPublisher) (events : List MqttEvent) : Parties :=
  let session := Session.start c.cx now manager
  { publisher := { publisher with inboxes := Function.update publisher.inboxes c.tx {} }
    session
    events := events ++ session.handedSince c.cx.chargePointId 0 }

def step (c : Connection) : Machine Parties PartyEvent := fun x ev =>
  match ev with
  | .publisher ev =>
    if ev.input.isOwn then
      (MqttPublisher.step c.cx.crates x.publisher ev).map fun publisher => { x with publisher }
    else none
  | .handle now =>
    match x.events with
    | [] => none
    | event :: events =>
      (MqttPublisher.step c.cx.crates x.publisher ⟨now, .event (some event)⟩).map fun publisher =>
        { x with publisher, events }
  | .session ev =>
    if x.admits c ev.input then
      (Session.step c.cx x.session ev).map fun session =>
        { publisher := { x.publisher with
            inboxes := Function.update x.publisher.inboxes c.tx
              ((x.inbox c).take ev.requests.length) }
          session
          events := x.events ++ session.handedSince c.cx.chargePointId x.session.log.length }
    else none
  | .handed event => some { x with events := x.events ++ [event] }
  | .lose n => some { x with events := x.events.eraseIdx n }
  | .world router inboxes manager =>
    if router.leadsOnly c.cx.chargePointId c.tx ∧ inboxes c.tx = x.inbox c then
      (MqttPublisher.step c.cx.crates x.publisher ⟨0, .world router inboxes manager⟩).map
        fun publisher => { x with publisher }
    else none

/-- Something of an MQTT limit command is on its way: the request, its Call or its result. -/
def Outstanding (c : Connection) (x : Parties) : Prop :=
  (∃ r ∈ x.held c, r.isMqttLimit = true) ∨ ∃ r ∈ x.unread c, r.source = .mqtt

instance (c : Connection) (x : Parties) : Decidable (x.Outstanding c) := instDecidableOr

/-- A link that comes up puts a Reapply into the channel only while no MQTT limit command is
outstanding, and no limit result of the session is lost or made up. -/
def Undisturbed (c : Connection) (x : Parties) : PartyEvent → Prop
  | .handle _ => ∀ event ∈ x.events.head?,
    (x.publisher.limitReapplied c.cx.chargePointId event).isSome = true →
      x.publisher.leadsTo c.cx.chargePointId c.tx = true → ¬ x.Outstanding c
  | .handed event => event.limitResult? c.cx.chargePointId = none
  | .lose n => ∀ event ∈ x.events[n]?, event.limitResult? c.cx.chargePointId = none
  | _ => True

/-- No re-apply overrides a newer limit: it displaces no MQTT limit command and is sent only with the
newest limit; and when nothing is left and none was given up, the last MQTT limit command was sent
and only re-applies followed it. -/
structure NeverOverrides (c : Connection) (x : Parties) : Prop where
  never : NeverOverridden (x.session.trace Entry.local?)
  rest : (x.inbox c).queue = [] → x.session.localCalls.held = [] →
    (∀ e ∈ x.session.trace Entry.local?, e.losesMqttLimit = false) →
    ∀ r ∈ ((x.inbox c).accepted.filter (·.isMqttLimit)).getLast?, ∃ before prepared after,
      x.session.trace Entry.local? = before ++ .call r prepared :: after ∧
        ∀ request prepared', .call request prepared' ∈ after →
          request.command.isLimitCommand = true → request.source = .reapply

structure Ordered (c : Connection) (x : Parties) : Prop where
  routed : x.publisher.Routed c.cx.chargePointId c.tx
  order : LimitOrder (x.publisher.limitView c.cx.chargePointId c.tx).limit
    (x.publisher.limitView c.cx.chargePointId c.tx).status (x.unread c) (x.inbox c).accepted
    (x.session.localView (x.inbox c).queue)

section
variable {c : Connection} {x y : Parties} {s t : Session} {q : MqttPublisher}
  {events : List MqttEvent} {id : String}

/-! ### The session -/

/-- The limit results a step hands over are those of its local calls. -/
theorem limitResults_of_step {cx : SessionContext} {ev : Event} (h : Session.step cx s ev = some t)
    {new : List Entry} (hnew : t.trace Entry.local? = s.trace Entry.local? ++ new) :
    (t.handedSince id s.log.length).filterMap (·.limitResult? id) =
      new.filterMap Entry.limitResult? := by
  obtain ⟨es, hes, hreports⟩ := Session.reports_of_step h
  have hlocal : es.filterMap (fun e => e.2.local?) = new := by
    rw [Session.trace_append Entry.local? hes] at hnew
    exact List.append_cancel_left hnew
  rw [Session.handedSince, hes, List.drop_left, ← hlocal, List.filterMap_filterMap,
    List.filterMap_filterMap]
  refine List.filterMap_congr fun e he => ?_
  obtain ⟨now, e⟩ := e
  rcases hreports _ he with hplain | ⟨upstream, downstream, rfl⟩
  · cases e with
    | event event => cases event <;> first | rfl | cases hplain
    | _ => simp [Entry.mqttEvent?, Entry.local?, Entry.isLocal, Entry.limitResult?,
        MqttEvent.limitResult?]
  · rfl

theorem requests_prefix_of_admits {ev : Event} (h : x.admits c ev.input = true) :
    ev.requests <+: (x.inbox c).queue := by
  refine Session.requests_prefix fun request hinput => ?_
  rcases hinput with hinput | hinput <;> simpa [admits, hinput] using h

theorem Ordered.session (h : x.Ordered c) {ev : Event} (hadmits : x.admits c ev.input = true)
    (hstep : Session.step c.cx x.session ev = some t) :
    ({ publisher := { x.publisher with
          inboxes := Function.update x.publisher.inboxes c.tx
            ((x.inbox c).take ev.requests.length) }
       session := t
       events := x.events ++ t.handedSince c.cx.chargePointId x.session.log.length } :
      Parties).Ordered c := by
  have hqueue := List.prefix_iff_eq_append.mp (requests_prefix_of_admits hadmits)
  have hsteps := Session.localSteps_of_step hstep ((x.inbox c).queue.drop ev.requests.length)
  rw [hqueue] at hsteps
  obtain ⟨new, hnew, horder⟩ := h.order.steps hsteps
  refine ⟨h.routed, ?_⟩
  rw [← @limitResults_of_step x.session t c.cx.chargePointId c.cx ev hstep new hnew] at horder
  simpa [unread, inbox, MqttPublisher.limitView, MqttPublisher.snapshotOf, Inbox.take] using horder

/-! ### The publisher -/

theorem routed_congr {p : MqttPublisher} {tx : Nat} (h : p.Routed id tx)
    (hrouter : q.commandRouter = p.commandRouter) : q.Routed id tx := by
  intro router hmem
  exact h router (hrouter ▸ hmem)

/-- The publisher changes nothing here, and no limit result is read. -/
theorem Ordered.same (h : x.Ordered c) (hrouter : q.commandRouter = x.publisher.commandRouter)
    (hview : q.limitView c.cx.chargePointId c.tx =
      x.publisher.limitView c.cx.chargePointId c.tx)
    (hunread : unread c ⟨q, x.session, events⟩ = x.unread c) :
    Ordered c ⟨q, x.session, events⟩ := by
  have hinbox : inbox c ⟨q, x.session, events⟩ = x.inbox c := congrArg LimitView.inbox hview
  refine ⟨routed_congr h.routed hrouter, ?_⟩
  rw [hunread, hinbox, hview]
  exact h.order

/-- A request is dispatched, a re-apply only with the newest limit and while no MQTT limit command
waits. -/
theorem Ordered.dispatches (h : x.Ordered c) (hrouter : q.commandRouter = x.publisher.commandRouter)
    {request : CommandRequest} (hdispatches : MqttPublisher.Dispatches c.cx.chargePointId c.tx
      request x.publisher q)
    (hreapply : request.source = .reapply → x.publisher.leadsTo c.cx.chargePointId c.tx = true →
      (∀ r ∈ (x.session.localView (x.inbox c).queue).waiting, r.isMqttLimit = false) ∧
      ∃ limitA, request.command = .setCurrentLimit limitA ∧
        Newest (x.session.trace Entry.local?) (some limitA))
    (hunread : unread c ⟨q, x.session, events⟩ = x.unread c) :
    Ordered c ⟨q, x.session, events⟩ := by
  cases hdispatches with
  | nothing hview => exact h.same hrouter hview hunread
  | refused hne hview =>
    have hinbox : inbox c ⟨q, x.session, events⟩ = x.inbox c := congrArg LimitView.inbox hview
    refine ⟨routed_congr h.routed hrouter, ?_⟩
    rw [hunread, hinbox, hview]
    exact h.order.foldRefusal hne
  | put hleads hview =>
    have hinbox : inbox c ⟨q, x.session, events⟩ = (x.inbox c).put request :=
      congrArg LimitView.inbox hview
    refine ⟨routed_congr h.routed hrouter, ?_⟩
    rw [hunread, hinbox, hview]
    exact h.order.put fun hsource => hreapply hsource hleads

theorem limitReapplied_eq_some {p : MqttPublisher} {event : MqttEvent} {limitA : F64} {tx : Nat}
    (h : p.limitReapplied id event = some limitA) : (p.limitView id tx).limit = some limitA ∧
      (p.limitView id tx).status = some CommandStatus.accepted.asStr := by
  have hlimit : p.limitToReapply id = some limitA := by
    unfold MqttPublisher.limitReapplied at h
    split at h
    · split at h
      · exact h
      · cases h
    · cases h
  have hcharging : p.charging.any (·.reapplyOnConnect) = true := by
    unfold MqttPublisher.limitToReapply at hlimit
    split at hlimit
    · assumption
    · cases hlimit
  rw [MqttPublisher.limitToReapply_eq hcharging] at hlimit
  split at hlimit
  · rename_i hstatus
    exact ⟨hlimit, hstatus⟩
  · cases hlimit

/-- While nothing of an MQTT limit command is outstanding, the limit that stands is the newest. -/
theorem Ordered.newest (h : x.Ordered c) (hnone : ¬ x.Outstanding c)
    (hstatus : (x.publisher.limitView c.cx.chargePointId c.tx).status =
      some CommandStatus.accepted.asStr) :
    (∀ r ∈ (x.session.localView (x.inbox c).queue).waiting, r.isMqttLimit = false) ∧
      Newest (x.session.trace Entry.local?)
        (x.publisher.limitView c.cx.chargePointId c.tx).limit := by
  have hheld (r : CommandRequest) (hr : r ∈ x.held c) : r.isMqttLimit = false := by
    by_contra hmqtt
    exact hnone (.inl ⟨r, hr, by simpa using hmqtt⟩)
  constructor
  · intro r hr
    refine hheld r ?_
    rcases List.mem_append.mp hr with hr | hr
    · exact List.mem_append_left _ (List.mem_append_right _ hr)
    · exact List.mem_append_right _ hr
  · refine h.order.newest (fun f hf => ?_) (fun r hr hsource => hnone (.inr ⟨r, hr, hsource⟩)) hstatus
    refine hheld _ (List.mem_append_left _ (List.mem_append_left _ ?_))
    exact List.mem_map_of_mem (Option.mem_toList.mpr hf)

theorem Ordered.handle (h : x.Ordered c) {now : Time} {event : MqttEvent}
    (hevents : x.events = event :: events)
    (hundisturbed : (x.publisher.limitReapplied c.cx.chargePointId event).isSome = true →
      x.publisher.leadsTo c.cx.chargePointId c.tx = true → ¬ x.Outstanding c) :
    Ordered c ⟨x.publisher.handleEvent c.cx.crates now event, x.session, events⟩ := by
  have hrouter : (x.publisher.handleEvent c.cx.crates now event).commandRouter =
      x.publisher.commandRouter := by
    refine (MqttPublisher.works_handleEvent c.cx.crates now MqttPublisher.nameClass_true
      ?_).commandRouter
    cases event <;> simp [MqttPublisher.NamesIn]
  have hunread (hresult : event.limitResult? c.cx.chargePointId = none) (q : MqttPublisher) :
      unread c ⟨q, x.session, events⟩ = x.unread c := by
    simp [unread, hevents, hresult]
  cases event with
  | messageForwarded id frame direction action =>
    exact h.same hrouter (MqttPublisher.limitView_messageForwarded frame direction action)
      (hunread rfl _)
  | stateChange id upstream downstream =>
    rcases @MqttPublisher.limitView_stateChange c.cx.crates now x.publisher c.cx.chargePointId id
      c.tx h.routed upstream downstream with ⟨limitA, hlimit, hdispatches⟩ | hsame
    · refine h.dispatches hrouter hdispatches (fun _ hleads => ?_) (hunread rfl _)
      obtain ⟨hstanding, hstatus⟩ := @limitReapplied_eq_some _ _ _ _ c.tx hlimit
      obtain ⟨hwaiting, hnewest⟩ := h.newest (hundisturbed (by simp [hlimit]) hleads) hstatus
      exact ⟨hwaiting, limitA, rfl, hstanding ▸ hnewest⟩
    · exact h.same hrouter hsame (hunread rfl _)
  | commandResult id result =>
    have hview := @MqttPublisher.limitView_publishCommandResult c.cx.crates now x.publisher
      c.cx.chargePointId id c.tx result
    by_cases hlimit : c.cx.chargePointId = id ∧ result.isLimitResult = true
    · have hpending : x.unread c = result :: unread c ⟨x.publisher, x.session, events⟩ := by
        simp [unread, hevents, MqttEvent.limitResult?, hlimit]
      have horder := h.order
      rw [hpending] at horder
      rw [if_pos hlimit] at hview
      have hinbox : inbox c ⟨x.publisher.handleEvent c.cx.crates now (.commandResult id result),
          x.session, events⟩ = x.inbox c := congrArg LimitView.inbox hview
      refine ⟨routed_congr h.routed hrouter, ?_⟩
      rw [hinbox]
      exact hview ▸ horder.fold
    · rw [if_neg hlimit] at hview
      refine h.same hrouter hview (hunread ?_ _)
      simp only [MqttEvent.limitResult?, ite_eq_right_iff, reduceCtorEq, imp_false]
      exact fun heq => hlimit ⟨heq.1.symm, heq.2⟩

/-! ### Along a run -/

theorem filterMap_eraseIdx {α β : Type} {f : α → Option β} {l : List α} {n : Nat}
    (h : ∀ a ∈ l[n]?, f a = none) : (l.eraseIdx n).filterMap f = l.filterMap f := by
  induction l generalizing n with
  | nil => rfl
  | cons a l ih =>
    cases n with
    | zero =>
      have ha : f a = none := h a rfl
      simp [ha]
    | succ n => rw [List.eraseIdx_cons_succ, List.filterMap_cons, List.filterMap_cons, ih h]

theorem Ordered.step {ev : PartyEvent} (h : x.Ordered c) (hundisturbed : x.Undisturbed c ev)
    (hstep : step c x ev = some y) : y.Ordered c := by
  cases ev with
  | publisher ev =>
    simp only [Parties.step] at hstep
    split at hstep
    · rename_i hown
      obtain ⟨q, hq, rfl⟩ := Option.map_eq_some_iff.mp hstep
      have hcommands := MqttPublisher.commands_of_stepped (MqttPublisher.stepped_of_step hq) hown
        h.routed
      rcases hcommands.limit with ⟨request, hsource, hdispatches⟩ | hsame
      · refine h.dispatches hcommands.router hdispatches (fun hreapply => ?_) rfl
        cases hsource.symm.trans hreapply
      · exact h.same hcommands.router hsame rfl
    · cases hstep
  | handle now =>
    simp only [Parties.step] at hstep
    split at hstep
    · cases hstep
    · rename_i event events hevents
      obtain ⟨q, hq, rfl⟩ := Option.map_eq_some_iff.mp hstep
      cases MqttPublisher.stepped_of_step hq
      exact h.handle hevents (hundisturbed event (by simp [hevents]))
  | session ev =>
    simp only [Parties.step] at hstep
    split at hstep
    · rename_i hadmits
      obtain ⟨t, ht, rfl⟩ := Option.map_eq_some_iff.mp hstep
      exact h.session hadmits ht
    · cases hstep
  | handed event =>
    cases hstep
    have hnone : event.limitResult? c.cx.chargePointId = none := hundisturbed
    exact h.same rfl rfl (by simp [unread, hnone])
  | lose n =>
    cases hstep
    exact h.same rfl rfl (filterMap_eraseIdx hundisturbed)
  | world router inboxes manager =>
    simp only [Parties.step] at hstep
    split at hstep
    · rename_i hshared
      obtain ⟨q, hq, rfl⟩ := Option.map_eq_some_iff.mp hstep
      cases MqttPublisher.stepped_of_step hq
      refine ⟨fun router' hmem => ?_, ?_⟩
      · obtain ⟨-, -, rfl⟩ := Option.map_eq_some_iff.mp hmem
        exact hshared.1
      · have hinbox : inboxes c.tx = x.publisher.inboxes c.tx := hshared.2
        have horder := h.order
        simp only [inbox, MqttPublisher.limitView] at horder ⊢
        rw [hinbox]
        exact horder
    · cases hstep

theorem ordered_start {publisher : MqttPublisher}
    (hrouted : publisher.Routed c.cx.chargePointId c.tx) (now : Time)
    (manager : ConnectionStateManager) (events : List MqttEvent) :
    (start c now manager publisher events).Ordered c := by
  refine ⟨hrouted, ?_⟩
  have hinbox : (start c now manager publisher events).inbox c = {} := Function.update_self ..
  have hview : (start c now manager publisher events).session.localView
      ((start c now manager publisher events).inbox c).queue =
        ⟨[], .new c.cx.config.charging.commandTimeout commandChannelCapacity, []⟩ := by
    rw [hinbox]
    exact Session.start_localView now manager []
  rw [hview, hinbox]
  refine ⟨.nil, by simp [LocalView.waiting, LocalCallQueue.new], by simp [LocalCallQueue.new],
    fun _ _ _ _ _ _ => .inl rfl, ⟨by simp, by simp⟩, fun _ => rfl⟩

/-- The last Call of an MQTT limit command. -/
theorem split_of_getLast? {entries : List Entry} {r : CommandRequest}
    (h : (entries.filterMap Entry.mqttLimitCall?).getLast? = some r) : ∃ before prepared after,
      entries = before ++ .call r prepared :: after ∧
        after.filterMap Entry.mqttLimitCall? = [] := by
  obtain ⟨init, hinit⟩ := List.getLast?_eq_some_iff.mp h
  obtain ⟨first, second, rfl, -, hsecond⟩ := List.filterMap_eq_append_iff.mp hinit
  obtain ⟨before, e, after, rfl, -, he, hafter⟩ := List.filterMap_eq_cons_iff.mp hsecond
  cases e with
  | call request prepared =>
    obtain ⟨-, rfl⟩ : request.isMqttLimit = true ∧ request = r := by
      simpa [Entry.mqttLimitCall?] using he
    exact ⟨first ++ before, prepared, after, by simp, hafter⟩
  | _ => cases he

theorem Ordered.neverOverrides (h : x.Ordered c) : x.NeverOverrides c := by
  refine ⟨h.order.never, fun hqueue hheld hkept r hr => ?_⟩
  have hlast := h.order.last hkept
  have hwaiting : (x.session.localView (x.inbox c).queue).waiting = [] := by
    have hqueued := (List.append_eq_nil_iff.mp hheld).2
    simp [LocalView.waiting, Session.localView, hqueued, hqueue]
  rw [hwaiting, List.filter_nil, List.getLast?_nil, Option.none_or] at hlast
  obtain ⟨before, prepared, after, hentries, hafter⟩ := split_of_getLast? (hlast.symm.trans hr)
  refine ⟨before, prepared, after, hentries, fun request prepared' hmem hcommand => ?_⟩
  have hnone := List.filterMap_eq_nil_iff.mp hafter _ hmem
  by_contra hsource
  cases hmqtt : request.source with
  | reapply => exact hsource hmqtt
  | mqtt => simp [Entry.mqttLimitCall?, CommandRequest.isMqttLimit, hcommand, hmqtt] at hnone

/-- In every run of a session in which a link that comes up finds no MQTT limit command outstanding
when it puts a Reapply into the channel, and no limit result is lost, no re-apply ever overrides a
newer limit. -/
theorem never_overrides {publisher : MqttPublisher}
    (hrouted : publisher.Routed c.cx.chargePointId c.tx) {now : Time}
    {manager : ConnectionStateManager} {events : List MqttEvent} {evs : List PartyEvent}
    (hrun : (step c).run (start c now manager publisher events) evs = some x)
    (hundisturbed : (step c).Meets (Undisturbed c) (start c now manager publisher events) evs) :
    x.NeverOverrides c := by
  have hordered : x.Ordered c :=
    (step c).invariant_of_meets (fun _ _ _ hC hstep h => h.step hC hstep) hrun hundisturbed
      (ordered_start hrouted now manager events)
  exact hordered.neverOverrides

end

instance (c : Connection) (x : Parties) : ∀ ev, Decidable (x.Undisturbed c ev)
  | .publisher _ | .session _ | .world .. => inferInstanceAs (Decidable True)
  | .handle _ => inferInstanceAs (Decidable (∀ event ∈ x.events.head?, _))
  | .handed event => inferInstanceAs (Decidable (event.limitResult? c.cx.chargePointId = none))
  | .lose n => inferInstanceAs (Decidable (∀ event ∈ x.events[n]?, _))

end Parties

/-! ## Small runs -/

def Entry.sentLimit? : Entry → Option (CommandRequest × Option F64)
  | .call request prepared => some (request, prepared.appliedLimitA)
  | _ => none

/-- A re-apply sent right after an MQTT limit command re-sends its limit. -/
theorem NeverOverridden.limit_resent {entries : List Entry}
    {before after : List (CommandRequest × Option F64)} {first second : CommandRequest × Option F64}
    (h : NeverOverridden entries)
    (hsent : entries.filterMap Entry.sentLimit? = before ++ first :: second :: after)
    (hmqtt : first.1.isMqttLimit = true) (hsource : second.1.source = .reapply) :
    ∃ limitA, second.1.command = .setCurrentLimit limitA ∧ first.2 = some limitA := by
  obtain ⟨l₁, l₂, rfl, -, hsent⟩ := List.filterMap_eq_append_iff.mp hsent
  obtain ⟨l₃, e, l₄, rfl, -, he, hsent⟩ := List.filterMap_eq_cons_iff.mp hsent
  obtain ⟨l₅, e', l₆, rfl, hnone, he', -⟩ := List.filterMap_eq_cons_iff.mp hsent
  obtain ⟨request, prepared, rfl⟩ : ∃ request prepared, e = .call request prepared := by
    cases e <;> first | exact ⟨_, _, rfl⟩ | cases he
  obtain ⟨request', prepared', rfl⟩ : ∃ request prepared, e' = .call request prepared := by
    cases e' <;> first | exact ⟨_, _, rfl⟩ | cases he'
  cases he
  cases he'
  have hmem {l : List Entry} (hl : .call request prepared ∈ l) :
      l.filterMap Entry.mqttLimitCall? ≠ [] := by
    have hcall : request ∈ l.filterMap Entry.mqttLimitCall? :=
      List.mem_filterMap.mpr ⟨_, hl, by simp [Entry.mqttLimitCall?, hmqtt]⟩
    exact List.ne_nil_of_mem hcall
  obtain ⟨limitA, hcommand, hnewest⟩ := h.resent (l₁ ++ l₃ ++ .call request prepared :: l₅) request'
    prepared' l₆ (by simp) hsource
  refine ⟨limitA, hcommand, ?_⟩
  rcases hnewest with hnil | ⟨older, r, p, newer, hsplit, -, hlimit, hnewer⟩
  · exact absurd hnil (hmem (by simp))
  · rcases split_append hsplit with ⟨rest, hrest⟩ | ⟨middle, -, hmiddle⟩
    · -- the MQTT limit command is newer
      rw [hrest, List.append_assoc, List.cons_append] at hsplit
      obtain ⟨-, rfl⟩ := List.cons.inj (List.append_cancel_left hsplit)
      exact absurd hnewer (hmem (by simp))
    · cases middle with
      | nil =>
        obtain ⟨hsame, -⟩ := List.cons.inj hmiddle
        cases hsame
        exact hlimit
      | cons e middle =>
        -- and no other Call lies between the two
        obtain ⟨-, rfl⟩ := List.cons.inj hmiddle
        have hcall := hnone (.call r p) (by simp)
        cases hcall

namespace Parties

def limitSetup (snapshots : SnapshotMap) : PublisherSetup where
  snapshotStore := { enabled := true, file := snapshots }
  commands := some (CommandRouter.empty.register "CP01" 0 0, {})

/-- The charger's acceptance of the second Call, sent two seconds after the start. -/
def secondAcceptance : String × Json :=
  ("[3,\"proxy-2000-2\",\x7b\"status\":\"Accepted\"\x7d]",
    .array [.ofNat 3, .string "proxy-2000-2", .ofFields [("status", .string "Accepted")]])

def firstConnection : Connection := ⟨.ofTable [Session.acceptance, secondAcceptance], 0⟩

def startOfSetup (snapshots : SnapshotMap) : Parties :=
  start firstConnection 0 { downstreamState := .connected } (.build (limitSetup snapshots)) []

def publishedLimit : PartyEvent :=
  .publisher ⟨0, .poll 0 (.publish "ocpp/CP01/command/current_limit" "10".toUTF8)⟩

def limitRequest : CommandRequest := .new 0 "limit-0" (.setCurrentLimit 10) .mqtt

/-- The limit is set and accepted; then the upstream is lost, comes back, and the limit is sent
again. -/
def resentAfterLoss : List PartyEvent :=
  [.publisher ⟨0, .startup⟩, .publisher ⟨0, .poll 0 .connAck⟩, .handle 0,
    .session (.at 1 .connected), .handle 1, publishedLimit,
    .session (.at 1 (.command (some limitRequest))),
    .session (.at 1 (.charger (.text Session.acceptance.1))), .handle 1,
    .session (.at 2 (.central .close)), .handle 2, .session (.at 4 .timer), .handle 4,
    .session (.at 5 .connected), .handle 5,
    .session (.at 6 (.command (some (MqttPublisher.reapplyRequest 5 10))))]

theorem never_overrides_resentAfterLoss :
    ∃ x, (step firstConnection).run (startOfSetup ∅) resentAfterLoss = some x ∧
      x.session.trace Entry.sentLimit? =
        [(limitRequest, some 10), (MqttPublisher.reapplyRequest 5 10, some 10)] ∧
      x.NeverOverrides firstConnection := by
  have hsent : ((step firstConnection).run (startOfSetup ∅) resentAfterLoss).map
      (fun x => x.session.trace Entry.sentLimit?) =
        some [(limitRequest, some 10), (MqttPublisher.reapplyRequest 5 10, some 10)] := by
    decide +kernel
  obtain ⟨x, hrun, hx⟩ := Option.map_eq_some_iff.mp hsent
  refine ⟨x, hrun, hx, never_overrides ?_ hrun (by decide +kernel)⟩
  rintro router hrouter
  obtain rfl : CommandRouter.empty.register "CP01" 0 0 = router := Option.some.inj hrouter
  decide

def standingLimitOnFile : SnapshotMap :=
  (∅ : SnapshotMap).insert "CP01"
    { currentLimitA := some 16, currentLimitStatus := some "accepted" }

/-- The limit of 10 A is dispatched while the upstream is still down; the link-up re-applies the
16 A behind it. -/
def overriddenAtLinkUp : List PartyEvent :=
  [.publisher ⟨0, .startup⟩, .publisher ⟨0, .poll 0 .connAck⟩, .handle 0, publishedLimit,
    .session (.at 1 .connected), .handle 1,
    .session (.at 1 (.command (some limitRequest))),
    .session (.at 1 (.charger (.text Session.acceptance.1))),
    .session (.at 2 (.command (some (MqttPublisher.reapplyRequest 1 16)))),
    .session (.at 2 (.charger (.text secondAcceptance.1)))]

/-- Nothing is left, and the last limit Call sent is the older one's. -/
theorem not_never_overrides :
    ∃ x, (step firstConnection).run (startOfSetup standingLimitOnFile) overriddenAtLinkUp =
        some x ∧
      x.held firstConnection = [] ∧
      ((x.inbox firstConnection).accepted.filter (·.isMqttLimit)).getLast? = some limitRequest ∧
      x.session.trace Entry.sentLimit? =
        [(limitRequest, some 10), (MqttPublisher.reapplyRequest 1 16, some 16)] ∧
      ¬ x.NeverOverrides firstConnection := by
  have hseen : ((step firstConnection).run (startOfSetup standingLimitOnFile)
      overriddenAtLinkUp).map (fun x => (x.held firstConnection,
        ((x.inbox firstConnection).accepted.filter (·.isMqttLimit)).getLast?,
        x.session.trace Entry.sentLimit?)) = some ([], some limitRequest,
          [(limitRequest, some 10), (MqttPublisher.reapplyRequest 1 16, some 16)]) := by
    decide +kernel
  obtain ⟨x, hrun, hx⟩ := Option.map_eq_some_iff.mp hseen
  obtain ⟨hheld, hlast, hsent⟩ := by simpa only [Prod.mk.injEq] using hx
  refine ⟨x, hrun, hheld, hlast, hsent, fun hnever => ?_⟩
  have hlocal : (x.session.trace Entry.local?).filterMap Entry.sentLimit? =
      [] ++ (limitRequest, some 10) :: (MqttPublisher.reapplyRequest 1 16, some 16) :: [] := by
    rw [Session.filterMap_local fun e he => by cases e <;> first | rfl | cases he]
    exact hsent
  obtain ⟨limitA, hcommand, hlimit⟩ := hnever.never.limit_resent hlocal (by decide) rfl
  obtain rfl : limitA = 16 := (ProxyCommand.setCurrentLimit.inj hcommand).symm
  exact absurd hlimit (by decide)

end Parties

end OcppProxy

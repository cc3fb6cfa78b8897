import OcppProxy.Downstream
import OcppProxy.SessionCommands
import OcppProxy.SessionManager

/-!
# Commands and the end of a session

What `dispatch` accepted for a connection is what its session read and what waits in its channel.
The session stops reading at the end of its drain, and the channel lives until `run_session` has
returned: what is accepted in between is lost, and nothing else is.
-/

namespace OcppProxy

namespace Session

section
variable {cx : SessionContext} {s t : Session}

theorem trace_received_of_step {ev : Event} (h : step cx s ev = some t) :
    t.trace Entry.received? = s.trace Entry.received? ++ ev.requests := by
  have hread := LocalSteps.received (localSteps_of_step h [])
  simpa only [localView, List.append_nil, filterMap_local Entry.received?_of_not_isLocal]
    using hread

end

end Session

/-! ## One connection -/

/-- What concerns the commands of one connection: its channel, its stage and its session. -/
structure ConnectionView where
  inbox : Inbox
  task : Option (ConnectionStage × Option Session)

namespace ConnectionView

def session (v : ConnectionView) : Option Session := v.task.bind Prod.snd

def setStage (stage : ConnectionStage) (v : ConnectionView) : ConnectionView :=
  { v with task := v.task.map fun task => (stage, task.2) }

def setSession (session : Session) (v : ConnectionView) : ConnectionView :=
  { v with task := v.task.map fun task => (task.1, some session) }

def received (v : ConnectionView) : List CommandRequest :=
  v.session.elim [] (·.trace Entry.received?)

def hasDrained (v : ConnectionView) : Bool := v.session.any (·.phase.isDrained)

/-- What was accepted and is past reading. -/
def lost (v : ConnectionView) : List CommandRequest :=
  if v.hasDrained then v.inbox.accepted.drop v.received.length else []

end ConnectionView

/-- What a step does to one connection; `accepted` is what it takes into the channel. -/
inductive ConnectionStep (cx : ProxyContext) :
    (accepted : List CommandRequest) → ConnectionView → ConnectionView → Prop
  | idle {v} : ConnectionStep cx [] v v
  | opened {inbox} : ConnectionStep cx [] ⟨inbox, none⟩ ⟨inbox, some (.upgrading, none)⟩
  | moved {inbox stage stage' session} (h : stage'.isEarly = true → stage.isEarly = true) :
      ConnectionStep cx [] ⟨inbox, some (stage, session)⟩ ⟨inbox, some (stage', session)⟩
  /-- The channel is created and registered. -/
  | routed {inbox session} :
      ConnectionStep cx [] ⟨inbox, some (.registered, session)⟩ ⟨{}, some (.routed, session)⟩
  | started {inbox session chargePointId now manager} :
      ConnectionStep cx [] ⟨inbox, some (.announced, session)⟩
        ⟨inbox, some (.running, some (.start (cx.session chargePointId) now manager))⟩
  | stepped {inbox stage session session' chargePointId manager ev}
      (hstep : Session.step (cx.session chargePointId) { session with manager } ev = some session')
      (hreads : ev.requests <+: inbox.queue)
      (hempty : ev.input = .tryRecv none → inbox.queue = [])
      (hmanager : ∀ manager, ev.input ≠ .manager manager) :
      ConnectionStep cx [] ⟨inbox, some (stage, some session)⟩
        ⟨inbox.take ev.requests.length, some (stage, some session')⟩
  /-- `run_session` returns. -/
  | dropped {inbox session} (hended : session.phase = .ended) :
      ConnectionStep cx [] ⟨inbox, some (.running, some session)⟩
        ⟨inbox.close, some (.returned, some session)⟩
  | accepted {inbox task request} (halive : inbox.receiverAlive = true) :
      ConnectionStep cx [request] ⟨inbox, task⟩ ⟨inbox.put request, task⟩

structure ConnectionView.Accounted (v : ConnectionView) : Prop where
  early : ∀ stage session, v.task = some (stage, session) → stage.isEarly = true → session = none
  ended : v.inbox.receiverAlive = false → ∃ session, v.session = some session ∧
    session.phase = .ended
  read : v.received <+: v.inbox.accepted
  waiting : v.inbox.receiverAlive = true → v.inbox.accepted = v.received ++ v.inbox.queue

section
variable {cx : ProxyContext} {accepted : List CommandRequest} {v w : ConnectionView}

/-- A session that has not returned has its receiver. -/
theorem ConnectionView.Accounted.alive {session : Session} (hv : v.Accounted)
    (hsession : v.session = some session) (hphase : session.phase ≠ .ended) :
    v.inbox.receiverAlive = true := by
  by_contra hdead
  obtain ⟨s, hs, hended⟩ := hv.ended (eq_false_of_ne_true hdead)
  rw [Option.some.inj (hsession.symm.trans hs)] at hphase
  exact hphase hended

/-- What a session reads leaves the channel. -/
theorem Inbox.take_queue {inbox : Inbox} {read : List CommandRequest}
    (h : read <+: inbox.queue) : inbox.queue = read ++ (inbox.take read.length).queue := by
  obtain ⟨rest, hrest⟩ := h
  rw [take, ← hrest, List.drop_left]

theorem ConnectionView.Accounted.step (h : ConnectionStep cx accepted v w) (hv : v.Accounted) :
    w.Accounted := by
  cases h with
  | idle => exact hv
  | opened =>
    refine ⟨?_, hv.ended, hv.read, hv.waiting⟩
    rintro stage session ⟨rfl, rfl⟩ -
    rfl
  | moved hstage =>
    refine ⟨?_, hv.ended, hv.read, hv.waiting⟩
    rintro stage session ⟨rfl, rfl⟩ hearly
    exact hv.early _ _ rfl (hstage hearly)
  | @routed inbox session =>
    obtain rfl : session = none := hv.early _ _ rfl rfl
    refine ⟨?_, by simp, by simp [received, ConnectionView.session], by
      simp [received, ConnectionView.session]⟩
    rintro stage session ⟨rfl, rfl⟩ -
    rfl
  | @started inbox session chargePointId now manager =>
    obtain rfl : session = none := hv.early _ _ rfl rfl
    have hreceived : (⟨inbox, some (.running, some (.start (cx.session chargePointId) now
        manager))⟩ : ConnectionView).received = [] :=
      Session.start_trace (cx.session chargePointId) now manager Entry.received? fun _ => rfl
    refine ⟨?_, fun hdead => ?_, ?_, fun halive => ?_⟩
    · rintro stage session ⟨rfl, rfl⟩ hearly
      cases hearly
    · obtain ⟨session, hsession, -⟩ := hv.ended hdead
      cases hsession
    · rw [hreceived]
      exact List.nil_prefix
    · rw [hreceived]
      exact hv.waiting halive
  | @stepped inbox stage session session' chargePointId manager ev hstep hreads hempty hmanager =>
    have halive : inbox.receiverAlive = true :=
      hv.alive rfl (Session.phase_ne_ended_of_step (s := { session with manager }) hstep hmanager)
    have hreceived : session'.trace Entry.received? =
        session.trace Entry.received? ++ ev.requests :=
      Session.trace_received_of_step (s := { session with manager }) hstep
    have hwaiting : inbox.accepted = session.trace Entry.received? ++ inbox.queue :=
      hv.waiting halive
    rw [Inbox.take_queue hreads, ← List.append_assoc, ← hreceived] at hwaiting
    refine ⟨?_, fun hdead => ?_, ?_, fun _ => hwaiting⟩
    · rintro stage s ⟨rfl, rfl⟩ hearly
      cases hv.early _ _ rfl hearly
    · exact absurd (halive.symm.trans hdead) (by simp)
    · exact ⟨_, hwaiting.symm⟩
  | @dropped inbox session hended =>
    refine ⟨?_, fun _ => ⟨session, rfl, hended⟩, hv.read, fun h => by cases h⟩
    rintro stage s ⟨rfl, rfl⟩ hearly
    cases hearly
  | @accepted inbox task request halive =>
    refine ⟨hv.early, fun hdead => ?_, hv.read.trans (List.prefix_append _ _), fun _ => ?_⟩
    · exact absurd (halive.symm.trans hdead) (by simp)
    · have hwaiting : inbox.accepted = _ ++ inbox.queue := hv.waiting halive
      simp only [Inbox.put, hwaiting, List.append_assoc]
      rfl

theorem ConnectionView.lost_of_not_hasDrained (h : v.hasDrained = false) : v.lost = [] := by
  rw [ConnectionView.lost, h]
  rfl

theorem ConnectionView.lost_of_hasDrained (h : v.hasDrained = true) :
    v.lost = v.inbox.accepted.drop v.received.length := by
  rw [ConnectionView.lost, h]
  rfl

/-- A step loses what it accepts past the drain, and nothing else. -/
theorem ConnectionView.Accounted.lost (h : ConnectionStep cx accepted v w) (hv : v.Accounted) :
    w.lost = v.lost ++ if v.hasDrained then accepted else [] := by
  cases h with
  | @routed inbox session =>
    obtain rfl : session = none := hv.early _ _ rfl rfl
    rfl
  | @started inbox session =>
    obtain rfl : session = none := hv.early _ _ rfl rfl
    rfl
  | @stepped inbox stage session session' chargePointId manager ev hstep hreads hempty hmanager =>
    have hw := hv.step (.stepped hstep hreads hempty hmanager)
    rw [ite_self, List.append_nil]
    rcases Session.drained_of_step hstep hmanager with ⟨ht, hcause⟩ | ⟨ht, hs⟩
    · have hrequests : ev.requests = [] := by
        rcases hcause with ⟨-, hev⟩ | ⟨-, hev⟩ <;> simp [Event.requests, hev]
      have hreceived : session'.trace Entry.received? = session.trace Entry.received? := by
        rw [Session.trace_received_of_step (s := { session with manager }) hstep, hrequests,
          List.append_nil]
        rfl
      rw [lost_of_hasDrained (v := ⟨_, some (stage, some session')⟩) ht]
      rcases hcause with ⟨hs, hev⟩ | ⟨hs, hev⟩
      · -- the drain ends: nothing waits, so everything accepted was read
        rw [lost_of_not_hasDrained (v := ⟨inbox, some (stage, some session)⟩)
          (congrArg Phase.isDrained hs)]
        have hne := Session.phase_ne_ended_of_step (s := { session with manager }) hstep hmanager
        have hwaiting := hw.waiting (hv.alive rfl hne)
        simp only [Inbox.take, hempty hev, List.drop_nil, List.append_nil] at hwaiting
        exact List.drop_eq_nil_of_le (congrArg List.length hwaiting).le
      · rw [lost_of_hasDrained (v := ⟨inbox, some (stage, some session)⟩)
          (congrArg Phase.isDrained hs)]
        exact congrArg (inbox.accepted.drop ·.length) hreceived
    · rw [lost_of_not_hasDrained (v := ⟨_, some (stage, some session')⟩) ht,
        lost_of_not_hasDrained (v := ⟨inbox, some (stage, some session)⟩) hs]
  | @accepted inbox task request halive =>
    by_cases hdrained : (⟨inbox, task⟩ : ConnectionView).hasDrained
    · rw [if_pos hdrained, lost_of_hasDrained hdrained,
        lost_of_hasDrained (v := ⟨inbox.put request, task⟩) hdrained]
      exact List.drop_append_of_le_length hv.read.length_le
    · rw [if_neg hdrained, List.append_nil, lost_of_not_hasDrained (eq_false_of_ne_true hdrained)]
      exact lost_of_not_hasDrained (v := ⟨inbox.put request, task⟩) (eq_false_of_ne_true hdrained)
  | idle => simp
  | _ =>
    rw [ite_self, List.append_nil]
    rfl

end

/-! ## All connections -/

namespace DownstreamState

def view (n : Nat) (d : DownstreamState) : ConnectionView :=
  ⟨d.inboxes n, (d.tasks n).map fun task => (task.stage, task.session)⟩

def acceptedBy (n : Nat) (d : DownstreamState) : ProxyEvent → List CommandRequest
  | .dispatch chargePointId request =>
    if (d.commandRouter.find? chargePointId).any (·.tx == n) && (d.inboxes n).receiverAlive &&
        decide ((d.inboxes n).queue.length < commandChannelCapacity) then [request]
    else []
  | _ => []

section
variable {cx : ProxyContext} {d d' : DownstreamState} {ev : ProxyEvent} (n m : Nat)

theorem view_modifyTask (f : ConnectionTask → ConnectionTask) :
    (d.modifyTask m f).view n = if n = m then
      ⟨d.inboxes n, (d.tasks n).map fun task => ((f task).stage, (f task).session)⟩
    else d.view n := by
  unfold view modifyTask
  by_cases h : n = m
  · subst h
    simp [Function.comp_def]
  · simp [h]

theorem view_setStage (stage : ConnectionStage) :
    (d.setStage m stage).view n = if n = m then (d.view n).setStage stage else d.view n := by
  rw [setStage, view_modifyTask, view, ConnectionView.setStage, Option.map_map]
  rfl

theorem view_putSession (chargePointId : String) (logged : Nat) (session : Session) :
    (d.putSession m chargePointId logged session).view n =
      if n = m then (d.view n).setSession session else d.view n := by
  rw [putSession, view_modifyTask]
  simp only [view, ConnectionView.setSession, Option.map_map]
  rfl

/-- A step that replaces the channel of task `m`. -/
theorem view_update (inbox : Inbox) (commandRouter : CommandRouter) :
    ({ d with inboxes := Function.update d.inboxes m inbox, commandRouter } :
      DownstreamState).view n = if n = m then ⟨inbox, (d.view n).task⟩ else d.view n := by
  unfold view
  dsimp only
  split
  · rename_i h
    subst h
    rw [Function.update_self]
  · rename_i h
    rw [Function.update_of_ne h]

theorem view_registerConnection (task : ConnectionTask) :
    (d.registerConnection m task).view n = d.view n := by
  unfold registerConnection
  dsimp only
  split
  · rw [view_modifyTask]
    exact ite_self _
  · rfl

theorem view_deregisterConnection (chargePointId : String) (generation : Nat) :
    (d.deregisterConnection chargePointId generation).2.view n = d.view n := by
  unfold deregisterConnection
  split
  · split <;> rfl
  · rfl

theorem view_of_task {task : ConnectionTask} (htask : d.tasks n = some task) :
    d.view n = ⟨d.inboxes n, some (task.stage, task.session)⟩ := by
  rw [view, htask]
  rfl

theorem connectionStep_advance {now : Time} {task : ConnectionTask} (htask : d.tasks m = some task)
    (h : d.advance cx now m task = some d') : ConnectionStep cx [] (d.view n) (d'.view n) := by
  -- the task moves on while the rest of the step leaves the views alone
  have hmoved {d₁ : DownstreamState} {stage : ConnectionStage} (hview : d₁.view n = d.view n)
      (hearly : stage.isEarly = true → task.stage.isEarly = true) :
      ConnectionStep cx [] (d.view n) ((d₁.setStage m stage).view n) := by
    rw [view_setStage, hview]
    split
    · rename_i hn
      subst hn
      rw [view_of_task n htask]
      exact .moved hearly
    · exact .idle
  unfold advance at h
  split at h <;> rename_i hstage
  · cases h
    rw [view_modifyTask]
    split
    · rename_i hn
      subst hn
      rw [view_of_task n htask, htask]
      exact .moved fun _ => hstage ▸ rfl
    · exact .idle
  · cases h
    exact hmoved (view_registerConnection n m task) fun _ => hstage ▸ rfl
  · cases h
    rw [view_setStage, view_update]
    split
    · rename_i hn
      subst hn
      rw [view_of_task n htask, hstage]
      exact .routed
    · exact .idle
  · cases h
    exact hmoved rfl fun _ => hstage ▸ rfl
  · cases h
    exact hmoved rfl fun _ => hstage ▸ rfl
  · cases h
    rw [view_setStage, view_putSession]
    split
    · rename_i hn
      subst hn
      rw [view_of_task n htask, hstage]
      exact .started
    · exact .idle
  · split at h
    · rename_i hended
      cases h
      obtain ⟨session, hsession, hphase⟩ : ∃ session, task.session = some session ∧
          session.phase = .ended := by simpa [Option.any_eq_true] using hended
      rw [view_setStage, view_update]
      split
      · rename_i hn
        subst hn
        rw [view_of_task n htask, hstage, hsession]
        exact .dropped hphase
      · exact .idle
    · cases h
  · cases h
    exact hmoved rfl (by simp [ConnectionStage.isEarly])
  · cases h
    exact hmoved (view_deregisterConnection n _ _) (by simp [ConnectionStage.isEarly])
  · cases h
    exact hmoved rfl (by simp [ConnectionStage.isEarly])
  · cases h
    exact hmoved rfl (by simp [ConnectionStage.isEarly])
  · cases h
    exact hmoved rfl (by simp [ConnectionStage.isEarly])
  · cases h

theorem requests_prefix_of_admits {task : ConnectionTask} {ev : Event}
    (h : d.admits m task ev.input = true) : ev.requests <+: (d.inboxes m).queue := by
  refine Session.requests_prefix fun request hinput => ?_
  rcases hinput with hinput | hinput <;> simpa [admits, hinput] using h

theorem connectionStep_sessionStep {task : ConnectionTask} {session : Session} {ev : Event}
    (htask : d.tasks m = some task) (hsession : task.session = some session)
    (h : d.sessionStep cx m task session ev = some d') :
    ConnectionStep cx [] (d.view n) (d'.view n) := by
  unfold sessionStep at h
  split at h
  · rename_i hadmits
    obtain ⟨session', hstep, rfl⟩ := Option.map_eq_some_iff.mp h
    rw [view_putSession, view_update]
    split
    · rename_i hn
      subst hn
      rw [view_of_task n htask, hsession]
      refine .stepped hstep ?_ ?_ ?_
      · exact requests_prefix_of_admits n hadmits
      · intro hev
        simpa [admits, hev] using hadmits
      · intro manager hev
        simp [admits, hev] at hadmits
    · exact .idle
  · cases h

theorem connectionStep_dispatch {chargePointId : String} {request : CommandRequest}
    (h : step cx d (.dispatch chargePointId request) = some d') :
    ConnectionStep cx (d.acceptedBy n (.dispatch chargePointId request)) (d.view n) (d'.view n) := by
  simp only [step] at h
  cases hdispatch : d.commandRouter.dispatch d.inboxes chargePointId request with
  | error e =>
    rw [hdispatch] at h
    cases h
    have hnone : d.acceptedBy n (.dispatch chargePointId request) = [] := by
      refine if_neg fun haccepts => ?_
      simp only [Bool.and_eq_true, Option.any_eq_true, beq_iff_eq, decide_eq_true_eq] at haccepts
      obtain ⟨⟨⟨registration, hfind, rfl⟩, halive⟩, hroom⟩ := haccepts
      have hok : d.commandRouter.dispatch d.inboxes chargePointId request = .ok _ :=
        (d.commandRouter.dispatch_eq_ok chargePointId).mpr
          ⟨registration, hfind, halive, hroom, rfl⟩
      cases hdispatch.symm.trans hok
    rw [hnone]
    exact .idle
  | ok inboxes =>
    rw [hdispatch] at h
    cases h
    obtain ⟨registration, hfind, halive, hroom, rfl⟩ :=
      (d.commandRouter.dispatch_eq_ok chargePointId).mp hdispatch
    rw [view_update]
    split
    · rename_i hn
      subst hn
      have hone : d.acceptedBy registration.tx (.dispatch chargePointId request) = [request] := by
        simp [acceptedBy, hfind, halive, hroom]
      rw [hone]
      exact .accepted halive
    · rename_i hn
      have hnone : d.acceptedBy n (.dispatch chargePointId request) = [] := by
        simp [acceptedBy, hfind, Ne.symm hn]
      rw [hnone]
      exact .idle

theorem connectionStep_of_step (hfresh : d.Fresh) (h : step cx d ev = some d') :
    ConnectionStep cx (d.acceptedBy n ev) (d.view n) (d'.view n) := by
  cases ev with
  | upgrade chargePointId protocolHeader =>
    cases h
    unfold wsUpgradeHandler
    split
    · by_cases hn : n = d.opened
      · subst hn
        simp only [view, Function.update_self, hfresh d.opened le_rfl, Option.map_some,
          Option.map_none]
        exact .opened
      · simp only [view, Function.update_of_ne hn]
        exact .idle
    · exact .idle
  | abandon m =>
    obtain ⟨task, htask, h⟩ := Option.bind_eq_some_iff.mp h
    split at h
    · cases h
      rw [view_setStage]
      split
      · rename_i hn
        subst hn
        rw [view_of_task n htask]
        exact .moved fun hearly => by cases hearly
      · exact .idle
    · cases h
  | advance m now =>
    obtain ⟨task, htask, h⟩ := Option.bind_eq_some_iff.mp h
    exact connectionStep_advance n m htask h
  | session m ev =>
    obtain ⟨task, htask, h⟩ := Option.bind_eq_some_iff.mp h
    obtain ⟨session, hsession, h⟩ := Option.bind_eq_some_iff.mp h
    exact connectionStep_sessionStep n m htask hsession h
  | dispatch chargePointId request => exact connectionStep_dispatch n h
  | shutdown =>
    cases h
    exact .idle

end

/-! ## Whole runs -/

section
variable {cx : ProxyContext} {manager : ConnectionStateManager} {d : DownstreamState}
  {events : List ProxyEvent}

theorem fresh_new (manager : ConnectionStateManager) : (new manager).Fresh := fun _ _ => rfl

theorem accounted_new (manager : ConnectionStateManager) (n : Nat) :
    ((new manager).view n).Accounted :=
  ⟨by simp [view, new], by simp [view, new], by simp [view, new, ConnectionView.received,
    ConnectionView.session], by simp [view, new, ConnectionView.received, ConnectionView.session]⟩

/-- Every reachable state accounts for every connection, and what a run loses of one connection
is what was put into its channel past the drain. -/
theorem accounted_of_run (h : (step cx).run (new manager) events = some d) (n : Nat) :
    (d.view n).Accounted ∧ (d.view n).lost = (step cx).outputs
      (fun d ev => if (d.view n).hasDrained then d.acceptedBy n ev else []) (new manager) events := by
  have hinvariant : ∀ d ev d', step cx d ev = some d' →
      d.Fresh ∧ (d.view n).Accounted → d'.Fresh ∧ (d'.view n).Accounted := by
    rintro d ev d' hstep ⟨hfresh, haccounted⟩
    exact ⟨hfresh.step hstep, haccounted.step (connectionStep_of_step n hfresh hstep)⟩
  have hnew : (new manager).Fresh ∧ ((new manager).view n).Accounted :=
    ⟨fresh_new manager, accounted_new manager n⟩
  refine ⟨((step cx).invariant hinvariant h hnew).2, ?_⟩
  refine (step cx).outputs_eq (C := fun d _ => d.Fresh ∧ (d.view n).Accounted) _
    (g := fun d => (d.view n).lost) ?_ h ((step cx).meets_of_invariant
      (fun d ev d' _ => hinvariant d ev d') ((step cx).meets_true _ events) hnew)
  rintro d ev d' ⟨hfresh, haccounted⟩ hstep
  exact haccounted.lost (connectionStep_of_step n hfresh hstep)

/-- No request is put into the channel of a session that has finished its `try_recv` drain. -/
def DispatchesInTime (n : Nat) (d : DownstreamState) (ev : ProxyEvent) : Prop :=
  (d.view n).hasDrained = true → d.acceptedBy n ev = []

instance (n : Nat) (d : DownstreamState) (ev : ProxyEvent) :
    Decidable (DispatchesInTime n d ev) :=
  inferInstanceAs (Decidable (_ → _))

/-- What was accepted for a connection was read by its session or waits in its channel, and once
the receiver is dropped everything accepted was read if and only if every dispatch of the run came
before the end of the drain. -/
theorem accepted_received_iff (h : (step cx).run (new manager) events = some d) (n : Nat) :
    ((d.inboxes n).receiverAlive = true →
      (d.inboxes n).accepted = (d.view n).received ++ (d.inboxes n).queue) ∧
    ((d.inboxes n).receiverAlive = false → ((d.inboxes n).accepted = (d.view n).received ↔
      (step cx).Meets (DispatchesInTime n) (new manager) events)) := by
  obtain ⟨haccounted, hlost⟩ := accounted_of_run h n
  refine ⟨haccounted.waiting, fun hdead => ?_⟩
  obtain ⟨session, hsession, hended⟩ := haccounted.ended hdead
  have hdrained : (d.view n).hasDrained = true := by
    simp [ConnectionView.hasDrained, hsession, hended, Phase.isDrained]
  obtain ⟨rest, hrest⟩ := haccounted.read
  have hrest : (d.view n).received ++ rest = (d.inboxes n).accepted := hrest
  -- what was accepted after the drain is what was not read
  have hread : (d.inboxes n).accepted = (d.view n).received ↔ (d.view n).lost = [] := by
    rw [ConnectionView.lost_of_hasDrained hdrained, ← hrest]
    change _ ↔ (d.inboxes n).accepted.drop _ = []
    rw [← hrest, List.drop_left]
    simp
  rw [hread, hlost, (step cx).outputs_eq_nil_iff _ h]
  exact ⟨Machine.Meets.mono fun d ev hnil hd => by rwa [if_pos hd] at hnil,
    Machine.Meets.mono fun d ev hin => by
      split
      · exact hin ‹_›
      · rfl⟩

end

/-! ### A dispatch in the teardown window -/

/-- A charger of `CP01` that connects and hangs up, up to the end of the drain. -/
def hungUp : List ProxyEvent :=
  [.upgrade "CP01" (some "ocpp1.6")] ++ List.replicate 6 (.advance 0 0) ++
    [.session 0 (.at 1 .connected), .session 0 (.at 2 (.charger .close)),
      .session 0 (.at 2 (.tryRecv none))]

/-- A limit for `CP01` that is dispatched before the charger hangs up and read by the drain. -/
def dispatchedInTime : List ProxyEvent :=
  let request : CommandRequest := .new 0 "a" (.setCurrentLimit 10) .mqtt
  [.upgrade "CP01" (some "ocpp1.6")] ++ List.replicate 6 (.advance 0 0) ++
    [.session 0 (.at 1 .connected), .session 0 (.at 2 (.charger .close)),
      .dispatch "CP01" request, .session 0 (.at 2 (.tryRecv (some request))),
      .session 0 (.at 2 (.tryRecv none)), .session 0 (.at 3 .closed), .advance 0 3]

def runOfDefaults (events : List ProxyEvent) : Option DownstreamState :=
  (step { crates := .ofTable [], sessionConfig := {} }).run (new {}) events

theorem accepted_received_iff_inTime : ∃ d, runOfDefaults dispatchedInTime = some d ∧
    (d.inboxes 0).accepted = (d.view 0).received ∧ (d.view 0).received.length = 1 := by
  have hrun : ((runOfDefaults dispatchedInTime).map fun d =>
      ((d.inboxes 0).receiverAlive, (d.view 0).received.length)) = some (false, 1) := by
    decide +kernel
  obtain ⟨d, hd, hvalues⟩ := Option.map_eq_some_iff.mp hrun
  obtain ⟨hdead, hlength⟩ := Prod.mk.inj hvalues
  exact ⟨d, hd, ((accepted_received_iff hd 0).2 hdead).mpr (by decide +kernel), hlength⟩

/-- A limit dispatched between the drain and the drop of the receiver is accepted and never
read. -/
theorem not_accepted_received_window : ∃ d, runOfDefaults (hungUp ++
      [.dispatch "CP01" (.new 0 "a" (.setCurrentLimit 10) .mqtt), .session 0 (.at 3 .closed),
        .advance 0 3]) = some d ∧
    (d.inboxes 0).receiverAlive = false ∧ (d.inboxes 0).accepted ≠ (d.view 0).received := by
  have hrun : ((runOfDefaults (hungUp ++
      [.dispatch "CP01" (.new 0 "a" (.setCurrentLimit 10) .mqtt), .session 0 (.at 3 .closed),
        .advance 0 3])).map fun d => ((d.inboxes 0).receiverAlive,
          decide ((d.inboxes 0).accepted = (d.view 0).received))) = some (false, false) := by
    decide +kernel
  obtain ⟨d, hd, hvalues⟩ := Option.map_eq_some_iff.mp hrun
  obtain ⟨hdead, hread⟩ := Prod.mk.inj hvalues
  exact ⟨d, hd, hdead, of_decide_eq_false hread⟩

end DownstreamState

end OcppProxy

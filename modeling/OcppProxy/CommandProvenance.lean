import OcppProxy.AcceptedLimits
import OcppProxy.FrameFates
import OcppProxy.OwnMessages

/-!
# Where the proxy's Calls come from

A session sends no Call but those of requests it has read, and reads no request but those of its
channel. So each Call a charger gets was asked for on that charger's command topic, or re-applies a
limit of that charger; with commands disabled there is none.
-/

namespace OcppProxy

/-- The Calls of the log are those of requests that were read. -/
def LocalView.Called (cx : SessionContext) (v : LocalView) : Prop :=
  ∀ request prepared, .call request prepared ∈ v.entries →
    request ∈ v.entries.filterMap Entry.received? ∧ ∃ uniqueId now,
      prepareCall cx.crates cx.config.charging request uniqueId now = .ok prepared

theorem LocalView.Called.step {cx : SessionContext} {requests : List CommandRequest}
    {v w : LocalView} (h : LocalStep cx v w) (hv : v.Called cx)
    (haccounted : v.Accounted cx requests) : w.Called cx := by
  have hkept {new : List Entry} {w : LocalView} (hentries : w.entries = v.entries ++ new)
      (hnew : ∀ request prepared, .call request prepared ∉ new) : w.Called cx := by
    intro request prepared hmem
    rw [hentries] at hmem ⊢
    obtain ⟨hreceived, hprepared⟩ := hv request prepared
      ((List.mem_append.mp hmem).resolve_right (hnew request prepared))
    rw [List.filterMap_append]
    exact ⟨List.mem_append_left _ hreceived, hprepared⟩
  cases h with
  | receive => exact hkept rfl (by simp)
  | drop => exact hkept rfl (by simp)
  | renumber => exact hkept (List.append_nil _).symm (by simp)
  | settle => exact hkept rfl (by simp)
  | late => exact hkept rfl (by simp)
  | @send inbox q es request rest uniqueId prepared now hidle hq hp =>
    intro request' prepared' hmem
    rw [List.filterMap_append]
    rcases List.mem_append.mp hmem with hmem | hmem
    · obtain ⟨hreceived, hprepared⟩ := hv request' prepared' hmem
      exact ⟨List.mem_append_left _ hreceived, hprepared⟩
    · obtain ⟨rfl, rfl⟩ := Entry.call.inj (List.mem_singleton.mp hmem)
      -- what is queued was read and has no result yet
      have hheld : request' ∈ q.held := by simp [LocalCallQueue.held, hq]
      exact ⟨List.mem_append_left _ (haccounted.answered.mem_iff.mpr
        (List.mem_append_right _ hheld)), uniqueId, now, hp⟩

theorem LocalSteps.called {cx : SessionContext} {requests : List CommandRequest} {v w : LocalView}
    (h : LocalSteps cx v w) (hv : v.Called cx) (haccounted : v.Accounted cx requests) :
    w.Called cx ∧ w.Accounted cx requests := by
  induction h with
  | refl => exact ⟨hv, haccounted⟩
  | tail _ hmove ih => exact ⟨ih.1.step hmove ih.2, ih.2.step hmove⟩

structure Session.Commanded (cx : SessionContext) (s : Session) : Prop where
  accounted : (s.localView []).Accounted cx (s.trace Entry.received?)
  called : (s.localView []).Called cx
  drained : s.Drained

namespace Session

section
variable {cx : SessionContext} {s t : Session} {ev : Event}

theorem commanded_start (now : Time) (manager : ConnectionStateManager) :
    (start cx now manager).Commanded cx where
  accounted := by
    have hreceived : (start cx now manager).trace Entry.received? = [] :=
      start_trace cx now manager _ fun _ => rfl
    rw [hreceived]
    exact start_accounted now manager []
  called := by
    rw [start_localView]
    intro request prepared hmem
    cases hmem
  drained := start_drained now manager

theorem Commanded.step (h : s.Commanded cx) (hstep : Session.step cx s ev = some t) :
    t.Commanded cx := by
  have hsteps := localSteps_of_step hstep []
  rw [List.append_nil] at hsteps
  have hread : (s.localView ev.requests).Accounted cx (t.trace Entry.received?) := by
    have hs := h.accounted
    rw [trace_received_of_step hstep, ← filterMap_local Entry.received?_of_not_isLocal s]
    exact ⟨hs.timeout, rfl, hs.answered, hs.isFor, hs.settlement, hs.slot⟩
  obtain ⟨hcalled, haccounted⟩ := hsteps.called h.called hread
  exact ⟨haccounted, hcalled, (frameStep_of_step hstep []).drained h.drained⟩

/-- Who has read nothing has sent, answered and kept back nothing. -/
theorem Commanded.idle (h : s.Commanded cx) (hnone : s.trace Entry.received? = []) :
    s.localCalls.held = [] ∧ s.trace Entry.local? = [] := by
  have hreceived : (s.localView []).entries.filterMap Entry.received? = [] :=
    (filterMap_local Entry.received?_of_not_isLocal s).trans hnone
  have hnil := h.accounted.answered
  rw [hreceived] at hnil
  obtain ⟨hanswers, hheld⟩ := List.append_eq_nil_iff.mp hnil.nil_eq.symm
  refine ⟨hheld, List.eq_nil_iff_forall_not_mem.mpr fun e he => ?_⟩
  have hlocal : e.isLocal = true := by
    obtain ⟨entry, -, he⟩ := List.mem_filterMap.mp he
    unfold Entry.local? at he
    split at he
    · cases he
      assumption
    · cases he
  have hanswer (a : CommandRequest × CommandResult) : e.answer? ≠ some a := by
    intro ha
    have hmem : a ∈ (s.localView []).entries.filterMap Entry.answer? :=
      List.mem_filterMap.mpr ⟨e, he, ha⟩
    rw [List.map_eq_nil_iff.mp hanswers] at hmem
    cases hmem
  cases e with
  | received request =>
    have hmem : request ∈ (s.localView []).entries.filterMap Entry.received? :=
      List.mem_filterMap.mpr ⟨_, he, rfl⟩
    rw [hreceived] at hmem
    cases hmem
  | call request prepared =>
    have hmem := (h.called request prepared he).1
    rw [hreceived] at hmem
    cases hmem
  | displaced _ request result => exact hanswer _ rfl
  | refused request result => exact hanswer _ rfl
  | settled f result => exact hanswer _ rfl
  | _ => cases hlocal

/-- No answer is taken from the charger while no Call is in flight. -/
theorem consumed_of_idle (hmove : FrameMove cx ev s t) (hidle : s.localCalls.inFlight = none) :
    t.trace Entry.consumed? = s.trace Entry.consumed? := by
  have hframes {l : List Entry} (h : t.frames = s.frames ++ l)
      (hl : l.filterMap Entry.consumed? = []) :
      t.trace Entry.consumed? = s.trace Entry.consumed? := by
    have hconsumed (e : Entry) (he : e.isFrame = false) : e.consumed? = none := by
      cases e <;> first | rfl | cases he
    rw [← filterMap_frames hconsumed t, ← filterMap_frames hconsumed s, h, List.filterMap_append,
      hl, List.append_nil]
  cases hmove with
  | none h => exact hframes (l := []) (by rw [h, List.append_nil]) rfl
  | lost h => exact hframes h rfl
  | consumed hflight => rw [hidle] at hflight; cases hflight
  | sent _ h => exact hframes h rfl
  | kept _ h => exact hframes h rfl
  | replayed h =>
    exact hframes h (by simp [List.filterMap_map, Function.comp_def, Entry.consumed?])
  | delivered _ h => exact hframes h rfl
  | undelivered _ _ h => exact hframes h rfl

structure Relays (cx : SessionContext) (s : Session) : Prop where
  commanded : s.Commanded cx
  frames : ∃ lost, s.FramesKept lost
  unread : s.trace Entry.received? = [] → s.trace Entry.consumed? = []

theorem relays_start (now : Time) (manager : ConnectionStateManager) :
    (start cx now manager).Relays cx where
  commanded := commanded_start now manager
  frames := ⟨[], framesKept_start now manager⟩
  unread _ := start_trace cx now manager _ fun _ => rfl

theorem Relays.step (h : s.Relays cx) (hstep : Session.step cx s ev = some t) : t.Relays cx := by
  obtain ⟨lost, hlost⟩ := h.frames
  refine ⟨h.commanded.step hstep, ⟨_, hlost.step hstep⟩, fun hnone => ?_⟩
  rw [trace_received_of_step hstep] at hnone
  have hunread := (List.append_eq_nil_iff.mp hnone).1
  have hheld := (h.commanded.idle hunread).1
  have hidle : s.localCalls.inFlight = none := by
    unfold LocalCallQueue.held at hheld
    simpa using (List.append_eq_nil_iff.mp hheld).1
  rw [consumed_of_idle (frameMove_of_step hstep hlost.replayed) hidle]
  exact h.unread hunread

end

end Session

namespace DownstreamState

def Commanded (cx : ProxyContext) (d : DownstreamState) : Prop :=
  ∀ n id s, d.sessionOf n = some (id, s) → s.Commanded (cx.session id)

section
variable {cx : ProxyContext} {d d' : DownstreamState} {sent : List (String × CommandRequest)}

/-- A property that a session starts with and keeps. -/
theorem forall_sessions_of_move {P : String → Session → Prop} (hd : d.Routed)
    (hmove : DownstreamMove cx d d' sent)
    (hstart : ∀ id now manager, P id (.start (cx.session id) now manager))
    (hstep : ∀ id s t manager ev, P id s →
      Session.step (cx.session id) { s with manager } ev = some t → P id t)
    (h : ∀ n id s, d.sessionOf n = some (id, s) → P id s) :
    ∀ n id s, d'.sessionOf n = some (id, s) → P id s := by
  have hupdate {d' : DownstreamState} {m : Nat} {id : String} {t : Session}
      (hsessions : d'.sessionOf = Function.update d.sessionOf m (some (id, t))) (ht : P id t) :
      ∀ n id s, d'.sessionOf n = some (id, s) → P id s := by
    intro n id' s hs
    rw [hsessions] at hs
    by_cases hn : n = m
    · subst hn
      rw [Function.update_self] at hs
      cases hs
      exact ht
    · rw [Function.update_of_ne hn] at hs
      exact h n id' s hs
  cases hmove with
  | task _ hd' =>
    cases sessionMove_of_step hd.fresh hd.accounted hd' with
    | idle hsessions => rwa [hsessions]
    | started _ hsessions => exact hupdate hsessions (hstart _ _ _)
    | stepped _ hsession hs hsessions =>
      exact hupdate hsessions (hstep _ _ _ _ _ (h _ _ _ hsession) hs)
  | shutdown hd' => subst hd'; exact h
  | manager _ hd' => subst hd'; exact h
  | dispatched _ _ hd' => subst hd'; exact h

theorem Commanded.move (h : d.Commanded cx) (hd : d.Routed) (hmove : DownstreamMove cx d d' sent) :
    d'.Commanded cx :=
  forall_sessions_of_move (P := fun id s => s.Commanded (cx.session id)) hd hmove
    (fun _ now manager => Session.commanded_start now manager)
    (fun _ s _ manager _ hs hstep => Session.Commanded.step (s := { s with manager })
      ⟨hs.accounted, hs.called, hs.drained⟩ hstep) h

/-- What a session has read was put into its connection's channel. -/
theorem Routed.mem_acceptedFor (hd : d.Routed) {n : Nat} {id : String} {s : Session}
    (hs : d.sessionOf n = some (id, s)) {request : CommandRequest}
    (hread : request ∈ s.trace Entry.received?) : (id, request) ∈ d.acceptedFor n := by
  obtain ⟨task, htask, hsession⟩ := Option.bind_eq_some_iff.mp hs
  obtain ⟨s', hs', hpair⟩ := Option.map_eq_some_iff.mp hsession
  obtain ⟨rfl, rfl⟩ := Prod.mk.inj hpair
  have hprefix := (hd.accounted n).read
  rw [view_of_task n htask] at hprefix
  have hmem : request ∈ (d.inboxes n).accepted := hprefix.subset (by
    simpa [ConnectionView.received, ConnectionView.session, hs'] using hread)
  rw [acceptedFor, htask]
  exact List.mem_map_of_mem hmem

end

end DownstreamState

namespace Process

section
variable {cx : ProxyContext} {config : ProxyConfig} {file : SnapshotMap}
  {events : List ProcessEvent} {x y : Process} {ev : ProcessEvent}

theorem commanded_of_run (hrun : (step cx).run (start config file) events = some x) :
    x.Delivered ∧ x.downstream.Commanded cx := by
  refine (step cx).invariant (P := fun x => x.Delivered ∧ x.downstream.Commanded cx) ?_ hrun
    ⟨delivered_start, by simp [DownstreamState.Commanded, start, DownstreamState.new,
      DownstreamState.sessionOf]⟩
  rintro x ev y hstep ⟨hdelivered, hcommanded⟩
  obtain ⟨sent, hmove, -⟩ := downstreamMove_of_moved (moved_of_step hstep).2
  exact ⟨hdelivered.step hstep, hcommanded.move hdelivered.routed hmove⟩

theorem sent_start : (start config file).sent = [] := by
  have hlog : (MqttPublisher.build (config.publisherSetup file)).log = [] :=
    (MqttPublisher.build_fields _).2.1
  simp [sent, start, MqttPublisher.commandLog, hlog]

/-- What was handed on was handed on by a step that had cause to. -/
theorem caused_of_sent (hrun : (step cx).run (start config file) events = some x) {id : String}
    {request : CommandRequest} (hmem : (id, request) ∈ x.sent) : ∃ before ev after u,
      events = before ++ ev :: after ∧ (step cx).run (start config file) before = some u ∧
        u.Causes cx ev id request := by
  obtain ⟨before, ev, after, u, v, hevents, hbefore, hstep, hu, hv⟩ :=
    (step cx).exists_step_of_became (P := fun x => (id, request) ∈ x.sent) hrun
      (by simp [sent_start]) hmem
  obtain ⟨sent, -, hsent, hcause⟩ := downstreamMove_of_moved (moved_of_step hstep).2
  rw [hsent] at hv
  exact ⟨before, ev, after, u, hevents, hbefore,
    hcause id request ((List.mem_append.mp hv).resolve_left hu)⟩

/-- In every run each Call that a session sends its charger was prepared from a request which, at
an earlier step, was published on a command topic of that very charge point, or re-applies the limit
its snapshot showed as accepted when both its links came up. -/
theorem calls_caused (hrun : (step cx).run (start config file) events = some x) {n : Nat}
    {id : String} {s : Session} (hs : x.downstream.sessionOf n = some (id, s))
    {request : CommandRequest} {prepared : PreparedCall}
    (hcall : .call request prepared ∈ s.trace Entry.local?) :
    (∃ uniqueId now, prepareCall cx.crates cx.sessionConfig.charging request uniqueId now =
        .ok prepared) ∧
      ∃ before ev after u, events = before ++ ev :: after ∧
        (step cx).run (start config file) before = some u ∧ u.Causes cx ev id request := by
  obtain ⟨hdelivered, hcommanded⟩ := commanded_of_run hrun
  obtain ⟨hread, hprepared⟩ := (hcommanded n id s hs).called request prepared hcall
  have hread : request ∈ s.trace Entry.received? := by
    rwa [← Session.filterMap_local Entry.received?_of_not_isLocal s]
  exact ⟨hprepared, caused_of_sent hrun
    (hdelivered.accounts.mem (hdelivered.routed.mem_acceptedFor hs hread))⟩

theorem commandedEvents_call :
    ((step commandedContext).run (start commandedConfig ∅) commandedEvents).bind (fun x =>
      (x.downstream.sessionOf 0).map fun s =>
        (s.1, (s.2.trace Entry.call?).map (·.appliedLimitA))) = some ("CP01", [some 10]) := by
  decide +kernel

/-- The Call that the published limit becomes. -/
theorem commandedEvents_sends : ∃ x s request prepared,
    (step commandedContext).run (start commandedConfig ∅) commandedEvents = some x ∧
      x.downstream.sessionOf 0 = some ("CP01", s) ∧
      .call request prepared ∈ s.trace Entry.local? ∧ prepared.appliedLimitA = some 10 := by
  obtain ⟨x, hrun, hx⟩ := Option.bind_eq_some_iff.mp commandedEvents_call
  obtain ⟨⟨id, s⟩, hs, hcalls⟩ := Option.map_eq_some_iff.mp hx
  obtain ⟨rfl, hlimits⟩ := Prod.mk.inj hcalls
  obtain ⟨prepared, hprepared, hlimit⟩ := List.mem_map.mp (hlimits ▸ List.mem_singleton_self _)
  rw [← Session.filterMap_local fun e he => by cases e <;> first | rfl | cases he] at hprepared
  obtain ⟨e, he, hcall⟩ := List.mem_filterMap.mp hprepared
  cases e with
  | call request prepared' =>
    cases hcall
    exact ⟨x, s, request, prepared, hrun, hs, he, hlimit⟩
  | _ => cases hcall

theorem calls_caused_commanded : ∃ x s request prepared,
    (step commandedContext).run (start commandedConfig ∅) commandedEvents = some x ∧
      x.downstream.sessionOf 0 = some ("CP01", s) ∧
      .call request prepared ∈ s.trace Entry.local? ∧ prepared.appliedLimitA = some 10 ∧
      ∃ before ev after u, commandedEvents = before ++ ev :: after ∧
        (step commandedContext).run (start commandedConfig ∅) before = some u ∧
        u.Causes commandedContext ev "CP01" request := by
  obtain ⟨x, s, request, prepared, hrun, hs, hcall, hlimit⟩ := commandedEvents_sends
  exact ⟨x, s, request, prepared, hrun, hs, hcall, hlimit, (calls_caused hrun hs hcall).2⟩

theorem relays_of_run (hrun : (step cx).run (start config file) events = some x) {n : Nat}
    {id : String} {s : Session} (hs : x.downstream.sessionOf n = some (id, s)) :
    s.Relays (cx.session id) := by
  have hkept : x.Delivered ∧ ∀ n id s, x.downstream.sessionOf n = some (id, s) →
      s.Relays (cx.session id) := by
    refine (step cx).invariant (P := fun x => x.Delivered ∧ ∀ n id s,
      x.downstream.sessionOf n = some (id, s) → s.Relays (cx.session id)) ?_ hrun
      ⟨delivered_start, by simp [start, DownstreamState.new, DownstreamState.sessionOf]⟩
    rintro x ev y hstep ⟨hdelivered, hrelays⟩
    obtain ⟨sent, hmove, -⟩ := downstreamMove_of_moved (moved_of_step hstep).2
    refine ⟨hdelivered.step hstep, DownstreamState.forall_sessions_of_move
      (P := fun id s => s.Relays (cx.session id)) hdelivered.routed hmove
      (fun _ now manager => Session.relays_start now manager) ?_ hrelays⟩
    rintro id s t manager ev ⟨hcommanded, hframes, hunread⟩ hstep
    refine Session.Relays.step (s := { s with manager }) ⟨?_, ?_, hunread⟩ hstep
    · exact ⟨hcommanded.accounted, hcommanded.called, hcommanded.drained⟩
    · obtain ⟨lost, hlost⟩ := hframes
      exact ⟨lost, hlost.replayed, hlost.fates, hlost.upward, hlost.downward, hlost.notEvicted⟩
  exact hkept.2 n id s hs

/-- With commands disabled no request is handed on and nothing is subscribed to, and every session
of every run is a relay: it sends no Call and takes no answer, the Central System gets a subsequence
of what the charger sent, and the charger gets what the Central System sent, all but perhaps the last
text of a session that is ending. -/
theorem transparent_of_disabled (hdisabled : config.chargingEnabled = false)
    (hrun : (step cx).run (start config file) events = some x) :
    x.sent = [] ∧ (∀ filters, .subscribe filters ∉ x.publisher.client.requests) ∧
      ∀ n id s, x.downstream.sessionOf n = some (id, s) →
        s.trace Entry.local? = [] ∧ s.trace Entry.consumed? = [] ∧
        (s.trace Entry.toCentral? ++ s.buffered).Sublist (s.trace Entry.readCharger?) ∧
        ∃ missed, s.trace Entry.readCentral? = s.trace Entry.toCharger? ++ missed ∧
          missed.length ≤ 1 ∧ (s.phase.isEnding = false → missed = []) := by
  have hsent : x.sent = [] := by
    refine List.eq_nil_iff_forall_not_mem.mpr fun e he => ?_
    -- whatever causes a request needs a router, which only `with_command_router` brings
    obtain ⟨before, ev, after, u, -, hbefore, henabled, -⟩ := caused_of_sent hrun he
    rw [isSome_commandRouter_of_run hbefore, hdisabled] at henabled
    cases henabled
  refine ⟨hsent, fun filters hmem => ?_, fun n id s hs => ?_⟩
  · have hrequest := (own_messages_of_run hrun).2 _ hmem
    rw [hdisabled] at hrequest
    exact absurd hrequest.1 Bool.false_ne_true
  · obtain ⟨hdelivered, -⟩ := commanded_of_run hrun
    have hrelays := relays_of_run hrun hs
    -- a session can read only what was handed on
    have hunread : s.trace Entry.received? = [] := by
      refine List.eq_nil_iff_forall_not_mem.mpr fun request hread => ?_
      have hmem := hdelivered.accounts.mem (hdelivered.routed.mem_acceptedFor hs hread)
      rw [hsent] at hmem
      cases hmem
    obtain ⟨lost, hlost⟩ := hrelays.frames
    exact ⟨(hrelays.commanded.idle hunread).2, hrelays.unread hunread,
      hlost.traces.2.1, hlost.traces.2.2.1⟩

end

def relayConfig : ProxyConfig := { commandedConfig with chargingEnabled := false }

def relayEvents : List ProcessEvent :=
  [.bind, .publisher ⟨0, .startup⟩, .publisher ⟨0, .poll 0 .connAck⟩,
    .task (.upgrade "CP01" (some "ocpp1.6"))] ++
  List.replicate 6 (.task (.advance 0 0)) ++
  [.task (.session 0 (.at 1 .connected)),
    .publisher ⟨0, .poll 0 (.publish "ocpp/CP01/command/current_limit" "10".toUTF8)⟩,
    .task (.session 0 (.at 1 (.charger (.text Session.acceptance.1))))]

theorem relayEvents_sent :
    ((step commandedContext).run (start relayConfig ∅) relayEvents).bind (fun x =>
      (x.downstream.sessionOf 0).map fun s => s.2.trace Entry.toCentral?) =
        some [Session.acceptance.1] := by
  decide +kernel

theorem transparent_of_disabled_relay : ∃ x s,
    (step commandedContext).run (start relayConfig ∅) relayEvents = some x ∧ x.sent = [] ∧
      x.downstream.sessionOf 0 = some s ∧ s.2.trace Entry.toCentral? = [Session.acceptance.1] ∧
      s.2.trace Entry.local? = [] := by
  obtain ⟨x, hrun, hx⟩ := Option.bind_eq_some_iff.mp relayEvents_sent
  obtain ⟨s, hs, htexts⟩ := Option.map_eq_some_iff.mp hx
  obtain ⟨hsent, -, hsessions⟩ := transparent_of_disabled rfl hrun
  exact ⟨x, s, hrun, hsent, hs, htexts, (hsessions 0 s.1 s.2 hs).1⟩

end Process

end OcppProxy

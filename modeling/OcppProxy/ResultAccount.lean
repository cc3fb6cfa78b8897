import OcppProxy.Health
import Mathlib.Algebra.Order.Sub.Unbundled.Basic

/-!
# The account of the commands

A request that was handed to a session is waiting for it, held by it or answered by it; an answer
waits for its place in the channel, waits in it, was dropped or was taken by the publisher, which
publishes what it takes and, besides, its own answers to the commands it does not hand on.
-/

namespace OcppProxy

def MqttEvent.result? : MqttEvent → Option (String × CommandResult)
  | commandResult id result => some (id, result)
  | _ => none

/-- What a request and the result for it have in common. -/
structure CommandKey where
  chargePointId : String
  id : String
  command : Json
  source : CommandSource

def CommandKey.ofRequest (request : String × CommandRequest) : CommandKey :=
  ⟨request.1, request.2.id, request.2.command.toValue, request.2.source⟩

def CommandKey.ofResult (result : String × CommandResult) : CommandKey :=
  ⟨result.1, result.2.id, result.2.command, result.2.source⟩

theorem CommandResult.IsFor.key {result : CommandResult} {request : CommandRequest}
    (h : result.IsFor request) (id : String) :
    CommandKey.ofResult (id, result) = .ofRequest (id, request) := by
  obtain ⟨hid, hcommand, hsource⟩ := h
  rw [CommandKey.ofResult, CommandKey.ofRequest, hid, hcommand, hsource]

namespace Session

def results (id : String) (s : Session) : List (String × CommandResult) :=
  (s.trace Entry.answer?).map fun a => (id, a.2)

section
variable {cx : SessionContext} {s t : Session}

/-- The results among what a session hands over are those it logs. -/
theorem Reports.results (h : Reports cx s t) (id : String) : t.results id =
    s.results id ++ (t.handedSince id s.log.length).filterMap MqttEvent.result? := by
  obtain ⟨es, hlog, hes⟩ := h
  have hhanded (e : Time × Entry) (he : e ∈ es) : (e.2.mqttEvent? id).bind MqttEvent.result? =
      e.2.answer?.map fun a => (id, a.2) := by
    rcases hes e he with hplain | ⟨upstream, downstream, hchange⟩
    · obtain ⟨now, entry⟩ := e
      cases entry with
      | event event => cases event <;> first | rfl | cases hplain
      | _ => rfl
    · rw [hchange]
      rfl
  rw [Session.results, trace_append _ hlog, List.map_append, handedSince, hlog, List.drop_left,
    List.filterMap_filterMap, List.filterMap_congr hhanded, List.map_filterMap]
  rfl

theorem results_start (cx : SessionContext) (id : String) (now : Time)
    (manager : ConnectionStateManager) : (start cx now manager).results id =
      ((start cx now manager).handedSince id 0).filterMap MqttEvent.result? := by
  obtain ⟨s, hs, hreports⟩ := @start_reports cx now manager
  have hresults := hreports.results id
  rw [hs] at hresults
  rw [hresults, results, trace, hs]
  rfl

/-- What a session has read is answered or held. -/
theorem Commanded.keys (h : s.Commanded cx) (id : String) :
    ((s.trace Entry.received?).map fun r => CommandKey.ofRequest (id, r) : Multiset CommandKey) =
      (s.results id).map CommandKey.ofResult +
        s.localCalls.held.map fun r => CommandKey.ofRequest (id, r) := by
  have hanswers := h.accounted.answered
  have hread : (s.localView []).entries.filterMap Entry.received? = s.trace Entry.received? :=
    filterMap_local Entry.received?_of_not_isLocal s
  have hanswered : (s.localView []).entries.filterMap Entry.answer? = s.trace Entry.answer? :=
    filterMap_local Entry.answer?_of_not_isLocal s
  have hfor := h.accounted.isFor
  rw [hanswered] at hanswers hfor
  rw [hread] at hanswers
  have hkeys : (s.results id).map CommandKey.ofResult =
      ((s.trace Entry.answer?).map Prod.fst).map fun r => CommandKey.ofRequest (id, r) := by
    rw [results, List.map_map, List.map_map]
    exact List.map_congr_left fun a ha => (hfor a ha).key id
  rw [hkeys, Multiset.coe_add, ← List.map_append]
  exact Multiset.coe_eq_coe.mpr (hanswers.map _)

end

end Session

namespace DownstreamState

def results (d : DownstreamState) : Multiset (String × CommandResult) :=
  d.total fun id s => s.results id

/-- What the session of task `n` holds, and what of its channel it has not read. -/
def pending (d : DownstreamState) (n : Nat) : List CommandRequest :=
  (d.view n).session.elim [] (·.localCalls.held) ++
    (d.inboxes n).accepted.drop (d.view n).received.length

def pendingKeys (d : DownstreamState) (n : Nat) : Multiset CommandKey :=
  (d.tasks n).elim 0 fun task =>
    (d.pending n).map fun r => CommandKey.ofRequest (task.chargePointId, r)

section
variable {cx : ProxyContext} {d d' : DownstreamState} {sent : List (String × CommandRequest)}

/-- What a step adds to the results is what it hands over. -/
theorem results_of_move (hd : d.Routed) (hmove : DownstreamMove cx d d' sent) : ∃ new,
    d'.mqttTx = d.mqttTx ++ new ∧
      d'.results = d.results + (new.filterMap MqttEvent.result? : Multiset _) := by
  have hd' := hd.move hmove
  have hsame (hmqtt : d'.mqttTx = d.mqttTx) (hsessions : d'.sessionOf = d.sessionOf) : ∃ new,
      d'.mqttTx = d.mqttTx ++ new ∧
        d'.results = d.results + (new.filterMap MqttEvent.result? : Multiset _) :=
    ⟨[], by rw [hmqtt, List.append_nil], by simp [results, total_of_same hd hd' hsessions]⟩
  cases hmove with
  | task _ hstep =>
    cases sessionMove_of_step hd.fresh hd.accounted hstep with
    | @idle new hsessions hhanded hnone =>
      refine ⟨new, hhanded, ?_⟩
      have hnew : new.filterMap MqttEvent.result? = [] := by
        refine List.filterMap_eq_nil_iff.mpr fun e he => ?_
        cases e with
        | commandResult id result => exact absurd he (hnone id result)
        | _ => rfl
      rw [hnew, results, results, total_of_same hd hd' hsessions]
      exact (add_zero _).symm
    | @started n id now manager hnone hsessions hhanded =>
      refine ⟨_, hhanded, ?_⟩
      have htotal := total_of_update
        (fun id s => (↑(s.results id) : Multiset (String × CommandResult))) hd hd' hsessions
      rw [hnone, Option.elim_none, add_zero, Session.results_start] at htotal
      exact htotal
    | @stepped n id s t manager e hev hsession hstep' hsessions hhanded =>
      refine ⟨_, hhanded, ?_⟩
      have htotal := total_of_update
        (fun id s => (↑(s.results id) : Multiset (String × CommandResult))) hd hd' hsessions
      have hresults := (Session.reports_of_step hstep').results id
      have hbefore : Session.results id { s with manager } = s.results id := rfl
      rw [hbefore] at hresults
      rw [hsession, Option.elim_some, hresults, ← Multiset.coe_add, ← add_assoc,
        add_right_comm] at htotal
      exact add_right_cancel htotal
  | shutdown hstep => subst hstep; exact hsame rfl rfl
  | manager _ hstep => subst hstep; exact hsame rfl rfl
  | dispatched _ _ hstep => subst hstep; exact hsame rfl rfl

/-- What was put into a channel is answered or pending. -/
theorem Routed.acceptedKeys (hd : d.Routed) (hcommanded : d.Commanded cx) (n : Nat) :
    ((d.acceptedFor n).map CommandKey.ofRequest : Multiset CommandKey) =
      ((d.sessionOf n).elim 0 fun s => (s.2.results s.1 : Multiset _)).map CommandKey.ofResult +
        d.pendingKeys n := by
  unfold acceptedFor pendingKeys pending
  cases htask : d.tasks n with
  | none => simp [sessionOf, htask]
  | some task =>
    obtain ⟨unread, hunread⟩ := (hd.accounted n).read
    have hview := view_of_task n htask
    simp only [Option.elim_some, sessionOf, htask, Option.bind_some]
    have haccepted : (d.inboxes n).accepted = (d.view n).received ++ unread := hunread.symm
    rw [haccepted, List.drop_left, List.map_map, List.map_append, List.map_append,
      ← Multiset.coe_add, ← Multiset.coe_add, ← add_assoc]
    congr 1
    cases hs : task.session with
    | none => simp [hview, hs, ConnectionView.received, ConnectionView.session]
    | some s =>
      have hread := (hcommanded n task.chargePointId s (by simp [sessionOf, htask, hs])).keys
        task.chargePointId
      simpa [hview, hs, ConnectionView.received, ConnectionView.session, Function.comp_def]
        using hread

end

end DownstreamState

namespace MqttPublisher

/-- A result that the publisher makes itself, of a payload that is no command or of a request that it
does not hand on. -/
inductive AnswersAtOnce (crates : Crates) : CommandResult → Prop
  | unreadable (now : Time) (reason : String) :
      AnswersAtOnce crates (.invalidPayload crates now reason)
  | disabled (now : Time) (request : CommandRequest) :
      AnswersAtOnce crates (.forRequest crates now request .rejected
        (some "charger commands are disabled on this proxy"))
  | refused (now : Time) (request : CommandRequest) (e : DispatchError) :
      AnswersAtOnce crates (.forRequest crates now request (refusalOf e).1 (some (refusalOf e).2))

def published (p : MqttPublisher) : List (String × CommandResult) :=
  p.commandLog.filterMap PublisherEntry.folded?

def broughtBy : PublisherInput → List (String × CommandResult)
  | .event (some event) => event.result?.toList
  | _ => []

section
variable {crates : Crates} {now : Time} {p q : MqttPublisher} {input : PublisherInput}

theorem published_append {es : List PublisherEntry} (h : q.commandLog = p.commandLog ++ es) :
    q.published = p.published ++ es.filterMap PublisherEntry.folded? := by
  rw [published, h, List.filterMap_append]
  rfl

/-- A step publishes the result it is brought, or one of its own. -/
theorem published_of_stepped (h : Stepped crates now p input q)
    (hworld : ∀ router inboxes manager, input ≠ .world router inboxes manager) : ∃ own,
    q.published = p.published ++ (broughtBy input ++ own) ∧ ∀ r ∈ own, AnswersAtOnce crates r.2 := by
  by_cases hbrought : ∃ id result, input = .event (some (.commandResult id result))
  · obtain ⟨id, result, rfl⟩ := hbrought
    cases h
    exact ⟨[], published_append (keeps_publishCommandResult result p).commandLog, by simp⟩
  · have hnone : broughtBy input = [] := by
      unfold broughtBy
      split
      · rename_i event
        cases event with
        | commandResult id result => exact absurd ⟨id, result, rfl⟩ hbrought
        | _ => rfl
      · rfl
    rw [hnone]
    cases (routes_of_stepped h hworld).1 with
    | idle _ hlog => exact ⟨[], by simp [published, hlog], by simp⟩
    | reported hinput => exact absurd ⟨_, _, hinput⟩ hbrought
    | unreadable _ _ _ _ hlog =>
      refine ⟨_, published_append hlog, fun r hr => ?_⟩
      obtain rfl := List.mem_singleton.mp hr
      exact .unreadable now _
    | disabled _ _ _ hlog =>
      refine ⟨_, published_append hlog, fun r hr => ?_⟩
      obtain rfl := List.mem_singleton.mp hr
      exact .disabled now _
    | accepted _ _ _ hlog => exact ⟨[], published_append hlog, by simp⟩
    | refused _ _ _ _ hlog =>
      refine ⟨_, published_append hlog, fun r hr => ?_⟩
      obtain rfl := List.mem_singleton.mp hr
      exact .refused now _ _

end

end MqttPublisher

namespace Process

def resultKeys (events : List MqttEvent) : Multiset CommandKey :=
  (events.filterMap MqttEvent.result?).map CommandKey.ofResult

def pendingKeys (x : Process) : Multiset CommandKey :=
  ∑ n ∈ Finset.range x.downstream.opened, x.downstream.pendingKeys n

/-- The channel to the publisher: it keeps the order, and drops what finds it full or closed. -/
structure Channelled (crates : Crates) (x : Process) : Prop where
  offered : x.offered ≤ x.downstream.mqttTx.length
  events : Accounts (x.downstream.mqttTx.take x.offered) fun carried : Bool =>
    if carried then x.taken ++ x.abandoned ++ x.events else x.refused
  room : x.events.length ≤ mqttChannelCapacity
  closed : x.publisher.stage = .stopped → x.events = []
  opened : x.publisher.stage ≠ .stopped → x.abandoned = []
  published : ∃ own, Accounts x.publisher.published (fun brought : Bool =>
    if brought then x.taken.filterMap MqttEvent.result? else own) ∧
      ∀ r ∈ own, MqttPublisher.AnswersAtOnce crates r.2
  results : x.downstream.results = (x.downstream.mqttTx.filterMap MqttEvent.result? : Multiset _)

section
variable {cx : ProxyContext} {x y : Process} {ev : ProcessEvent}

/-- The publisher is woken, and the channel gives it `got` and keeps `events`. -/
theorem Channelled.putPublisher (h : x.Channelled cx.crates) {now : Time} {input : PublisherInput}
    {p : MqttPublisher} {got events : List MqttEvent} (hevents : x.events = got ++ events)
    (hgot : MqttPublisher.broughtBy input = got.filterMap MqttEvent.result?)
    (hp : MqttPublisher.step cx.crates x.seen ⟨now, input⟩ = some p) (hopen : input ≠ .event none)
    (hworld : ∀ router inboxes manager, input ≠ .world router inboxes manager)
    (henqueue : ∀ message, input ≠ .enqueue message) :
    ({ x.putPublisher p with events, taken := x.taken ++ got } : Process).Channelled cx.crates := by
  have hstepped := MqttPublisher.stepped_of_step hp
  -- a step of the publisher is one of a running thread, and does not end it
  have hstages := MqttPublisher.stages_of_stepped hstepped hopen hworld henqueue
  have hbefore : x.publisher.stage ≠ .stopped := by
    have hstage : x.seen.stage = x.publisher.stage := rfl
    rw [← hstage]
    rcases hstages with ⟨h, -⟩ | ⟨h, -⟩ | ⟨h | h, -⟩ <;> simp [h]
  have hafter : p.stage ≠ .stopped := by
    rcases hstages with ⟨-, h, -⟩ | ⟨-, h, -⟩ | ⟨-, h⟩ <;> simp [h]
  obtain ⟨own, hown, hanswers⟩ := h.published
  obtain ⟨own', hpublished, hanswers'⟩ := MqttPublisher.published_of_stepped hstepped hworld
  refine ⟨h.offered, h.events.congr rfl fun carried => ?_, ?_, fun hstage => absurd hstage hafter,
    fun _ => h.opened hbefore, ⟨own ++ own', ?_, ?_⟩, h.results⟩
  · cases carried with
    | true => simp [hevents, h.opened hbefore, Process.putPublisher]
    | false => rfl
  · have hroom := h.room
    rw [hevents, List.length_append] at hroom
    exact (Nat.le_add_left ..).trans hroom
  · have hnew : Accounts (MqttPublisher.broughtBy input ++ own') fun brought : Bool =>
        if brought then got.filterMap MqttEvent.result? else own' := by
      refine ((Accounts.const _ true).append (.const own' false)).congr rfl fun brought => ?_
      cases brought <;> simp [hgot]
    refine (hown.append hnew).congr hpublished.symm fun brought => ?_
    cases brought <;> simp
  · intro r hr
    exact (List.mem_append.mp hr).elim (hanswers r) (hanswers' r)

/-- Another task or `main` moves; the events of the tasks come after those that are there. -/
theorem Channelled.other (h : x.Channelled cx.crates) {d : DownstreamState} {new : List MqttEvent}
    (hhanded : d.mqttTx = x.downstream.mqttTx ++ new)
    (hresults : d.results = x.downstream.results + (new.filterMap MqttEvent.result? : Multiset _))
    (main : MainStage) : ({ x with main, downstream := d } : Process).Channelled cx.crates where
  offered := by
    rw [hhanded, List.length_append]
    exact h.offered.trans (Nat.le_add_right ..)
  events := h.events.congr (by rw [hhanded, List.take_append_of_le_length h.offered]) fun _ => rfl
  room := h.room
  closed := h.closed
  opened := h.opened
  published := h.published
  results := by
    rw [hresults, h.results, hhanded, List.filterMap_append]
    rfl

/-- The MQTT thread returns. -/
theorem Channelled.endMqtt (h : x.Channelled cx.crates) (hstage : x.publisher.stage ≠ .stopped) :
    x.endMqtt.Channelled cx.crates where
  offered := h.offered
  events := by
    refine h.events.congr rfl fun carried => ?_
    cases carried with
    | true => simp [Process.endMqtt, h.opened hstage]
    | false => rfl
  room := Nat.zero_le _
  closed _ := rfl
  opened hopen := absurd rfl hopen
  published := h.published
  results := h.results

theorem Channelled.step (h : x.Channelled cx.crates) (hd : x.downstream.Routed)
    (hstep : Process.step cx x ev = some y) : y.Channelled cx.crates := by
  obtain ⟨-, hmoved⟩ := moved_of_step hstep
  obtain ⟨sent, hmove, -⟩ := downstreamMove_of_moved hmoved
  obtain ⟨new, hhanded, hresults⟩ := DownstreamState.results_of_move hd hmove
  cases hmoved with
  | task hev hd' => exact h.other hhanded hresults x.main
  | @accepted event hevent hopen hroom =>
    obtain ⟨hlt, hget⟩ := List.getElem?_eq_some_iff.mp hevent
    refine ⟨hlt, ?_, ?_, fun hstage => absurd hstage hopen, h.opened, h.published, h.results⟩
    · refine (h.events.append (.const [event] true)).congr ?_ fun carried => ?_
      · rw [List.take_add_one, hevent]
        rfl
      · cases carried <;> simp
    · rw [List.length_append]
      exact hroom
  | @refused event hevent hshut =>
    obtain ⟨hlt, hget⟩ := List.getElem?_eq_some_iff.mp hevent
    refine ⟨hlt, ?_, h.room, h.closed, h.opened, h.published, h.results⟩
    refine (h.events.append (.const [event] false)).congr ?_ fun carried => ?_
    · rw [List.take_add_one, hevent]
      rfl
    · cases carried <;> simp
  | @publisher ev p hbroker hp =>
    obtain ⟨now, input⟩ := ev
    have hput := h.putPublisher (show x.events = [] ++ x.events from rfl) ?_ hp ?_ ?_ ?_
    · rw [List.append_nil] at hput
      exact hput
    all_goals cases input <;> first | exact absurd hbroker Bool.false_ne_true | rfl | simp
  | @received now event events p hevents hp =>
    have hgot : x.events = [event] ++ events := hevents
    refine h.putPublisher hgot ?_ hp (by simp) (by simp) (by simp)
    cases event <;> rfl
  | mqttUnavailable hstage => exact h.endMqtt (by simp [hstage])
  | mqttAbandoned _ hstage =>
    exact h.endMqtt (by rcases hstage with hstage | hstage <;> simp [hstage])
  | mqttStopped _ hstage => exact (h.endMqtt (by simp [hstage])).other hhanded hresults x.main
  | bound => exact h.other hhanded hresults .serving
  | signalled => exact h.other hhanded hresults x.main
  | @drainBegun now => exact h.other hhanded hresults (.draining (now + drainTimeout) now 0)
  | @slept now deadline wake sleeps =>
    exact h.other hhanded hresults (.draining deadline (now + drainInterval) (sleeps + 1))
  | drained => exact h.other hhanded hresults _
  | joined => exact h.other hhanded hresults .stopped

variable {config : ProxyConfig} {file : SnapshotMap} {events : List ProcessEvent}

theorem channelled_start (crates : Crates) : (start config file).Channelled crates where
  offered := le_rfl
  events := .congr .nil rfl fun carried => by cases carried <;> rfl
  room := Nat.zero_le _
  closed _ := rfl
  opened _ := rfl
  published := by
    have hlog : (MqttPublisher.build (config.publisherSetup file)).log = [] :=
      (MqttPublisher.build_fields _).2.1
    have hnone : (start config file).publisher.published = [] := by
      simp [MqttPublisher.published, MqttPublisher.commandLog, start, hlog]
    refine ⟨[], .congr .nil hnone.symm fun brought => ?_, by simp⟩
    cases brought <;> rfl
  results := tableTotal_none fun _ => rfl

theorem channelled_of_run (hrun : (step cx).run (start config file) events = some x) :
    x.Channelled cx.crates := by
  refine ((step cx).invariant (P := fun x => x.Delivered ∧ x.Channelled cx.crates) ?_ hrun
    ⟨delivered_start, channelled_start cx.crates⟩).2
  rintro x ev y hstep ⟨hdelivered, hchannelled⟩
  exact ⟨hdelivered.step hstep, hchannelled.step hdelivered.routed hstep⟩

/-- In every run the channel gives the publisher the events of the tasks in their order, none twice;
what it does not give it was dropped by the full or closed channel, or waits. The publisher publishes
the results it is given, in their order, and besides only its own. -/
theorem published_of_run (hrun : (step cx).run (start config file) events = some x) :
    (Accounts (x.downstream.mqttTx.take x.offered) fun carried : Bool =>
        if carried then x.taken ++ x.abandoned ++ x.events else x.refused) ∧
      x.events.length ≤ mqttChannelCapacity ∧
      ∃ own, Accounts x.publisher.published (fun brought : Bool =>
        if brought then x.taken.filterMap MqttEvent.result? else own) ∧
          ∀ r ∈ own, MqttPublisher.AnswersAtOnce cx.crates r.2 :=
  have h := channelled_of_run hrun
  ⟨h.events, h.room, h.published⟩

/-- The results that were handed over were taken, dropped or wait. -/
theorem Channelled.resultKeys (h : x.Channelled cx.crates) :
    Process.resultKeys x.downstream.mqttTx = Process.resultKeys x.taken +
      Process.resultKeys (x.refused ++ x.abandoned) +
      Process.resultKeys (x.events ++ x.downstream.mqttTx.drop x.offered) := by
  have hadd (l l' : List MqttEvent) :
      Process.resultKeys (l ++ l') = Process.resultKeys l + Process.resultKeys l' := by
    simp [Process.resultKeys]
  have hperm (l l' : List MqttEvent) (h : (l : Multiset MqttEvent) = l') :
      Process.resultKeys l = Process.resultKeys l' :=
    Multiset.coe_eq_coe.mpr (((Multiset.coe_eq_coe.mp h).filterMap _).map _)
  have htaken := h.events.sum (S := Finset.univ) fun f hf => absurd (Finset.mem_univ f) hf
  rw [Fintype.sum_bool, if_pos rfl, if_neg Bool.false_ne_true, Multiset.coe_add] at htaken
  rw [← List.take_append_drop x.offered x.downstream.mqttTx, hadd, hperm _ _ htaken,
    List.take_append_drop, hadd, hadd, hadd, hadd, hadd]
  abel

/-- In every run each command that was handed to a charger's session has one fate: its result was
taken by the publisher, was dropped by the channel to it or is on its way, or there is none: the
session holds the command or has not read it. -/
theorem requests_of_run (hrun : (step cx).run (start config file) events = some x) :
    (x.sent.map CommandKey.ofRequest : Multiset CommandKey) =
      resultKeys x.taken + resultKeys (x.refused ++ x.abandoned) +
        resultKeys (x.events ++ x.downstream.mqttTx.drop x.offered) + x.pendingKeys := by
  obtain ⟨hdelivered, hcommanded⟩ := commanded_of_run hrun
  have hchannelled := channelled_of_run hrun
  have hsent := hdelivered.accounts.sum (S := Finset.range x.downstream.opened) fun n hn => by
    simp [DownstreamState.acceptedFor, hdelivered.routed.fresh n (by simpa using hn)]
  rw [← Multiset.map_coe, hsent, ← Multiset.coe_mapAddMonoidHom, map_sum, ← hchannelled.resultKeys]
  -- for each connection: what it accepted is what it answered and what it still holds
  have hkeys (n : Nat) : Multiset.mapAddMonoidHom CommandKey.ofRequest
      (x.downstream.acceptedFor n : Multiset _) = Multiset.mapAddMonoidHom CommandKey.ofResult
        ((x.downstream.sessionOf n).elim 0 fun s => (s.2.results s.1 : Multiset _)) +
          x.downstream.pendingKeys n :=
    hdelivered.routed.acceptedKeys hcommanded n
  simp only [hkeys]
  rw [Finset.sum_add_distrib, ← map_sum]
  congr 1
  have hresults := hchannelled.results
  rw [DownstreamState.results, DownstreamState.total, tableTotal] at hresults
  rw [hresults]
  rfl

end

theorem commandedEvents_answered :
    ((step commandedContext).run (start commandedConfig ∅) commandedEvents).map (fun x =>
      decide ((x.taken.filterMap MqttEvent.result?).map (fun r => (r.1, r.2.id, r.2.status)) =
        [("CP01", "limit-0", .accepted)])) = some true := by
  decide +kernel

theorem published_of_run_commanded : ∃ x,
    (step commandedContext).run (start commandedConfig ∅) commandedEvents = some x ∧
      (Accounts (x.downstream.mqttTx.take x.offered) fun carried : Bool =>
        if carried then x.taken ++ x.abandoned ++ x.events else x.refused) ∧
      x.events.length ≤ mqttChannelCapacity ∧
      ∃ own, Accounts x.publisher.published (fun brought : Bool =>
        if brought then x.taken.filterMap MqttEvent.result? else own) ∧
          ∀ r ∈ own, MqttPublisher.AnswersAtOnce commandedContext.crates r.2 := by
  obtain ⟨x, hrun, -⟩ := Option.map_eq_some_iff.mp commandedEvents_answered
  exact ⟨x, hrun, published_of_run hrun⟩

theorem requests_of_run_commanded : ∃ x,
    (step commandedContext).run (start commandedConfig ∅) commandedEvents = some x ∧
      (x.taken.filterMap MqttEvent.result?).map (fun r => (r.1, r.2.id, r.2.status)) =
        [("CP01", "limit-0", .accepted)] ∧
      (x.sent.map CommandKey.ofRequest : Multiset CommandKey) =
        resultKeys x.taken + resultKeys (x.refused ++ x.abandoned) +
          resultKeys (x.events ++ x.downstream.mqttTx.drop x.offered) + x.pendingKeys := by
  obtain ⟨x, hrun, hx⟩ := Option.map_eq_some_iff.mp commandedEvents_answered
  exact ⟨x, hrun, of_decide_eq_true hx, requests_of_run hrun⟩

end Process

end OcppProxy

import OcppProxy.Library.Ledger
import OcppProxy.Process
import OcppProxy.PublisherCommands
import OcppProxy.Routing

/-!
# From the broker to a charger's channel

The connection tasks see of the MQTT thread what it puts into their channels, and of `main` the
token. Every request that was handed on is in the channel of one connection of its charge point.
-/

namespace OcppProxy

/-- The parts of the manager that the sessions read or write are the same. -/
structure ConnectionStateManager.SameInside (m m' : ConnectionStateManager) : Prop where
  upstreamState : m'.upstreamState = m.upstreamState
  downstreamState : m'.downstreamState = m.downstreamState
  metrics : m'.metrics = m.metrics

def PublisherEntry.sent? : PublisherEntry → Option (String × CommandRequest)
  | dispatched id request (.ok ()) => some (id, request)
  | _ => none

/-- What a step of the process does to the connection tasks, with the requests it hands on. -/
inductive DownstreamMove (cx : ProxyContext) (d d' : DownstreamState) :
    List (String × CommandRequest) → Prop
  | task {ev : ProxyEvent} (hev : ev.isTask = true)
    (hd : DownstreamState.step cx d ev = some d') : DownstreamMove cx d d' []
  | shutdown (hd : d' = { d with shutdown := true }) : DownstreamMove cx d d' []
  | manager {m : ConnectionStateManager} (hm : d.stateManager.SameInside m)
    (hd : d' = { d with stateManager := m }) : DownstreamMove cx d d' []
  | dispatched {id : String} {request : CommandRequest} {inboxes : Inboxes}
    {m : ConnectionStateManager} (hm : d.stateManager.SameInside m)
    (hok : d.commandRouter.dispatch d.inboxes id request = .ok inboxes)
    (hd : d' = { d with inboxes, stateManager := m }) : DownstreamMove cx d d' [(id, request)]

namespace DownstreamState

section
variable {cx : ProxyContext} {d d' : DownstreamState} {sent : List (String × CommandRequest)}

theorem shared_of_manager {m : ConnectionStateManager} (hm : d.stateManager.SameInside m)
    (inboxes : Inboxes) : ({ d with inboxes, stateManager := m } : DownstreamState).shared =
      d.shared := by
  unfold shared
  simp only [hm.downstreamState]

/-- Neither the tasks nor their channels depend on the manager. -/
theorem Routed.of_manager {m : ConnectionStateManager} (h : d.Routed)
    (hm : d.stateManager.SameInside m) : ({ d with stateManager := m } : DownstreamState).Routed := by
  have hshared := shared_of_manager hm d.inboxes
  exact ⟨hshared ▸ h.sane, hshared ▸ h.lead, h.accounted, fun n hn => h.untouched n (hshared ▸ hn)⟩

theorem step_dispatch {id : String} {request : CommandRequest} {inboxes : Inboxes}
    (hok : d.commandRouter.dispatch d.inboxes id request = .ok inboxes) :
    step cx d (.dispatch id request) = some { d with inboxes } := by
  simp only [step, hok]

def acceptedFor (d : DownstreamState) (n : Nat) : List (String × CommandRequest) :=
  (d.tasks n).elim [] fun task => (d.inboxes n).accepted.map (task.chargePointId, ·)

/-- A channel's record grows by what the step accepts into it, under the same charge point. -/
theorem Routed.acceptedFor_of_step (h : d.Routed) {ev : ProxyEvent}
    (hstep : DownstreamState.step cx d ev = some d') (n : Nat) :
    d'.acceptedFor n = d.acceptedFor n ++
      (d.tasks n).elim [] fun task => (d.acceptedBy n ev).map (task.chargePointId, ·) := by
  have haccepted := h.accepted_of_step hstep n
  unfold acceptedFor
  cases htask : d.tasks n with
  | none =>
    have hbefore : d.shared.BeforeRoute n := by
      intro t ht
      simp [shared, htask] at ht
    rw [h.untouched n hbefore, h.acceptedBy_eq_nil hbefore, List.nil_append] at haccepted
    cases d'.tasks n <;> simp [haccepted]
  | some task =>
    obtain ⟨u, hu, hid⟩ := SharedView.keepsId_of_sharedStep (sharedStep_of_step hstep) h.sane
      (shared_tasks htask)
    obtain ⟨task', htask', rfl⟩ := Option.map_eq_some_iff.mp hu
    have hid : task'.chargePointId = task.chargePointId := hid
    rw [htask', Option.elim_some, Option.elim_some, Option.elim_some, haccepted, List.map_append,
      hid]

/-- A dispatch goes into the channel of one connection of the charge point. -/
theorem Routed.acceptedFor_dispatch (h : d.Routed) {id : String} {request : CommandRequest}
    {inboxes : Inboxes} (hok : d.commandRouter.dispatch d.inboxes id request = .ok inboxes) :
    ∃ tx, ∀ n, ({ d with inboxes } : DownstreamState).acceptedFor n =
      d.acceptedFor n ++ if tx = n then [(id, request)] else [] := by
  obtain ⟨r, hfind, halive, hroom, rfl⟩ := (d.commandRouter.dispatch_eq_ok id).mp hok
  obtain ⟨t, ht, rfl, -, -⟩ := h.lead id r hfind
  obtain ⟨task, htask, rfl⟩ := Option.map_eq_some_iff.mp ht
  refine ⟨r.tx, fun n => ?_⟩
  unfold acceptedFor
  by_cases hn : r.tx = n
  · subst hn
    simp [htask, ConnectionTask.view, Inbox.put]
  · simp [hn, Function.update_of_ne (Ne.symm hn)]

theorem Routed.move (h : d.Routed) (hmove : DownstreamMove cx d d' sent) : d'.Routed := by
  cases hmove with
  | task hev hd => exact h.step hd
  | shutdown hd =>
    subst hd
    exact @Routed.step cx _ _ .shutdown h rfl
  | manager hm hd =>
    subst hd
    exact h.of_manager hm
  | dispatched hm hok hd =>
    subst hd
    exact (h.step (@step_dispatch cx _ _ _ _ hok)).of_manager hm

end

end DownstreamState

namespace Process

def sent (x : Process) : List (String × CommandRequest) :=
  x.publisher.commandLog.filterMap PublisherEntry.sent?

/-- Why a step hands a request on, which only a proxy with commands does. -/
def Causes (cx : ProxyContext) (x : Process) (ev : ProcessEvent) (id : String)
    (request : CommandRequest) : Prop :=
  x.publisher.commandRouter.isSome = true ∧ match ev with
  | .publisher ev => MqttPublisher.Cause cx.crates ev.now x.seen ev.input id request
  | .receive now => ∃ event, x.events.head? = some event ∧
    MqttPublisher.Cause cx.crates now x.seen (.event (some event)) id request
  | _ => False

section
variable {cx : ProxyContext} {x y : Process} {ev : ProcessEvent}

/-- The manager after a step of the publisher. -/
theorem sameInside_putPublisher {p : MqttPublisher}
    (hsame : MqttPublisher.SameConnection x.seen p) :
    x.downstream.stateManager.SameInside (p.stateManager.getD x.downstream.stateManager) := by
  have hmanager : p.stateManager = x.seen.stateManager ∨
      p.stateManager = x.seen.stateManager.map (·.transition .mqtt p.state) :=
    hsame.mirrored.imp And.right id
  rcases hmanager with h | h <;> rw [h] <;> cases hm : x.publisher.stateManager <;>
    simp only [seen, hm, Option.map_none, Option.map_some, Option.getD_none, Option.getD_some] <;>
    exact ⟨rfl, rfl, rfl⟩

/-- What a step of the publisher hands on. -/
theorem downstreamMove_putPublisher {now : Time} {input : PublisherInput} {p : MqttPublisher}
    (hroutes : MqttPublisher.Routes cx.crates now x.seen p input)
    (hsame : MqttPublisher.SameConnection x.seen p) : ∃ sent,
    DownstreamMove cx x.downstream (x.putPublisher p).downstream sent ∧
      (x.putPublisher p).sent = x.sent ++ sent ∧ ∀ id request, (id, request) ∈ sent →
        x.publisher.commandRouter.isSome = true ∧
          MqttPublisher.Cause cx.crates now x.seen input id request := by
  have hm := sameInside_putPublisher hsame
  have hlog {es : List PublisherEntry} (h : p.commandLog = x.seen.commandLog ++ es) :
      (x.putPublisher p).sent = x.sent ++ es.filterMap PublisherEntry.sent? := by
    unfold sent putPublisher
    rw [h, List.filterMap_append]
    rfl
  -- nothing goes into a channel
  have hquiet {l : List PublisherEntry} (hinboxes : p.inboxes = x.seen.inboxes)
      (h : p.commandLog = x.seen.commandLog ++ l)
      (hl : l.filterMap PublisherEntry.sent? = []) : ∃ sent,
      DownstreamMove cx x.downstream (x.putPublisher p).downstream sent ∧
        (x.putPublisher p).sent = x.sent ++ sent ∧ ∀ id request, (id, request) ∈ sent →
          x.publisher.commandRouter.isSome = true ∧
            MqttPublisher.Cause cx.crates now x.seen input id request := by
    refine ⟨[], .manager hm ?_, by rw [hlog h, hl], by simp⟩
    simp only [putPublisher, hinboxes]
    rfl
  cases hroutes with
  | idle hinboxes h => exact hquiet (l := []) hinboxes (by rw [h, List.append_nil]) rfl
  | reported hinput hinboxes h => exact hquiet hinboxes h rfl
  | unreadable hinput htopic hpayload hinboxes h => exact hquiet hinboxes h rfl
  | disabled hcause hrouter hinboxes h => exact hquiet hinboxes h rfl
  | refused hcause hrouter herror hinboxes h => exact hquiet hinboxes h rfl
  | @accepted id request router hcause hrouter hok h =>
    obtain rfl : router = x.downstream.commandRouter := by
      obtain ⟨r, -, hr⟩ := Option.map_eq_some_iff.mp hrouter
      exact hr.symm
    refine ⟨[(id, request)], .dispatched hm hok rfl, by rw [hlog h]; rfl, ?_⟩
    rintro id' request' hmem
    cases List.mem_singleton.mp hmem
    exact ⟨by simpa [seen] using Option.isSome_of_eq_some hrouter, hcause⟩

/-- What a step does to the connection tasks, and why it hands on what it hands on. -/
theorem downstreamMove_of_moved (h : Moved cx x ev y) : ∃ sent,
    DownstreamMove cx x.downstream y.downstream sent ∧ y.sent = x.sent ++ sent ∧
      ∀ id request, (id, request) ∈ sent → x.Causes cx ev id request := by
  -- the tasks are left alone, or see another manager
  have hquiet {x' : Process} {m : ConnectionStateManager}
      (hm : x.downstream.stateManager.SameInside m)
      (hdownstream : x'.downstream = { x.downstream with stateManager := m })
      (hsent : x'.sent = x.sent) : ∃ sent, DownstreamMove cx x.downstream x'.downstream sent ∧
        x'.sent = x.sent ++ sent ∧ ∀ id request, (id, request) ∈ sent → x.Causes cx ev id request :=
    ⟨[], .manager hm hdownstream, by rw [hsent, List.append_nil], by simp⟩
  cases h with
  | task hev hd => exact ⟨[], .task hev hd, (List.append_nil _).symm, by simp⟩
  | publisher hbroker hp =>
    obtain ⟨hroutes, hsame⟩ := MqttPublisher.routes_of_stepped (MqttPublisher.stepped_of_step hp) (by
      intro router inboxes manager hinput
      rw [hinput] at hbroker
      cases hbroker)
    exact downstreamMove_putPublisher hroutes hsame
  | received hevents hp =>
    obtain ⟨hroutes, hsame⟩ := MqttPublisher.routes_of_stepped (MqttPublisher.stepped_of_step hp) (by
      intro router inboxes manager hinput
      cases hinput)
    obtain ⟨sent, hmove, hsent, hcause⟩ := downstreamMove_putPublisher hroutes hsame
    refine ⟨sent, hmove, hsent, fun id request hmem => ?_⟩
    obtain ⟨henabled, hcause⟩ := hcause id request hmem
    exact ⟨henabled, _, by rw [hevents]; rfl, hcause⟩
  | signalled hmain => exact ⟨[], .shutdown rfl, (List.append_nil _).symm, by simp⟩
  | mqttStopped hshutdown hstage =>
    exact hquiet (m := x.downstream.stateManager.transition .mqtt .disconnected)
      ⟨rfl, rfl, rfl⟩ rfl rfl
  | bound hmain =>
    exact hquiet (m := x.downstream.stateManager.setListenerBound true) ⟨rfl, rfl, rfl⟩ rfl rfl
  | drainBegun hmain hshutdown =>
    exact hquiet (m := x.downstream.stateManager.setListenerBound false) ⟨rfl, rfl, rfl⟩ rfl rfl
  | accepted => exact hquiet (m := x.downstream.stateManager) ⟨rfl, rfl, rfl⟩ rfl rfl
  | refused => exact hquiet (m := x.downstream.stateManager) ⟨rfl, rfl, rfl⟩ rfl rfl
  | mqttUnavailable => exact hquiet (m := x.downstream.stateManager) ⟨rfl, rfl, rfl⟩ rfl rfl
  | mqttAbandoned => exact hquiet (m := x.downstream.stateManager) ⟨rfl, rfl, rfl⟩ rfl rfl
  | slept => exact hquiet (m := x.downstream.stateManager) ⟨rfl, rfl, rfl⟩ rfl rfl
  | drained => exact hquiet (m := x.downstream.stateManager) ⟨rfl, rfl, rfl⟩ rfl rfl
  | joined => exact hquiet (m := x.downstream.stateManager) ⟨rfl, rfl, rfl⟩ rfl rfl

/-! ## Runs -/

/-- Every request handed on is in the channel of one connection, for the charge point it was handed
on to, and nothing else is. -/
structure Delivered (x : Process) : Prop where
  routed : x.downstream.Routed
  accounts : Accounts x.sent x.downstream.acceptedFor

theorem Delivered.step (h : x.Delivered) (hstep : Process.step cx x ev = some y) :
    y.Delivered := by
  obtain ⟨sent, hmove, hsent, -⟩ := downstreamMove_of_moved (moved_of_step hstep).2
  refine ⟨h.routed.move hmove, ?_⟩
  cases hmove with
  | @task ev hev hd =>
    refine h.accounts.congr (by rw [hsent, List.append_nil]) fun n => ?_
    have hnone : x.downstream.acceptedBy n ev = [] := by
      cases ev <;> first | rfl | cases hev
    rw [h.routed.acceptedFor_of_step hd, hnone]
    cases x.downstream.tasks n <;> simp
  | shutdown hd =>
    refine h.accounts.congr (by rw [hsent, List.append_nil]) fun n => ?_
    rw [hd]
    rfl
  | manager hm hd =>
    refine h.accounts.congr (by rw [hsent, List.append_nil]) fun n => ?_
    rw [hd]
    rfl
  | @dispatched id request inboxes m hm hok hd =>
    obtain ⟨tx, htx⟩ := h.routed.acceptedFor_dispatch hok
    refine (h.accounts.append (.const [(id, request)] tx)).congr hsent.symm fun n => ?_
    rw [hd, ← htx n]
    rfl

variable {config : ProxyConfig} {file : SnapshotMap} {events : List ProcessEvent}

theorem delivered_start : (start config file).Delivered where
  routed := DownstreamState.routed_new {}
  accounts := by
    have hsent : (start config file).sent = [] := by
      have hlog : (MqttPublisher.build (config.publisherSetup file)).log = [] :=
        (MqttPublisher.build_fields _).2.1
      simp [sent, start, MqttPublisher.commandLog, hlog]
    exact hsent ▸ .nil

/-- In every run each request that the publisher hands on is put into the channel of exactly one
connection, one of the charge point it is for; the channels hold nothing else, and each holds its
requests in the order in which they were handed on. -/
theorem delivered_of_run (hrun : (step cx).run (start config file) events = some x) :
    Accounts x.sent x.downstream.acceptedFor :=
  ((step cx).invariant (P := Delivered) (fun _ _ _ hs h => h.step hs) hrun delivered_start).accounts

end

/-! A limit of ten amps, from the broker to the charger, and its acceptance back. -/

def commandedConfig : ProxyConfig where
  centralSystemUrl := "wss://central.example/ocpp"
  listenPort := 9000
  mqtt := { host := "broker", port := 1883, username := "proxy", password := "secret" }
  chargingEnabled := true

def commandedContext : ProxyContext where
  crates := .ofTable [Session.acceptance]
  sessionConfig := commandedConfig.sessionConfig

def commandedLimit : CommandRequest := .new 0 "limit-0" (.setCurrentLimit 10) .mqtt

def commandedEvents : List ProcessEvent :=
  [.bind, .publisher ⟨0, .startup⟩, .publisher ⟨0, .poll 0 .connAck⟩,
    .task (.upgrade "CP01" (some "ocpp1.6"))] ++
  List.replicate 6 (.task (.advance 0 0)) ++
  [.task (.session 0 (.at 1 .connected)),
    .publisher ⟨0, .poll 0 (.publish "ocpp/CP01/command/current_limit" "10".toUTF8)⟩,
    .task (.session 0 (.at 1 (.command (some commandedLimit)))),
    .task (.session 0 (.at 1 (.charger (.text Session.acceptance.1))))] ++
  List.replicate 4 .offer ++ List.replicate 4 (.receive 1)

theorem commandedEvents_run :
    ((step commandedContext).run (start commandedConfig ∅) commandedEvents).map
      (fun x => decide (x.sent = [("CP01", commandedLimit)])) = some true := by
  decide +kernel

theorem delivered_of_run_commanded : ∃ x,
    (step commandedContext).run (start commandedConfig ∅) commandedEvents = some x ∧
      x.sent = [("CP01", commandedLimit)] ∧ Accounts x.sent x.downstream.acceptedFor := by
  obtain ⟨x, hrun, hx⟩ := Option.map_eq_some_iff.mp commandedEvents_run
  exact ⟨x, hrun, of_decide_eq_true hx, delivered_of_run hrun⟩

end Process

end OcppProxy

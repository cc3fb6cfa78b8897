import OcppProxy.SharedState
import OcppProxy.Teardown

/-!
# The two registries and the downstream state

A connection registers in the connections map and in the command router in two steps, and sets the
one downstream state in a third. The map and the router agree on the current connection as long as no
displaced task registers with the router after its successor; the state says whether a charger is
connected as long as every task that sets it still finds what it sets.
-/

namespace OcppProxy

namespace SharedView

/-! ## The command router -/

/-- The step registers a task with the router although the router already has the current connection
of its charge point. -/
def overrides (v : SharedView) : ProxyEvent → Bool
  | .advance n _ => (v.tasks n).any fun t => t.stage == .registered &&
      (v.entries t.chargePointId).any fun active =>
        active.cancel != n && (v.routes t.chargePointId).any (·.tx == active.cancel)
  | _ => false

/-- The router has the current connection of every charge point from its registration on. -/
def RoutesAgree (v : SharedView) : Prop :=
  ∀ id active t, v.entries id = some active → v.tasks active.cancel = some t →
    t.stage.isRouted = true → v.routes id = some ⟨active.generation, active.cancel⟩

section
variable {v w : SharedView} {ev : ProxyEvent} {n : Nat} {t : TaskView} {stage : ConnectionStage}

theorem RoutesAgree.setStage (hv : v.RoutesAgree) (ht : v.tasks n = some t)
    (hstage : stage.isRouted = true → t.stage.isRouted = true) :
    (v.setStage n t stage).RoutesAgree := by
  intro id active u hactive hu hrouted
  obtain ⟨⟨hk, rfl⟩ | ⟨-, hu⟩, -⟩ := before_setStage ht hu
  · exact hv id active t hactive (hk ▸ ht) (hstage hrouted)
  · exact hv id active u hactive hu hrouted

theorem RoutesAgree.register (hv : v.RoutesAgree) (hs : v.Sane) (ht : v.tasks n = some t)
    {now : Time} (hstage : t.stage = .registered)
    (horder : v.overrides (.advance n now) = false) :
    RoutesAgree { v.setStage n t .routed with
      routes := Function.update v.routes t.chargePointId (some ⟨t.generation, n⟩) } := by
  intro id active u hactive hu hrouted
  have hactive : v.entries id = some active := hactive
  obtain ⟨x, hx, hid, hactiveOf, -⟩ := hs.entry id active hactive
  obtain ⟨⟨hk, rfl⟩ | ⟨hk, hu⟩, -⟩ := before_setStage ht hu
  · -- the current connection registers
    rw [hk, ht, Option.some.injEq] at hx
    subst hx hid
    have hg : active.generation = t.generation := by rw [hactiveOf]; rfl
    rw [hg, hk]
    exact Function.update_self ..
  · have hroute := hv id active u hactive hu hrouted
    by_cases hid : id = t.chargePointId
    · subst hid
      -- the current connection is there already
      have hover : v.overrides (.advance n now) = true := by
        simp [overrides, ht, hstage, hactive, hroute, hk]
      rw [horder] at hover
      cases hover
    · exact (Function.update_of_ne hid ..).trans hroute

theorem RoutesAgree.deregister (hv : v.RoutesAgree) (hs : v.Sane) (ht : v.tasks n = some t)
    (hstage : t.stage = .returned) :
    RoutesAgree { v.setStage n t .unrouted with
      routes := if (v.routes t.chargePointId).any (·.generation == t.generation) then
        Function.update v.routes t.chargePointId none else v.routes } := by
  intro id active u hactive hu hrouted
  obtain ⟨⟨-, rfl⟩ | ⟨hk, hu⟩, -⟩ := before_setStage ht hu
  · cases hrouted
  have hroute := hv id active u hactive hu hrouted
  dsimp only
  split
  · rename_i hown
    have hid : id ≠ t.chargePointId := by
      rintro rfl
      -- the router has the current connection, whose generation is another
      have hg : active.generation = t.generation := by simpa [hroute] using hown
      exact hk (hs.entry_of_generation ht (by rw [hstage]; rfl) hactive hg)
    exact (Function.update_of_ne hid ..).trans hroute
  · exact hroute

/-- The router agrees with the connections map as long as no step overrides a registration. -/
theorem RoutesAgree.sharedStep (hv : v.RoutesAgree) (hs : v.Sane) (h : SharedStep ev v w)
    (horder : v.overrides ev = false) : w.RoutesAgree := by
  cases h with
  | idle => exact hv
  | upgraded =>
    intro id active u hactive hu hrouted
    rcases eq_of_update hu with ⟨-, rfl⟩ | ⟨-, hu⟩
    · cases hrouted
    · exact hv id active u hactive hu hrouted
  | abandoned ht hstage => exact hv.setStage ht nofun
  | numbered ht hstage =>
    intro id active u hactive hu hrouted
    rcases eq_of_update hu with ⟨-, rfl⟩ | ⟨-, hu⟩
    · cases hrouted
    · exact hv id active u hactive hu hrouted
  | @inserted _ n now t ht hstage =>
    intro id active u hactive hu hrouted
    have hkept : (v.setStage n t .registered).RoutesAgree := hv.setStage ht nofun
    by_cases hid : id = t.chargePointId
    · subst hid
      have hactive : Function.update v.entries t.chargePointId (some (activeOf n t))
        t.chargePointId = some active := hactive
      rw [Function.update_self, Option.some.injEq] at hactive
      subst hactive
      have hu : (v.setStage n t .registered).tasks n = some u := hu
      rw [tasks_setStage, if_pos rfl, Option.some.injEq] at hu
      subst hu
      cases hrouted
    · have hactive : Function.update v.entries t.chargePointId (some (activeOf n t)) id =
        some active := hactive
      rw [Function.update_of_ne hid] at hactive
      exact hkept id active u hactive hu hrouted
  | routed ht hstage => exact hv.register hs ht hstage horder
  | connected ht hstage => exact hv.setStage ht fun _ => by rw [hstage]; rfl
  | moved ht _ hrouted _ _ => exact hv.setStage ht fun h => hrouted ▸ h
  | unrouted ht hstage => exact hv.deregister hs ht hstage
  | @deregistered _ n now t ht hstage =>
    split
    · intro id active u hactive hu hrouted
      have hkept : (v.setStage n t (.deregistered true)).RoutesAgree := hv.setStage ht nofun
      have hactive : Function.update v.entries t.chargePointId none id = some active := hactive
      by_cases hid : id = t.chargePointId
      · rw [hid, Function.update_self] at hactive
        cases hactive
      · rw [Function.update_of_ne hid] at hactive
        exact hkept id active u hactive hu hrouted
    · exact hv.setStage ht nofun
  | disconnected ht hstage => exact hv.setStage ht nofun

end

end SharedView

namespace DownstreamState

section
variable {cx : ProxyContext} {d : DownstreamState} {manager : ConnectionStateManager}
  {events : List ProxyEvent}

theorem sane_of_run (h : (step cx).run (new manager) events = some d) : d.shared.Sane :=
  (step cx).invariant (P := fun d => d.shared.Sane)
    (fun _ _ _ hstep hs => hs.sharedStep (sharedStep_of_step hstep)) h (SharedView.sane_new manager)

/-- In every run in which no displaced task registers with the command router after its successor,
the router has the current connection of every charge point from its registration on, and a command
for the charge point goes into that connection's channel. -/
theorem registries_agree (h : (step cx).run (new manager) events = some d)
    (horder : (step cx).Meets (fun d ev => d.shared.overrides ev = false) (new manager) events)
    {id : String} {active : ActiveConnection} {task : ConnectionTask}
    (hentry : d.connections.lookup id = some active) (htask : d.tasks active.cancel = some task)
    (hrouted : task.stage.isRouted = true) :
    d.commandRouter.find? id = some ⟨active.generation, active.cancel⟩ ∧
      ∀ request, d.commandRouter.dispatch d.inboxes id request =
        ((d.inboxes active.cancel).trySend request).map
          (Function.update d.inboxes active.cancel) := by
  have hnew : (new manager).shared.RoutesAgree := by
    intro id active t hactive
    have hactive : (∅ : AList fun _ : String => ActiveConnection).lookup id = some active := hactive
    simp at hactive
  -- both registries are followed in one invariant: what overrides a route is told by the other map
  have hkept := (step cx).invariant_of_meets (P := fun d => d.shared.Sane ∧ d.shared.RoutesAgree)
    (fun _ _ _ hover hstep hs => ⟨hs.1.sharedStep (sharedStep_of_step hstep),
      hs.2.sharedStep hs.1 (sharedStep_of_step hstep) hover⟩) h horder
    ⟨SharedView.sane_new manager, hnew⟩
  have hroute : d.commandRouter.find? id = some ⟨active.generation, active.cancel⟩ :=
    hkept.2 id active task.view hentry (shared_tasks htask) hrouted
  refine ⟨hroute, fun request => ?_⟩
  unfold CommandRouter.dispatch
  rw [hroute]

end

def reconnected : List ProxyEvent :=
  [.upgrade "CP01" (some "ocpp1.6")] ++ List.replicate 6 (.advance 0 0) ++
    [.upgrade "CP01" (some "ocpp1.6")] ++ List.replicate 6 (.advance 1 0)

theorem registries_agree_reconnected : ∃ d, runOfDefaults reconnected = some d ∧
    d.commandRouter.find? "CP01" = some ⟨2, 1⟩ := by
  have hrun : ((runOfDefaults reconnected).map fun d => (d.connections.lookup "CP01",
      (d.tasks 1).map ConnectionTask.stage)) = some (some ⟨2, 1⟩, some .running) := by
    decide +kernel
  obtain ⟨d, hd, hvalues⟩ := Option.map_eq_some_iff.mp hrun
  obtain ⟨hentry, htask⟩ := Prod.mk.inj hvalues
  obtain ⟨task, htask, hstage⟩ := Option.map_eq_some_iff.mp htask
  exact ⟨d, hd, (registries_agree hd (by decide +kernel) hentry htask (by rw [hstage]; rfl)).1⟩

/-- The second connection of `CP01` registers in the map and in the router before the first has
registered with the router; then the first does, runs its session and leaves. -/
def overtaken : List ProxyEvent :=
  [.upgrade "CP01" (some "ocpp1.6"), .upgrade "CP01" (some "ocpp1.6"), .advance 0 0, .advance 0 0] ++
    List.replicate 6 (.advance 1 0) ++ List.replicate 4 (.advance 0 0) ++
    [.session 0 (.at 1 .connectFailed), .session 0 (.at 1 .cancelled),
      .session 0 (.at 1 (.tryRecv none)), .session 0 (.at 2 .closed)] ++
    List.replicate 4 (.advance 0 2)

/-- The displaced connection has finished, the current one runs and is in the connections map, and
the router has nothing for its charge point. -/
theorem not_registries_agree_overtaken : ∃ d, runOfDefaults overtaken = some d ∧
    (d.tasks 0).map ConnectionTask.stage = some .finished ∧
    (d.tasks 1).map ConnectionTask.stage = some .running ∧ d.tasks 2 = none ∧
    d.connections.lookup "CP01" = some ⟨2, 1⟩ ∧ d.commandRouter.find? "CP01" = none := by
  have hrun : ((runOfDefaults overtaken).map fun d => ((d.tasks 0).map ConnectionTask.stage,
      (d.tasks 1).map ConnectionTask.stage, (d.tasks 2).isNone)) =
        some (some .finished, some .running, true) ∧
      ((runOfDefaults overtaken).map fun d => (d.connections.lookup "CP01",
        (d.commandRouter.find? "CP01").isNone)) = some (some ⟨2, 1⟩, true) := by
    decide +kernel
  obtain ⟨d, hd, hstages⟩ := Option.map_eq_some_iff.mp hrun.1
  have hregistries := hrun.2
  rw [hd] at hregistries
  simp only [Prod.mk.injEq, Option.isNone_iff_eq_none, Option.map_some, Option.some.injEq]
    at hstages hregistries
  exact ⟨d, hd, hstages.1, hstages.2.1, hstages.2.2, hregistries⟩

end DownstreamState

/-! ## The downstream state -/

namespace SharedView

def Present (v : SharedView) : Prop := ∃ id active, v.entries id = some active

def Awaits (p : ConnectionStage → Bool) (n : Nat) (v : SharedView) : Prop :=
  ∃ m t, m ≠ n ∧ v.tasks m = some t ∧ p t.stage = true

/-- What a step finds that gives up an upgrade, or sets the downstream state. -/
def InStep (v : SharedView) : ProxyEvent → Prop
  | .abandon n => v.Present → v.downstream = .connected ∨ v.Awaits ConnectionStage.willConnect n
  | .advance n _ => ∀ t, v.tasks n = some t →
      (t.stage = .routed → v.Present ∨ v.Awaits ConnectionStage.willDisconnect n) ∧
      (t.stage = .deregistered true → v.Present → v.Awaits ConnectionStage.willConnect n)
  | _ => True

/-- The state is Connected, or a task will still make it so, while a charger is there; it is not
Connected, or a task will still make it so, while none is. -/
structure Reported (v : SharedView) : Prop where
  present : v.Present → v.downstream = .connected ∨
    ∃ n t, v.tasks n = some t ∧ t.stage.willConnect = true
  absent : v.downstream = .connected → v.Present ∨
    ∃ n t, v.tasks n = some t ∧ t.stage.willDisconnect = true

section
variable {v w : SharedView} {ev : ProxyEvent} {n : Nat} {t : TaskView} {stage : ConnectionStage}

/-- A task that keeps on waiting to set the state, or another one, is still there. -/
theorem awaits_setStage {p : ConnectionStage → Bool} (ht : v.tasks n = some t)
    (hstage : p t.stage = true → p stage = true)
    (h : ∃ k u, v.tasks k = some u ∧ p u.stage = true) :
    ∃ k u, (v.setStage n t stage).tasks k = some u ∧ p u.stage = true := by
  obtain ⟨k, u, hu, hp⟩ := h
  by_cases hk : k = n
  · rw [hk, ht, Option.some.injEq] at hu
    subst hu
    exact ⟨n, { t with stage }, by rw [tasks_setStage, if_pos rfl], hstage hp⟩
  · exact ⟨k, u, by rw [tasks_setStage, if_neg hk, hu], hp⟩

theorem Awaits.setStage {p : ConnectionStage → Bool} (h : v.Awaits p n) :
    ∃ k u, (v.setStage n t stage).tasks k = some u ∧ p u.stage = true := by
  obtain ⟨k, u, hk, hu, hp⟩ := h
  exact ⟨k, u, by rw [tasks_setStage, if_neg hk, hu], hp⟩

/-- A task moves on that has not yet to set the state, or still has to. -/
theorem Reported.setStage (hv : v.Reported) (ht : v.tasks n = some t)
    (hconnect : t.stage.willConnect = true → stage.willConnect = true)
    (hdisconnect : t.stage.willDisconnect = true → stage.willDisconnect = true) :
    (v.setStage n t stage).Reported where
  present h := (hv.present h).imp_right (awaits_setStage ht hconnect)
  absent h := (hv.absent h).imp_right (awaits_setStage ht hdisconnect)

theorem Reported.sharedStep (hv : v.Reported) (h : SharedStep ev v w) (hstep : v.InStep ev) :
    w.Reported := by
  cases h with
  | idle => exact hv
  | upgraded => exact ⟨fun _ => .inr ⟨v.opened, _, Function.update_self .., rfl⟩, nofun⟩
  | abandoned ht hstage =>
    refine ⟨fun hpresent => (hstep hpresent).imp_right fun h => h.setStage, fun hconnected => ?_⟩
    exact (hv.absent hconnected).imp_right (awaits_setStage ht (by rw [hstage]; nofun))
  | @numbered _ n now t ht hstage =>
    refine ⟨fun _ => .inr ⟨n, _, Function.update_self .., rfl⟩, fun hconnected => ?_⟩
    refine (hv.absent hconnected).imp_right ?_
    rintro ⟨k, u, hu, hwill⟩
    have hk : k ≠ n := by
      rintro rfl
      rw [ht, Option.some.injEq] at hu
      rw [← hu, hstage] at hwill
      cases hwill
    exact ⟨k, u, (Function.update_of_ne hk ..).trans hu, hwill⟩
  | @inserted _ n now t ht hstage =>
    refine ⟨fun _ => .inr ⟨n, { t with stage := .registered }, ?_, rfl⟩, fun _ => .inl ?_⟩
    · exact (tasks_setStage n).trans (if_pos rfl)
    · exact ⟨t.chargePointId, _, Function.update_self ..⟩
  | @routed _ n now t ht hstage =>
    have hkept : (v.setStage n t .routed).Reported :=
      hv.setStage ht (fun _ => rfl) (by rw [hstage]; nofun)
    exact ⟨hkept.present, hkept.absent⟩
  | connected ht hstage =>
    exact ⟨fun _ => .inl rfl, fun _ => ((hstep _ ht).1 hstage).imp_right fun h => h.setStage⟩
  | moved ht _ _ hwill hleft =>
    exact hv.setStage ht (by rw [hwill.1]; nofun) (by rw [hleft.1]; nofun)
  | @unrouted _ n now t ht hstage =>
    have hkept : (v.setStage n t .unrouted).Reported :=
      hv.setStage ht (by rw [hstage]; nofun) (by rw [hstage]; nofun)
    exact ⟨hkept.present, hkept.absent⟩
  | @deregistered _ n now t ht hstage =>
    split
    · refine ⟨fun hpresent => ?_, fun _ => .inr ⟨n, { t with stage := .deregistered true }, ?_, rfl⟩⟩
      · obtain ⟨id, active, hactive⟩ := hpresent
        have hactive : Function.update v.entries t.chargePointId none id = some active := hactive
        have hid : id ≠ t.chargePointId := by
          rintro rfl
          rw [Function.update_self] at hactive
          cases hactive
        rw [Function.update_of_ne hid] at hactive
        exact (hv.present ⟨id, active, hactive⟩).imp_right
          (awaits_setStage ht (by rw [hstage]; nofun))
      · exact (tasks_setStage n).trans (if_pos rfl)
    · exact hv.setStage ht (by rw [hstage]; nofun) (by rw [hstage]; nofun)
  | disconnected ht hstage =>
    exact ⟨fun hpresent => .inr ((hstep _ ht).2 hstage hpresent).setStage, nofun⟩

end

end SharedView

namespace DownstreamState

/-- Some task other than `n` is at a stage that `p` holds of. -/
def awaits (p : ConnectionStage → Bool) (n : Nat) (d : DownstreamState) : Bool :=
  (List.range d.opened).any fun m => m != n && (d.tasks m).any (p ·.stage)

/-- An upgrade is given up only while no charger is in the connections map, the state is Connected
or another task has yet to set Connected; Connected is set only while a charger is in the map or
another task has yet to set Disconnected, and Disconnected only while none is or another task has
yet to set Connected. -/
def inStep (d : DownstreamState) : ProxyEvent → Bool
  | .abandon n => d.connections.entries.isEmpty ||
      d.stateManager.downstreamState == .connected || d.awaits ConnectionStage.willConnect n
  | .advance n _ => (d.tasks n).all fun task => match task.stage with
    | .routed => !d.connections.entries.isEmpty || d.awaits ConnectionStage.willDisconnect n
    | .deregistered true => d.connections.entries.isEmpty || d.awaits ConnectionStage.willConnect n
    | _ => true
  | _ => true

section
variable {cx : ProxyContext} {d : DownstreamState} {manager : ConnectionStateManager}
  {events : List ProxyEvent} {ev : ProxyEvent}

theorem awaits_shared {p : ConnectionStage → Bool} {n : Nat} (h : d.awaits p n = true) :
    d.shared.Awaits p n := by
  obtain ⟨m, -, hm⟩ := List.any_eq_true.mp h
  simp only [Bool.and_eq_true, bne_iff_ne, Option.any_eq_true] at hm
  obtain ⟨hne, task, htask, hp⟩ := hm
  exact ⟨m, task.view, hne, shared_tasks htask, hp⟩

theorem present_iff : d.shared.Present ↔ d.connections.entries ≠ [] := by
  constructor
  · rintro ⟨id, active, hactive⟩ hnil
    have hmem : ⟨id, active⟩ ∈ d.connections.entries := AList.mem_lookup_iff.mp hactive
    rw [hnil] at hmem
    cases hmem
  · intro hne
    obtain ⟨entry, hmem⟩ := List.exists_mem_of_ne_nil _ hne
    exact ⟨entry.1, entry.2, AList.mem_lookup_iff.mpr hmem⟩

theorem inStep_shared (h : d.inStep ev = true) : d.shared.InStep ev := by
  have hempty (hisEmpty : d.connections.entries.isEmpty = true) : ¬ d.shared.Present := by
    rw [present_iff]
    simpa using hisEmpty
  cases ev with
  | abandon n =>
    intro hpresent
    simp only [inStep, Bool.or_eq_true, beq_iff_eq] at h
    rcases h with (h | h) | h
    · exact absurd hpresent (hempty h)
    · exact .inl h
    · exact .inr (awaits_shared h)
  | advance n now =>
    intro t ht
    obtain ⟨task, htask, rfl⟩ := Option.map_eq_some_iff.mp ht
    simp only [inStep, htask, Option.all_some] at h
    refine ⟨fun hstage => ?_, fun hstage hpresent => ?_⟩
    · have hstage : task.stage = .routed := hstage
      simp only [hstage, Bool.or_eq_true, Bool.not_eq_true', List.isEmpty_eq_false_iff] at h
      exact h.imp present_iff.mpr awaits_shared
    · have hstage : task.stage = .deregistered true := hstage
      simp only [hstage, Bool.or_eq_true] at h
      exact awaits_shared (h.resolve_left fun hisEmpty => hempty hisEmpty hpresent)
  | _ => trivial

/-- In every run whose steps are in step, once every upgrade is settled and no task is between its
registry update and its change of the state, the downstream state is Connected if and only if some
charger is in the connections map; in particular the health is then not Idle. -/
theorem connected_iff_present (h : (step cx).run (new manager) events = some d)
    (hsteps : (step cx).Meets (fun d ev => d.inStep ev = true) (new manager) events)
    (hmanager : manager.downstreamState ≠ .connected)
    (hsettled : ∀ n task, d.tasks n = some task →
      task.stage.willConnect = false ∧ task.stage.willDisconnect = false) :
    (d.stateManager.downstreamState = .connected ↔ d.connections.entries ≠ []) ∧
      (d.connections.entries ≠ [] → d.stateManager.healthStatus ≠ .idle) := by
  have hnew : (new manager).shared.Reported := by
    refine ⟨?_, fun hconnected => absurd hconnected hmanager⟩
    rintro ⟨id, active, hactive⟩
    have hactive : (∅ : AList fun _ : String => ActiveConnection).lookup id = some active := hactive
    simp at hactive
  have hkept := (step cx).invariant_of_meets (P := fun d => d.shared.Reported)
    (fun _ _ _ hin hstep hs => hs.sharedStep (sharedStep_of_step hstep) (inStep_shared hin)) h
    hsteps hnew
  -- no task has yet to set the state
  have hnone {p : ConnectionStage → Bool}
      (hp : ∀ n task, d.tasks n = some task → p task.stage = false) :
      ¬ ∃ n t, d.shared.tasks n = some t ∧ p t.stage = true := by
    rintro ⟨n, t, ht, hstage⟩
    obtain ⟨task, htask, rfl⟩ := Option.map_eq_some_iff.mp ht
    rw [show task.view.stage = task.stage from rfl, hp n task htask] at hstage
    cases hstage
  -- whoever was to set Connected has done so
  have hconnected : d.connections.entries ≠ [] → d.stateManager.downstreamState = .connected := by
    intro hne
    exact (hkept.present (present_iff.mpr hne)).resolve_right
      (hnone fun n task htask => (hsettled n task htask).1)
  refine ⟨⟨fun hstate => ?_, hconnected⟩, fun hne hidle => ?_⟩
  · exact present_iff.mp ((hkept.absent hstate).resolve_right
      (hnone fun n task htask => (hsettled n task htask).2))
  · have hstate := hconnected hne
    unfold ConnectionStateManager.healthStatus at hidle
    rw [hstate] at hidle
    cases hbound : d.stateManager.listenerBound <;> simp only [hbound] at hidle
    · cases hidle
    · cases hup : d.stateManager.upstreamState <;>
        cases hmqtt : d.stateManager.mqttState <;> simp [hup, hmqtt] at hidle

end

theorem connected_iff_present_reconnected : ∃ d, runOfDefaults reconnected = some d ∧
    d.stateManager.downstreamState = .connected ∧ d.connections.entries ≠ [] := by
  have hrun : ((runOfDefaults reconnected).map fun d => (d.opened,
      (d.tasks 0).map ConnectionTask.stage, (d.tasks 1).map ConnectionTask.stage,
      d.connections.entries.isEmpty)) = some (2, some .running, some .running, false) := by
    decide +kernel
  obtain ⟨d, hd, hvalues⟩ := Option.map_eq_some_iff.mp hrun
  simp only [Prod.mk.injEq, List.isEmpty_eq_false_iff] at hvalues
  obtain ⟨hopened, hfirst, hsecond, hne⟩ := hvalues
  refine ⟨d, hd, (connected_iff_present hd (by decide +kernel) (by decide) ?_).1.mpr hne, hne⟩
  intro n task htask
  have hrunning : task.stage = .running := by
    have hn : n < 2 := by
      by_contra hn
      have hnone := (sane_of_run hd).fresh n (by rw [show d.shared.opened = 2 from hopened]; omega)
      rw [shared_tasks htask] at hnone
      cases hnone
    have hstage : (d.tasks n).map ConnectionTask.stage = some .running := by
      obtain rfl | rfl : n = 0 ∨ n = 1 := by omega
      · exact hfirst
      · exact hsecond
    rw [htask] at hstage
    exact Option.some.inj hstage
  rw [hrunning]
  exact ⟨rfl, rfl⟩

/-- `CP01` is connected; an upgrade for `CP02` is answered and never completes. -/
def upgradeGivenUp : List ProxyEvent :=
  [.upgrade "CP01" (some "ocpp1.6")] ++ List.replicate 6 (.advance 0 0) ++
    [.upgrade "CP02" (some "ocpp1.6"), .abandon 1]

/-- The health is Idle while the session of `CP01` runs. -/
theorem not_connected_iff_present_upgradeGivenUp :
    ∃ d, (step { crates := .ofTable [], sessionConfig := {} }).run (new { listenerBound := true })
        upgradeGivenUp = some d ∧
      (d.tasks 0).map ConnectionTask.stage = some .running ∧
      (d.tasks 1).map ConnectionTask.stage = some .finished ∧ d.tasks 2 = none ∧
      d.connections.entries ≠ [] ∧ d.stateManager.downstreamState = .connecting ∧
      d.stateManager.healthStatus = .idle := by
  have hrun : ((step { crates := .ofTable [], sessionConfig := {} }).run
      (new { listenerBound := true }) upgradeGivenUp).map (fun d =>
        ((d.tasks 0).map ConnectionTask.stage, (d.tasks 1).map ConnectionTask.stage,
          (d.tasks 2).isNone, d.connections.entries.isEmpty, d.stateManager.downstreamState,
          d.stateManager.healthStatus)) =
      some (some .running, some .finished, true, false, .connecting, .idle) := by
    decide +kernel
  obtain ⟨d, hd, hvalues⟩ := Option.map_eq_some_iff.mp hrun
  simp only [Prod.mk.injEq, Option.isNone_iff_eq_none, List.isEmpty_eq_false_iff] at hvalues
  exact ⟨d, hd, hvalues⟩

end DownstreamState

end OcppProxy

import OcppProxy.Registry
import OcppProxy.SessionManager

/-!
# What the connection tasks do to the shared registries

The connections map, the command router and the downstream state, with the identity and the stage of
every task. `SharedStep` lists what a step of the proxy can do to them; later proofs take a step
apart with `sharedStep_of_step`.
-/

namespace OcppProxy

structure TaskView where
  chargePointId : String
  generation : Nat
  stage : ConnectionStage
  deriving DecidableEq, Repr

def ConnectionTask.view (task : ConnectionTask) : TaskView :=
  { chargePointId := task.chargePointId, generation := task.generation, stage := task.stage }

/-- The two registries, the downstream state and the tasks. -/
structure SharedView where
  tasks : Nat → Option TaskView
  entries : String → Option ActiveConnection
  routes : String → Option Registration
  downstream : ConnectionState
  generation : Nat
  opened : Nat

def DownstreamState.shared (d : DownstreamState) : SharedView where
  tasks n := (d.tasks n).map ConnectionTask.view
  entries := d.connections.lookup
  routes := d.commandRouter.find?
  downstream := d.stateManager.downstreamState
  generation := d.generation
  opened := d.opened

/-- The stages between the insertion into the connections map and the deregistration. -/
def ConnectionStage.isEntered : ConnectionStage → Bool
  | registered | routed | connected _ _ | announced | running | returned | unrouted => true
  | _ => false

/-- The stages between the registration with the command router and the deregistration. -/
def ConnectionStage.isRouted : ConnectionStage → Bool
  | routed | connected _ _ | announced | running | returned => true
  | _ => false

/-- The task will set the downstream state to Connected, unless its upgrade never completes. -/
def ConnectionStage.willConnect : ConnectionStage → Bool
  | upgrading | numbered | registered | routed => true
  | _ => false

def ConnectionStage.willDisconnect : ConnectionStage → Bool
  | deregistered true => true
  | _ => false

namespace SharedView

def setStage (n : Nat) (t : TaskView) (stage : ConnectionStage) (v : SharedView) : SharedView :=
  { v with tasks := Function.update v.tasks n (some { t with stage }) }

def activeOf (n : Nat) (t : TaskView) : ActiveConnection :=
  { generation := t.generation, cancel := n }

end SharedView

inductive SharedStep : ProxyEvent → SharedView → SharedView → Prop
  | idle {ev v} : SharedStep ev v v
  | upgraded {v id header} : SharedStep (.upgrade id header) v
      { v with
        downstream := .connecting
        tasks := Function.update v.tasks v.opened (some ⟨id, 0, .upgrading⟩)
        opened := v.opened + 1 }
  | abandoned {v n t} (ht : v.tasks n = some t) (hstage : t.stage = .upgrading) :
      SharedStep (.abandon n) v (v.setStage n t .finished)
  | numbered {v n now t} (ht : v.tasks n = some t) (hstage : t.stage = .upgrading) :
      SharedStep (.advance n now) v
        { v with
          generation := v.generation + 1
          tasks := Function.update v.tasks n (some ⟨t.chargePointId, v.generation, .numbered⟩) }
  | inserted {v n now t} (ht : v.tasks n = some t) (hstage : t.stage = .numbered) :
      SharedStep (.advance n now) v
        { v.setStage n t .registered with
          entries := Function.update v.entries t.chargePointId (some (SharedView.activeOf n t)) }
  | routed {v n now t} (ht : v.tasks n = some t) (hstage : t.stage = .registered) :
      SharedStep (.advance n now) v
        { v.setStage n t .routed with
          routes := Function.update v.routes t.chargePointId (some ⟨t.generation, n⟩) }
  | connected {v n now t upstream downstream} (ht : v.tasks n = some t)
      (hstage : t.stage = .routed) :
      SharedStep (.advance n now) v
        { v.setStage n t (.connected upstream downstream) with downstream := .connected }
  /-- A task goes on without touching what is shared. -/
  | moved {v n now t stage} (ht : v.tasks n = some t)
      (hentered : stage.isEntered = t.stage.isEntered)
      (hrouted : stage.isRouted = t.stage.isRouted)
      (hwill : t.stage.willConnect = false ∧ stage.willConnect = false)
      (hleft : t.stage.willDisconnect = false ∧ stage.willDisconnect = false) :
      SharedStep (.advance n now) v (v.setStage n t stage)
  | unrouted {v n now t} (ht : v.tasks n = some t) (hstage : t.stage = .returned) :
      SharedStep (.advance n now) v
        { v.setStage n t .unrouted with
          routes := if (v.routes t.chargePointId).any (·.generation == t.generation) then
            Function.update v.routes t.chargePointId none else v.routes }
  | deregistered {v n now t} (ht : v.tasks n = some t) (hstage : t.stage = .unrouted) :
      SharedStep (.advance n now) v
        (if (v.entries t.chargePointId).any (·.generation == t.generation) then
          { v.setStage n t (.deregistered true) with
            entries := Function.update v.entries t.chargePointId none }
        else v.setStage n t (.deregistered false))
  | disconnected {v n now t upstream downstream} (ht : v.tasks n = some t)
      (hstage : t.stage = .deregistered true) :
      SharedStep (.advance n now) v
        { v.setStage n t (.disconnected upstream downstream) with downstream := .disconnected }

namespace DownstreamState

section
variable {cx : ProxyContext} {d d' : DownstreamState} {n : Nat} {task : ConnectionTask}

theorem shared_modifyTask (f : ConnectionTask → ConnectionTask) :
    (d.modifyTask n f).shared = { d.shared with
      tasks := Function.update d.shared.tasks n ((d.tasks n).map fun t => (f t).view) } := by
  have htasks : (d.modifyTask n f).shared.tasks =
      Function.update d.shared.tasks n ((d.tasks n).map fun t => (f t).view) := by
    funext k
    by_cases hk : k = n
    · subst hk
      simp [shared, modifyTask, Option.map_map, Function.comp_def]
    · simp [shared, modifyTask, hk]
  rw [← htasks]
  rfl

/-- A change of a task that it does not show. -/
theorem shared_modifyTask_of_view (f : ConnectionTask → ConnectionTask)
    (hf : ∀ t, (f t).view = t.view) : (d.modifyTask n f).shared = d.shared := by
  rw [shared_modifyTask]
  have htasks : Function.update d.shared.tasks n ((d.tasks n).map fun t => (f t).view) =
      d.shared.tasks := by
    funext k
    by_cases hk : k = n
    · subst hk
      simp [shared, hf]
    · simp [hk]
  rw [htasks]

theorem shared_tasks (htask : d.tasks n = some task) : d.shared.tasks n = some task.view := by
  simp [shared, htask]

theorem shared_setStage {t : TaskView} (d₁ : DownstreamState) (stage : ConnectionStage)
    (ht : d₁.shared.tasks n = some t) :
    (d₁.setStage n stage).shared = d₁.shared.setStage n t stage := by
  obtain ⟨task, htask, rfl⟩ := Option.map_eq_some_iff.mp ht
  rw [setStage, shared_modifyTask, htask]
  rfl

theorem shared_registerConnection : (d.registerConnection n task).shared = { d.shared with
    entries := Function.update d.shared.entries task.chargePointId
      (some (SharedView.activeOf n task.view)) } := by
  have hentries : (d.registerConnection n task).connections.lookup =
      Function.update d.shared.entries task.chargePointId
        (some (SharedView.activeOf n task.view)) := by
    funext id
    rw [lookup_registerConnection]
    by_cases hid : id = task.chargePointId
    · subst hid
      simp
      rfl
    · simp [hid, shared]
  rw [← hentries]
  unfold registerConnection
  dsimp only
  split
  · exact shared_modifyTask_of_view _ fun _ => rfl
  · rfl

theorem shared_register (id : String) (generation : Nat) :
    (d.commandRouter.register id generation n).find? =
      Function.update d.shared.routes id (some ⟨generation, n⟩) := by
  funext id'
  by_cases hid : id' = id
  · subst hid
    simp
  · simp [hid, shared]

theorem shared_deregister (id : String) (generation : Nat) :
    (d.commandRouter.deregister id generation).2.find? =
      if (d.shared.routes id).any (·.generation == generation) then
        Function.update d.shared.routes id none
      else d.shared.routes := by
  funext id'
  rw [CommandRouter.find?_deregister]
  by_cases hid : id' = id
  · subst hid
    by_cases hown : (d.commandRouter.find? id').any (·.generation == generation) = true <;>
      simp [shared, hown]
  · by_cases hown : (d.commandRouter.find? id).any (·.generation == generation) = true <;>
      simp [shared, hown, hid]

theorem shared_deregisterConnection (id : String) (generation : Nat) :
    (d.deregisterConnection id generation).2.shared =
      if (d.shared.entries id).any (·.generation == generation) then
        { d.shared with entries := Function.update d.shared.entries id none }
      else d.shared := by
  rw [(deregisterConnection_eq id generation).2]
  by_cases hown : (d.connections.lookup id).any (·.generation == generation) = true
  · have hown' : (d.shared.entries id).any (·.generation == generation) = true := hown
    have herase : (d.connections.erase id).lookup =
        Function.update (d.shared.entries) id none := by
      funext id'
      by_cases hid : id' = id
      · subst hid
        simp
      · simp [hid, shared]
    rw [if_pos hown, if_pos hown', ← herase]
    rfl
  · have hown' : ¬ (d.shared.entries id).any (·.generation == generation) = true := hown
    rw [if_neg hown, if_neg hown']

theorem shared_putSession (id : String) (logged : Nat) {session : Session}
    (hsession : session.manager.downstreamState = d.stateManager.downstreamState) :
    (d.putSession n id logged session).shared = d.shared := by
  unfold putSession
  rw [shared_modifyTask_of_view]
  · simp only [shared, hsession]
  · exact fun _ => rfl

/-- A task whose step changes nothing but its stage. -/
theorem sharedStep_setStage {now : Time} {d₁ : DownstreamState} {stage : ConnectionStage}
    (htask : d.tasks n = some task) (hshared : d₁.shared = d.shared)
    (hentered : stage.isEntered = task.stage.isEntered)
    (hrouted : stage.isRouted = task.stage.isRouted)
    (hwill : task.stage.willConnect = false ∧ stage.willConnect = false)
    (hleft : task.stage.willDisconnect = false ∧ stage.willDisconnect = false) :
    SharedStep (.advance n now) d.shared (d₁.setStage n stage).shared := by
  have ht := shared_tasks htask
  rw [shared_setStage d₁ stage (hshared ▸ ht), hshared]
  exact .moved ht hentered hrouted hwill hleft

/-- A task asks whether it is still the registered connection. -/
theorem sharedStep_deregistered {now : Time} (htask : d.tasks n = some task)
    (hstage : task.stage = .unrouted) :
    SharedStep (.advance n now) d.shared
      ((d.deregisterConnection task.chargePointId task.generation).2.setStage n
        (.deregistered (d.deregisterConnection task.chargePointId task.generation).1)).shared := by
  have ht := shared_tasks htask
  have hstep := @SharedStep.deregistered _ n now _ ht hstage
  have hshared := shared_deregisterConnection (d := d) task.chargePointId task.generation
  have hfound := (deregisterConnection_eq (d := d) task.chargePointId task.generation).1
  have htask' : (d.deregisterConnection task.chargePointId task.generation).2.shared.tasks n =
      some task.view := by
    rw [hshared]
    split <;> exact ht
  rw [shared_setStage (t := task.view) _ _ htask', hshared, hfound]
  by_cases hown : (d.connections.lookup task.chargePointId).any
      (·.generation == task.generation) = true
  · have hown' : (d.shared.entries task.chargePointId).any
        (·.generation == task.generation) = true := hown
    have hown'' : (d.shared.entries task.view.chargePointId).any
        (·.generation == task.view.generation) = true := hown
    rw [if_pos hown''] at hstep
    rw [hown, if_pos hown']
    exact hstep
  · have hown' : ¬ (d.shared.entries task.chargePointId).any
        (·.generation == task.generation) = true := hown
    have hown'' : ¬ (d.shared.entries task.view.chargePointId).any
        (·.generation == task.view.generation) = true := hown
    rw [if_neg hown''] at hstep
    rw [eq_false_of_ne_true hown, if_neg hown']
    exact hstep

theorem sharedStep_of_advance {now : Time} (htask : d.tasks n = some task)
    (h : d.advance cx now n task = some d') :
    SharedStep (.advance n now) d.shared d'.shared := by
  have ht := shared_tasks htask
  have hmoved {d₁ : DownstreamState} {stage stage' : ConnectionStage} (hstage : task.stage = stage)
      (hshared : d₁.shared = d.shared) (hentered : stage'.isEntered = stage.isEntered)
      (hrouted : stage'.isRouted = stage.isRouted)
      (hwill : stage.willConnect = false ∧ stage'.willConnect = false)
      (hleft : stage.willDisconnect = false ∧ stage'.willDisconnect = false) :
      SharedStep (.advance n now) d.shared (d₁.setStage n stage').shared := by
    subst hstage
    exact sharedStep_setStage htask hshared hentered hrouted hwill hleft
  -- a step that changes more than the stage of the task
  have hset {d₁ : DownstreamState} {stage : ConnectionStage}
      (htask₁ : d₁.shared.tasks n = some task.view)
      (hstep : SharedStep (.advance n now) d.shared (d₁.shared.setStage n task.view stage)) :
      SharedStep (.advance n now) d.shared (d₁.setStage n stage).shared := by
    rw [shared_setStage d₁ stage htask₁]
    exact hstep
  have hadvance := h
  unfold advance at h
  split at h
  · rename_i hstage
    cases h
    rw [shared_modifyTask]
    simp only [htask]
    exact .numbered ht hstage
  · rename_i hstage
    cases h
    have hregister := @shared_registerConnection d n task
    refine hset ?_ ?_
    · rw [hregister]
      exact ht
    · rw [hregister]
      exact .inserted ht hstage
  · rename_i hstage
    cases h
    have hstep := @SharedStep.routed _ n now _ ht hstage
    rw [show task.view.chargePointId = task.chargePointId from rfl,
      show task.view.generation = task.generation from rfl, ← shared_register] at hstep
    exact hset ht hstep
  · rename_i hstage
    cases h
    exact hset ht (.connected ht hstage)
  · rename_i hstage
    cases h
    exact hmoved hstage rfl rfl rfl ⟨rfl, rfl⟩ ⟨rfl, rfl⟩
  · rename_i hstage
    cases h
    refine hmoved hstage (shared_putSession _ _ ?_) rfl rfl ⟨rfl, rfl⟩ ⟨rfl, rfl⟩
    exact (Session.setUpstreamState_manager _ now .connecting).1.downstreamState
  · rename_i hstage
    split at h
    · cases h
      exact hmoved hstage rfl rfl rfl ⟨rfl, rfl⟩ ⟨rfl, rfl⟩
    · cases h
  · rename_i hstage
    cases h
    have hstep := @SharedStep.unrouted _ n now _ ht hstage
    rw [show task.view.chargePointId = task.chargePointId from rfl,
      show task.view.generation = task.generation from rfl, ← shared_deregister] at hstep
    exact hset ht hstep
  · rename_i hstage
    rw [advance, hstage] at hadvance
    cases hadvance
    exact sharedStep_deregistered htask hstage
  · rename_i hstage
    cases h
    exact hset ht (.disconnected ht hstage)
  · rename_i hstage
    cases h
    exact hmoved hstage rfl rfl rfl ⟨rfl, rfl⟩ ⟨rfl, rfl⟩
  · rename_i hstage
    cases h
    exact hmoved hstage rfl rfl rfl ⟨rfl, rfl⟩ ⟨rfl, rfl⟩
  · cases h

/-- What every step of the proxy does to the shared state. -/
theorem sharedStep_of_step {ev : ProxyEvent} (h : step cx d ev = some d') :
    SharedStep ev d.shared d'.shared := by
  cases ev with
  | upgrade id header =>
    cases h
    unfold wsUpgradeHandler
    split
    · have hopened : ({ d with
          stateManager := d.stateManager.transition .downstream .connecting
          tasks := Function.update d.tasks d.opened (some { chargePointId := id })
          opened := d.opened + 1 } : DownstreamState).shared = { d.shared with
            downstream := .connecting
            tasks := Function.update d.shared.tasks d.shared.opened (some ⟨id, 0, .upgrading⟩)
            opened := d.shared.opened + 1 } := by
        have htasks : (fun n => (Function.update d.tasks d.opened
            (some { chargePointId := id }) n).map ConnectionTask.view) =
              Function.update d.shared.tasks d.shared.opened (some ⟨id, 0, .upgrading⟩) := by
          funext n
          by_cases hn : n = d.opened
          · subst hn
            simp [shared, ConnectionTask.view]
          · simp [shared, hn]
        rw [← htasks]
        rfl
      rw [hopened]
      exact .upgraded
    · exact .idle
  | abandon n =>
    obtain ⟨task, htask, h⟩ := Option.bind_eq_some_iff.mp h
    split at h
    · cases h
      rw [shared_setStage _ _ (shared_tasks htask)]
      exact .abandoned (shared_tasks htask) ‹_›
    · cases h
  | advance n now =>
    obtain ⟨task, htask, h⟩ := Option.bind_eq_some_iff.mp h
    exact sharedStep_of_advance htask h
  | session n ev =>
    obtain ⟨task, htask, h⟩ := Option.bind_eq_some_iff.mp h
    obtain ⟨session, -, h⟩ := Option.bind_eq_some_iff.mp h
    unfold sessionStep at h
    split at h
    · rename_i hadmits
      obtain ⟨session', hstep, rfl⟩ := Option.map_eq_some_iff.mp h
      have hmanager : ∀ manager, ev.input ≠ .manager manager := by
        intro manager hm
        rw [hm] at hadmits
        cases hadmits
      have hsame := (Session.tally_of_step hstep hmanager).outside.downstreamState
      rw [shared_putSession]
      · exact .idle
      · exact hsame
    · cases h
  | dispatch id request =>
    simp only [DownstreamState.step] at h
    split at h <;> (cases h; exact .idle)
  | shutdown =>
    cases h
    exact .idle

end

end DownstreamState

namespace SharedView

/-- What holds of the shared state after any steps: generations tell numbered tasks apart, and an
entry of the connections map is a task that has entered and not left. -/
structure Sane (v : SharedView) : Prop where
  fresh : ∀ n, v.opened ≤ n → v.tasks n = none
  positive : 0 < v.generation
  generation_lt : ∀ n t, v.tasks n = some t → t.generation < v.generation
  generation_inj : ∀ m n t u, v.tasks m = some t → v.tasks n = some u →
    t.generation = u.generation → t.generation ≠ 0 → m = n
  numbered : ∀ n t, v.tasks n = some t → t.stage = .numbered ∨ t.stage.isEntered = true →
    t.generation ≠ 0
  entry : ∀ id active, v.entries id = some active → ∃ t, v.tasks active.cancel = some t ∧
    t.chargePointId = id ∧ active = activeOf active.cancel t ∧ t.stage.isEntered = true

section
variable {v w : SharedView} {n : Nat} {t : TaskView} {stage : ConnectionStage}

theorem tasks_setStage (k : Nat) : (v.setStage n t stage).tasks k =
    if k = n then some { t with stage } else v.tasks k :=
  Function.update_apply ..

/-- A task after a change of stage was there before, with another stage if it is the one. -/
theorem before_setStage (ht : v.tasks n = some t) {k : Nat} {u : TaskView}
    (hu : (v.setStage n t stage).tasks k = some u) :
    (k = n ∧ u = { t with stage } ∨ k ≠ n ∧ v.tasks k = some u) ∧
      ∃ u', v.tasks k = some u' ∧ u'.generation = u.generation := by
  rcases eq_of_update hu with ⟨rfl, rfl⟩ | ⟨hk, hu⟩
  · exact ⟨.inl ⟨rfl, rfl⟩, t, ht, rfl⟩
  · exact ⟨.inr ⟨hk, hu⟩, u, hu, rfl⟩

/-- A task moves on. It stays entered while it has an entry. -/
theorem Sane.setStage (hv : v.Sane) (ht : v.tasks n = some t)
    (hnumbered : stage = .numbered ∨ stage.isEntered = true → t.generation ≠ 0)
    (hentered : ∀ id active, v.entries id = some active → active.cancel = n →
      stage.isEntered = true) : (v.setStage n t stage).Sane where
  fresh k hk := by
    have hkn : k ≠ n := by
      rintro rfl
      rw [hv.fresh k hk] at ht
      cases ht
    rw [tasks_setStage, if_neg hkn]
    exact hv.fresh k hk
  positive := hv.positive
  generation_lt k u hu := by
    obtain ⟨-, u', hu', hg⟩ := before_setStage ht hu
    exact hg ▸ hv.generation_lt k u' hu'
  generation_inj k l u x hu hx hg hne := by
    obtain ⟨-, u', hu', hgu⟩ := before_setStage ht hu
    obtain ⟨-, x', hx', hgx⟩ := before_setStage ht hx
    exact hv.generation_inj k l u' x' hu' hx' (by rw [hgu, hgx, hg]) (by rw [hgu]; exact hne)
  numbered k u hu hstage := by
    obtain ⟨⟨-, rfl⟩ | ⟨-, hu⟩, -⟩ := before_setStage ht hu
    · exact hnumbered hstage
    · exact hv.numbered k u hu hstage
  entry id active hactive := by
    obtain ⟨u, hu, hid, hactiveOf, hin⟩ := hv.entry id active hactive
    by_cases hk : active.cancel = n
    · have htu : t = u := by
        rw [hk, ht] at hu
        exact Option.some.inj hu
      subst htu
      refine ⟨{ t with stage }, by rw [tasks_setStage, if_pos hk], hid, hactiveOf, ?_⟩
      exact hentered id active hactive hk
    · exact ⟨u, by rw [tasks_setStage, if_neg hk, hu], hid, hactiveOf, hin⟩

/-- Whether the task of an entry is entered does not change when it stays entered. -/
theorem Sane.setStage_of_entered (hv : v.Sane) (ht : v.tasks n = some t)
    (hstage : stage.isEntered = t.stage.isEntered) (hne : stage ≠ .numbered) :
    (v.setStage n t stage).Sane := by
  refine hv.setStage ht (fun h => ?_) fun id active hactive hk => ?_
  · exact hv.numbered n t ht (.inr (hstage ▸ h.resolve_left hne))
  · obtain ⟨u, hu, -, -, hin⟩ := hv.entry id active hactive
    rw [hk, ht, Option.some.injEq] at hu
    rw [hstage, hu, hin]

/-- The entry of a charge point belongs to a task if it has the task's generation. -/
theorem Sane.entry_of_generation (hv : v.Sane) (ht : v.tasks n = some t)
    (hin : t.stage.isEntered = true) {active : ActiveConnection} {id : String}
    (hactive : v.entries id = some active) (hg : active.generation = t.generation) :
    active.cancel = n := by
  obtain ⟨u, hu, -, hactiveOf, -⟩ := hv.entry id active hactive
  have hgu : t.generation = u.generation := by
    rw [← hg, hactiveOf]
    rfl
  exact (hv.generation_inj n _ t u ht hu hgu (hv.numbered n t ht (.inr hin))).symm

/-- The routes and the downstream state have no part in it. -/
theorem Sane.congr (hv : v.Sane) (htasks : w.tasks = v.tasks) (hentries : w.entries = v.entries)
    (hgeneration : w.generation = v.generation) (hopened : w.opened = v.opened) : w.Sane where
  fresh k hk := htasks ▸ hv.fresh k (hopened ▸ hk)
  positive := hgeneration ▸ hv.positive
  generation_lt k u hu := hgeneration ▸ hv.generation_lt k u (htasks ▸ hu)
  generation_inj k l u x hu hx := hv.generation_inj k l u x (htasks ▸ hu) (htasks ▸ hx)
  numbered k u hu := hv.numbered k u (htasks ▸ hu)
  entry id active hactive := htasks ▸ hv.entry id active (hentries ▸ hactive)

theorem Sane.upgraded (hv : v.Sane) (id : String) (downstream : ConnectionState) :
    Sane { v with
      downstream
      tasks := Function.update v.tasks v.opened (some ⟨id, 0, .upgrading⟩)
      opened := v.opened + 1 } := by
  refine ⟨fun k hk => ?_, hv.positive, fun k u hu => ?_, fun k l u x hu hx hg hne => ?_,
    fun k u hu hstage => ?_, fun id' active hactive => ?_⟩
  · have hk : v.opened + 1 ≤ k := hk
    have hne : k ≠ v.opened := by omega
    exact (Function.update_of_ne hne ..).trans (hv.fresh k (by omega))
  · rcases eq_of_update hu with ⟨-, rfl⟩ | ⟨-, hu⟩
    · exact hv.positive
    · exact hv.generation_lt k u hu
  · rcases eq_of_update hu with ⟨-, rfl⟩ | ⟨-, hu⟩
    · exact absurd rfl hne
    · rcases eq_of_update hx with ⟨-, rfl⟩ | ⟨-, hx⟩
      · exact absurd hg hne
      · exact hv.generation_inj k l u x hu hx hg hne
  · rcases eq_of_update hu with ⟨-, rfl⟩ | ⟨-, hu⟩
    · rcases hstage with h | h <;> cases h
    · exact hv.numbered k u hu hstage
  · obtain ⟨u, hu, hrest⟩ := hv.entry id' active hactive
    have hne : active.cancel ≠ v.opened := by
      intro h
      rw [h, hv.fresh v.opened le_rfl] at hu
      cases hu
    exact ⟨u, (Function.update_of_ne hne ..).trans hu, hrest⟩

theorem Sane.numberTask (hv : v.Sane) (ht : v.tasks n = some t) (hstage : t.stage = .upgrading) :
    Sane { v with
      generation := v.generation + 1
      tasks := Function.update v.tasks n
        (some ⟨t.chargePointId, v.generation, .numbered⟩) } := by
  refine ⟨fun k hk => ?_, Nat.succ_pos _, fun k u hu => ?_, fun k l u x hu hx hg hne => ?_,
    fun k u hu hnumbered => ?_, fun id active hactive => ?_⟩
  · have hne : k ≠ n := by
      rintro rfl
      rw [hv.fresh k hk] at ht
      cases ht
    exact (Function.update_of_ne hne ..).trans (hv.fresh k hk)
  · rcases eq_of_update hu with ⟨-, rfl⟩ | ⟨-, hu⟩
    · exact Nat.lt_succ_self _
    · exact Nat.lt_succ_of_lt (hv.generation_lt k u hu)
  · rcases eq_of_update hu with ⟨hk, rfl⟩ | ⟨-, hu⟩ <;>
      rcases eq_of_update hx with ⟨hl, rfl⟩ | ⟨-, hx⟩
    · exact hk.trans hl.symm
    · have hlt := hv.generation_lt l x hx
      dsimp only at hg
      omega
    · have hlt := hv.generation_lt k u hu
      dsimp only at hg
      omega
    · exact hv.generation_inj k l u x hu hx hg hne
  · rcases eq_of_update hu with ⟨-, rfl⟩ | ⟨-, hu⟩
    · exact hv.positive.ne'
    · exact hv.numbered k u hu hnumbered
  · obtain ⟨u, hu, hid, hactiveOf, hin⟩ := hv.entry id active hactive
    have hne : active.cancel ≠ n := by
      intro h
      rw [h, ht, Option.some.injEq] at hu
      rw [← hu, hstage] at hin
      cases hin
    exact ⟨u, (Function.update_of_ne hne ..).trans hu, hid, hactiveOf, hin⟩

theorem Sane.insertEntry (hv : v.Sane) (ht : v.tasks n = some t) (hin : t.stage.isEntered = true) :
    Sane { v with
      entries := Function.update v.entries t.chargePointId (some (activeOf n t)) } := by
  refine ⟨hv.fresh, hv.positive, hv.generation_lt, hv.generation_inj, hv.numbered,
    fun id active hactive => ?_⟩
  dsimp only at hactive
  by_cases hid : id = t.chargePointId
  · subst hid
    rw [Function.update_self, Option.some.injEq] at hactive
    subst hactive
    exact ⟨t, ht, rfl, rfl, hin⟩
  · rw [Function.update_of_ne hid] at hactive
    exact hv.entry id active hactive

theorem Sane.removeEntry (hv : v.Sane) (id : String) :
    Sane { v with entries := Function.update v.entries id none } := by
  refine ⟨hv.fresh, hv.positive, hv.generation_lt, hv.generation_inj, hv.numbered,
    fun id' active hactive => ?_⟩
  dsimp only at hactive
  by_cases hid : id' = id
  · rw [hid, Function.update_self] at hactive
    cases hactive
  · rw [Function.update_of_ne hid] at hactive
    exact hv.entry id' active hactive

theorem Sane.sharedStep (hv : v.Sane) {ev : ProxyEvent} (h : SharedStep ev v w) : w.Sane := by
  cases h with
  | idle => exact hv
  | upgraded => exact hv.upgraded _ .connecting
  | abandoned ht hstage => exact hv.setStage_of_entered ht (by rw [hstage]; rfl) nofun
  | numbered ht hstage => exact hv.numberTask ht hstage
  | @inserted _ n now t ht hstage =>
    have hw : (v.setStage n t .registered).Sane :=
      hv.setStage ht (fun _ => hv.numbered n t ht (.inl hstage)) fun _ _ _ _ => rfl
    exact hw.insertEntry (t := { t with stage := .registered })
      (by rw [tasks_setStage, if_pos rfl]) rfl
  | @routed _ n now t ht hstage =>
    have hw : (v.setStage n t .routed).Sane :=
      hv.setStage_of_entered ht (by rw [hstage]; rfl) nofun
    exact hw.congr rfl rfl rfl rfl
  | @connected _ n now t upstream downstream ht hstage =>
    have hw : (v.setStage n t (.connected upstream downstream)).Sane :=
      hv.setStage_of_entered ht (by rw [hstage]; rfl) nofun
    exact hw.congr rfl rfl rfl rfl
  | moved ht hentered _ hwill _ =>
    refine hv.setStage_of_entered ht hentered ?_
    rintro rfl
    cases hwill.2
  | @unrouted _ n now t ht hstage =>
    have hw : (v.setStage n t .unrouted).Sane :=
      hv.setStage_of_entered ht (by rw [hstage]; rfl) nofun
    exact hw.congr rfl rfl rfl rfl
  | @deregistered _ n now t ht hstage =>
    have hin : t.stage.isEntered = true := by rw [hstage]; rfl
    -- an entry of the task is that of its charge point and its generation
    have hown : ∀ id active, v.entries id = some active → active.cancel = n →
        id = t.chargePointId ∧ active.generation = t.generation := by
      intro id active hactive hk
      obtain ⟨u, hu, hid, hactiveOf, -⟩ := hv.entry id active hactive
      rw [hk, ht, Option.some.injEq] at hu
      subst hu
      exact ⟨hid.symm, by rw [hactiveOf]; rfl⟩
    split
    · have hw : (({ v with entries := Function.update v.entries t.chargePointId none } :
          SharedView).setStage n t (.deregistered true)).Sane := by
        refine (hv.removeEntry t.chargePointId).setStage ht (by rintro (h | h) <;> cases h) ?_
        intro id active hactive hk
        by_cases hid : id = t.chargePointId
        · simp [hid] at hactive
        · exact absurd (hown id active (by simpa [hid] using hactive) hk).1 hid
      exact hw.congr rfl rfl rfl rfl
    · rename_i hfound
      refine hv.setStage ht (by rintro (h | h) <;> cases h) ?_
      intro id active hactive hk
      obtain ⟨rfl, hg⟩ := hown id active hactive hk
      exact absurd (by simp [hactive, hg]) hfound
  | @disconnected _ n now t upstream downstream ht hstage =>
    have hw : (v.setStage n t (.disconnected upstream downstream)).Sane :=
      hv.setStage_of_entered ht (by rw [hstage]; rfl) nofun
    exact hw.congr rfl rfl rfl rfl

theorem sane_new (stateManager : ConnectionStateManager) :
    (DownstreamState.new stateManager).shared.Sane where
  fresh _ _ := rfl
  positive := Nat.one_pos
  generation_lt _ _ h := by cases h
  generation_inj _ _ _ _ h := by cases h
  numbered _ _ h := by cases h
  entry id active h := by
    have h : (∅ : AList fun _ : String => ActiveConnection).lookup id = some active := h
    simp at h

end

end SharedView

end OcppProxy

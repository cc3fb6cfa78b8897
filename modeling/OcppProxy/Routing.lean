import OcppProxy.SharedState
import OcppProxy.Teardown

/-!
# Where the router's registrations lead

A registration leads into the channel of a task of its charge point, whatever other connections of
that charge point there are. A channel that no registration has led to yet has taken nothing, so a
step adds to what a channel took exactly what it dispatches there.
-/

namespace OcppProxy

def ConnectionStage.beforeRoute : ConnectionStage → Bool
  | upgrading | numbered | registered => true
  | _ => false

theorem ConnectionStage.not_isRouted_of_beforeRoute {stage : ConnectionStage}
    (h : stage.beforeRoute = true) : stage.isRouted = false := by
  cases stage <;> first | rfl | cases h

theorem ConnectionStage.willConnect_of_beforeRoute {stage : ConnectionStage}
    (h : stage.beforeRoute = true) : stage.willConnect = true := by
  cases stage <;> first | rfl | cases h

namespace SharedView

/-- Every registration leads to the task that made it, which has not deregistered. -/
def RoutesLead (v : SharedView) : Prop :=
  ∀ id r, v.routes id = some r → ∃ t, v.tasks r.tx = some t ∧ t.chargePointId = id ∧
    t.generation = r.generation ∧ t.stage.isRouted = true

/-- The task, if it is there, has not registered with the router. -/
def BeforeRoute (n : Nat) (v : SharedView) : Prop :=
  ∀ t, v.tasks n = some t → t.stage.beforeRoute = true

section
variable {v w : SharedView} {n : Nat} {t : TaskView} {stage : ConnectionStage} {ev : ProxyEvent}

/-- A task changes and stays routed if it was. -/
theorem RoutesLead.replace {u : TaskView} {v' : SharedView} (hv : v.RoutesLead)
    (hroutes : v'.routes = v.routes) (htasks : v'.tasks = Function.update v.tasks n (some u))
    (hkept : ∀ t, v.tasks n = some t → t.stage.isRouted = true →
      u.chargePointId = t.chargePointId ∧ u.generation = t.generation ∧ u.stage.isRouted = true) :
    v'.RoutesLead := by
  intro id r hr
  rw [hroutes] at hr
  obtain ⟨t, ht, hid, hgeneration, hrouted⟩ := hv id r hr
  rw [htasks]
  by_cases hn : r.tx = n
  · subst hn
    obtain ⟨hid', hgeneration', hrouted'⟩ := hkept t ht hrouted
    exact ⟨u, Function.update_self .., hid'.trans hid, hgeneration'.trans hgeneration, hrouted'⟩
  · exact ⟨t, by rw [Function.update_of_ne hn, ht], hid, hgeneration, hrouted⟩

/-- A task that is not routed changes. -/
theorem RoutesLead.replace_unrouted {u : TaskView} {v' : SharedView} (hv : v.RoutesLead)
    (hroutes : v'.routes = v.routes) (htasks : v'.tasks = Function.update v.tasks n (some u))
    (ht : v.tasks n = some t) (hout : t.stage.isRouted = false) : v'.RoutesLead := by
  refine hv.replace hroutes htasks fun t' ht' hrouted => ?_
  obtain rfl : t = t' := Option.some.inj (ht.symm.trans ht')
  rw [hout] at hrouted
  cases hrouted

theorem RoutesLead.register (hv : v.RoutesLead) (ht : v.tasks n = some t)
    (hstage : t.stage = .registered) : RoutesLead { v.setStage n t .routed with
      routes := Function.update v.routes t.chargePointId (some ⟨t.generation, n⟩) } := by
  have hkept : (v.setStage n t .routed).RoutesLead :=
    hv.replace_unrouted rfl rfl ht (by rw [hstage]; rfl)
  intro id r hr
  have hr : Function.update v.routes t.chargePointId (some ⟨t.generation, n⟩) id = some r := hr
  by_cases hid : id = t.chargePointId
  · subst hid
    rw [Function.update_self, Option.some.injEq] at hr
    subst hr
    exact ⟨{ t with stage := .routed }, Function.update_self .., rfl, rfl, rfl⟩
  · rw [Function.update_of_ne hid] at hr
    exact hkept id r hr

theorem RoutesLead.deregister (hv : v.RoutesLead) (ht : v.tasks n = some t) :
    RoutesLead { v.setStage n t .unrouted with
      routes := if (v.routes t.chargePointId).any (·.generation == t.generation) then
        Function.update v.routes t.chargePointId none else v.routes } := by
  -- a registration that stays is that of another task
  have hother {id : String} {r : Registration} (hr : v.routes id = some r) (hn : r.tx ≠ n) :
      ∃ u, (v.setStage n t .unrouted).tasks r.tx = some u ∧ u.chargePointId = id ∧
        u.generation = r.generation ∧ u.stage.isRouted = true := by
    obtain ⟨u, hu, hlead⟩ := hv id r hr
    exact ⟨u, (Function.update_of_ne hn ..).trans hu, hlead⟩
  intro id r hr
  dsimp only at hr
  split at hr
  · by_cases hid : id = t.chargePointId
    · rw [hid, Function.update_self] at hr
      cases hr
    · rw [Function.update_of_ne hid] at hr
      refine hother hr fun hn => hid ?_
      obtain ⟨u, hu, hcp, -⟩ := hv id r hr
      rw [hn, ht, Option.some.injEq] at hu
      rw [← hcp, hu]
  · rename_i hown
    refine hother hr fun hn => hown ?_
    obtain ⟨u, hu, hcp, hgeneration, -⟩ := hv id r hr
    rw [hn, ht, Option.some.injEq] at hu
    subst hu
    simp [hcp, hr, hgeneration]

theorem RoutesLead.sharedStep (hv : v.RoutesLead) (hs : v.Sane) (h : SharedStep ev v w) :
    w.RoutesLead := by
  cases h with
  | idle => exact hv
  | upgraded =>
    refine hv.replace (n := v.opened) rfl rfl fun t ht _ => ?_
    rw [hs.fresh v.opened le_rfl] at ht
    cases ht
  | abandoned ht hstage => exact hv.replace_unrouted rfl rfl ht (by rw [hstage]; rfl)
  | numbered ht hstage => exact hv.replace_unrouted rfl rfl ht (by rw [hstage]; rfl)
  | inserted ht hstage => exact hv.replace_unrouted rfl rfl ht (by rw [hstage]; rfl)
  | routed ht hstage => exact hv.register ht hstage
  | @connected _ n now t upstream downstream ht hstage =>
    refine hv.replace (n := n) (u := { t with stage := .connected upstream downstream }) rfl rfl
      fun t' ht' _ => ?_
    obtain rfl : t = t' := Option.some.inj (ht.symm.trans ht')
    exact ⟨rfl, rfl, rfl⟩
  | @moved _ n now t stage ht _ hrouted =>
    refine hv.replace (n := n) (u := { t with stage }) rfl rfl fun t' ht' hr => ?_
    obtain rfl : t = t' := Option.some.inj (ht.symm.trans ht')
    exact ⟨rfl, rfl, hrouted.trans hr⟩
  | unrouted ht hstage => exact hv.deregister ht
  | deregistered ht hstage =>
    split <;> exact hv.replace_unrouted rfl rfl ht (by rw [hstage]; rfl)
  | disconnected ht hstage => exact hv.replace_unrouted rfl rfl ht (by rw [hstage]; rfl)

/-- A task that has not registered after a step had not before it. -/
theorem BeforeRoute.of_sharedStep {k : Nat} (hs : v.Sane) (h : SharedStep ev v w)
    (hw : w.BeforeRoute k) : v.BeforeRoute k := by
  -- the task that the step is about is at this stage now
  have hset {n : Nat} {t u : TaskView} {w' : SharedView}
      (htasks : w'.tasks = Function.update v.tasks n (some u)) (hw : w'.BeforeRoute k)
      (ht : v.tasks n = some t) (hu : u.stage.beforeRoute = true → t.stage.beforeRoute = true) :
      v.BeforeRoute k := by
    intro t' ht'
    by_cases hk : k = n
    · subst hk
      obtain rfl : t = t' := Option.some.inj (ht.symm.trans ht')
      exact hu (hw u (by rw [htasks, Function.update_self]))
    · exact hw t' (by rw [htasks, Function.update_of_ne hk, ht'])
  cases h with
  | idle => exact hw
  | @upgraded _ id header =>
    intro t ht
    by_cases hk : k = v.opened
    · rw [hk, hs.fresh v.opened le_rfl] at ht
      cases ht
    · exact hw t ((Function.update_of_ne hk ..).trans ht)
  | abandoned ht hstage => exact hset rfl hw ht fun _ => by rw [hstage]; rfl
  | numbered ht hstage => exact hset rfl hw ht fun _ => by rw [hstage]; rfl
  | inserted ht hstage => exact hset rfl hw ht fun _ => by rw [hstage]; rfl
  | routed ht hstage => exact hset rfl hw ht fun _ => by rw [hstage]; rfl
  | connected ht hstage => exact hset rfl hw ht nofun
  | @moved _ n now t stage ht _ _ hwill =>
    refine hset rfl hw ht fun hbefore => ?_
    have hconnects := ConnectionStage.willConnect_of_beforeRoute hbefore
    rw [hwill.2] at hconnects
    cases hconnects
  | unrouted ht hstage => exact hset rfl hw ht nofun
  | @deregistered _ n now t ht hstage =>
    split at hw
    · exact hset rfl hw ht nofun
    · exact hset rfl hw ht nofun
  | disconnected ht hstage => exact hset rfl hw ht nofun

/-- A task stays one of its charge point. -/
theorem keepsId_of_sharedStep (h : SharedStep ev v w) (hs : v.Sane)
    (ht : v.tasks n = some t) : ∃ u, w.tasks n = some u ∧ u.chargePointId = t.chargePointId := by
  have hset {m : Nat} {t' u : TaskView} {w' : SharedView}
      (htasks : w'.tasks = Function.update v.tasks m (some u)) (ht' : v.tasks m = some t')
      (hu : u.chargePointId = t'.chargePointId) :
      ∃ u, w'.tasks n = some u ∧ u.chargePointId = t.chargePointId := by
    by_cases hn : n = m
    · subst hn
      obtain rfl : t = t' := Option.some.inj (ht.symm.trans ht')
      exact ⟨u, by rw [htasks, Function.update_self], hu⟩
    · exact ⟨t, by rw [htasks, Function.update_of_ne hn, ht], rfl⟩
  cases h with
  | idle => exact ⟨t, ht, rfl⟩
  | upgraded =>
    have hn : n ≠ v.opened := by
      rintro rfl
      rw [hs.fresh _ le_rfl] at ht
      cases ht
    exact ⟨t, (Function.update_of_ne hn ..).trans ht, rfl⟩
  | deregistered ht' =>
    split <;> exact hset rfl ht' rfl
  | abandoned ht' => exact hset rfl ht' rfl
  | numbered ht' => exact hset rfl ht' rfl
  | inserted ht' => exact hset rfl ht' rfl
  | routed ht' => exact hset rfl ht' rfl
  | connected ht' => exact hset rfl ht' rfl
  | moved ht' => exact hset rfl ht' rfl
  | unrouted ht' => exact hset rfl ht' rfl
  | disconnected ht' => exact hset rfl ht' rfl

theorem routesLead_new (manager : ConnectionStateManager) :
    (DownstreamState.new manager).shared.RoutesLead := by
  intro id r hr
  have hr : CommandRouter.empty.find? id = some r := hr
  cases hr

end

end SharedView

/-- A step adds to a channel what it accepts, or makes it anew. -/
theorem ConnectionStep.accepted_eq {cx : ProxyContext} {accepted : List CommandRequest}
    {v w : ConnectionView} (h : ConnectionStep cx accepted v w) :
    w.inbox.accepted = v.inbox.accepted ++ accepted ∨
      accepted = [] ∧ w.inbox.accepted = [] ∧ ∃ session, v.task = some (.registered, session) := by
  cases h with
  | routed => exact .inr ⟨rfl, rfl, _, rfl⟩
  | accepted => exact .inl rfl
  | _ => exact .inl (List.append_nil _).symm

namespace DownstreamState

structure Routed (d : DownstreamState) : Prop where
  sane : d.shared.Sane
  lead : d.shared.RoutesLead
  accounted : ∀ n, (d.view n).Accounted
  untouched : ∀ n, d.shared.BeforeRoute n → (d.inboxes n).accepted = []

section
variable {cx : ProxyContext} {d d' : DownstreamState} {ev : ProxyEvent} {n : Nat}

theorem Routed.fresh (h : d.Routed) : d.Fresh := by
  intro n hn
  simpa [shared] using h.sane.fresh n hn

/-- Only a routed task's channel takes a request. -/
theorem Routed.acceptedBy_eq_nil (h : d.Routed) (hbefore : d.shared.BeforeRoute n) :
    d.acceptedBy n ev = [] := by
  unfold acceptedBy
  split
  · refine if_neg fun haccepts => ?_
    simp only [Bool.and_eq_true, Option.any_eq_true, beq_iff_eq] at haccepts
    obtain ⟨⟨⟨r, hfind, htx⟩, -⟩, -⟩ := haccepts
    obtain ⟨t, ht, -, -, hrouted⟩ := h.lead _ r hfind
    rw [htx] at ht
    rw [ConnectionStage.not_isRouted_of_beforeRoute (hbefore t ht)] at hrouted
    cases hrouted
  · rfl

/-- What a channel took grows by what the step accepts into it. -/
theorem Routed.accepted_of_step (h : d.Routed) (hstep : step cx d ev = some d') (n : Nat) :
    (d'.inboxes n).accepted = (d.inboxes n).accepted ++ d.acceptedBy n ev := by
  rcases (connectionStep_of_step n h.fresh hstep).accepted_eq with hgrown | ⟨hnone, hnew, s, hs⟩
  · exact hgrown
  · have hbefore : d.shared.BeforeRoute n := by
      intro t ht
      obtain ⟨task, htask, rfl⟩ := Option.map_eq_some_iff.mp ht
      rw [view_of_task n htask] at hs
      have hstage : task.stage = .registered := (Prod.mk.inj (Option.some.inj hs)).1
      simp [ConnectionTask.view, hstage, ConnectionStage.beforeRoute]
    have hnew : (d'.inboxes n).accepted = [] := hnew
    rw [hnew, h.untouched n hbefore, h.acceptedBy_eq_nil hbefore, List.nil_append]

theorem Routed.step (h : d.Routed) (hstep : DownstreamState.step cx d ev = some d') :
    d'.Routed where
  sane := h.sane.sharedStep (sharedStep_of_step hstep)
  lead := h.lead.sharedStep h.sane (sharedStep_of_step hstep)
  accounted n := (h.accounted n).step (connectionStep_of_step n h.fresh hstep)
  untouched n hbefore := by
    have hbefore := hbefore.of_sharedStep h.sane (sharedStep_of_step hstep)
    rw [h.accepted_of_step hstep n, h.untouched n hbefore, h.acceptedBy_eq_nil hbefore,
      List.nil_append]

theorem routed_new (manager : ConnectionStateManager) : (new manager).Routed where
  sane := SharedView.sane_new manager
  lead := SharedView.routesLead_new manager
  accounted := accounted_new manager
  untouched _ _ := rfl

end

end DownstreamState

end OcppProxy

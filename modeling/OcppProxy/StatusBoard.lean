import OcppProxy.Downstream

/-!
# The published upstream status

`set_upstream_state` and `handle_connection` change the shared connection states under a lock and
publish the pair they read there after it. Here these are steps of their own, of any number of
connections. What a session does between its calls of `set_upstream_state` is left open: it sets
Connecting first and Disconnected last.
-/

namespace OcppProxy

/-- The task of one connection, with its session's calls of `set_upstream_state`. -/
structure StatusTask where
  chargePointId : String
  stage : ConnectionStage := .upgrading
  /-- The state its session last set. -/
  lastSet : Option ConnectionState := none
  /-- The pair that its session has read and not yet published. -/
  unpublished : Option (ConnectionState × ConnectionState) := none
  deriving DecidableEq, Repr

/-- The shared connection states, and what was published of them. -/
structure StatusBoard where
  upstream : ConnectionState
  downstream : ConnectionState
  /-- The state changes handed to the MQTT channel. -/
  published : List (String × ConnectionState × ConnectionState)
  /-- Whose connection is the registered one. -/
  current : String → Option Nat
  tasks : Nat → Option StatusTask
  opened : Nat

inductive StatusEvent where
  /-- `ws_upgrade_handler` accepts an upgrade. -/
  | upgrade (chargePointId : String)
  /-- The upgrade of a task never completes. -/
  | abandon (n : Nat)
  /-- `handle_connection` of a task goes on to its next shared access. -/
  | advance (n : Nat)
  /-- The session of a task calls `set_upstream_state`, up to the end of the lock. -/
  | setUpstreamState (n : Nat) (newState : ConnectionState)
  /-- `set_upstream_state` publishes the pair it read. -/
  | publish (n : Nat)
  deriving DecidableEq, Repr

namespace StatusTask

/-- `run_session` is before the end of its last call of `set_upstream_state`. -/
def isLive (t : StatusTask) : Bool :=
  decide (t.stage = .running) && (t.lastSet != some .disconnected || t.unpublished.isSome)

def isWriter (t : StatusTask) : Bool :=
  decide (t.stage = .running) && t.lastSet.isSome && t.lastSet != some .disconnected

def maySet (newState : ConnectionState) (t : StatusTask) : Bool :=
  decide (t.stage = .running) && t.unpublished.isNone && match t.lastSet with
    | none => newState == .connecting
    | some last => last != .disconnected

def toPublish (t : StatusTask) : Option (ConnectionState × ConnectionState) :=
  match t.stage with
  | .connected upstream downstream | .disconnected upstream downstream =>
    some (upstream, downstream)
  | _ => t.unpublished

end StatusTask

namespace StatusBoard

def new : StatusBoard where
  upstream := .disconnected
  downstream := .disconnected
  published := []
  current := fun _ => none
  tasks := fun _ => none
  opened := 0

def setTask (n : Nat) (t : StatusTask) (b : StatusBoard) : StatusBoard :=
  { b with tasks := Function.update b.tasks n (some t) }

def publishStatus (chargePointId : String) (pair : ConnectionState × ConnectionState)
    (b : StatusBoard) : StatusBoard :=
  { b with published := b.published ++ [(chargePointId, pair)] }

def advance (n : Nat) (t : StatusTask) (b : StatusBoard) : Option StatusBoard :=
  match t.stage with
  | .upgrading => some (b.setTask n { t with stage := .numbered })
  | .numbered => some { b.setTask n { t with stage := .registered } with
      current := Function.update b.current t.chargePointId (some n) }
  | .registered => some (b.setTask n { t with stage := .routed })
  | .routed => some { b.setTask n { t with stage := .connected b.upstream .connected } with
      downstream := .connected }
  | .connected upstream downstream =>
    some ((b.publishStatus t.chargePointId (upstream, downstream)).setTask n
      { t with stage := .announced })
  | .announced => some (b.setTask n { t with stage := .running })
  | .running =>
    if t.isLive then none else some (b.setTask n { t with stage := .returned })
  | .returned => some (b.setTask n { t with stage := .unrouted })
  | .unrouted =>
    if b.current t.chargePointId = some n then
      some { b.setTask n { t with stage := .deregistered true } with
        current := Function.update b.current t.chargePointId none }
    else some (b.setTask n { t with stage := .deregistered false })
  | .deregistered true =>
    some { b.setTask n { t with stage := .disconnected b.upstream .disconnected } with
      downstream := .disconnected }
  | .deregistered false => some (b.setTask n { t with stage := .finished })
  | .disconnected upstream downstream =>
    some ((b.publishStatus t.chargePointId (upstream, downstream)).setTask n
      { t with stage := .finished })
  | .finished => none

/-- `set_upstream_state` under the lock: it returns early where the state is the same. -/
def setUpstreamState (n : Nat) (newState : ConnectionState) (t : StatusTask) (b : StatusBoard) :
    StatusBoard :=
  if b.upstream = newState then b.setTask n { t with lastSet := some newState }
  else { b.setTask n { t with
      lastSet := some newState, unpublished := some (newState, b.downstream) } with
    upstream := newState }

def step : Machine StatusBoard StatusEvent := fun b ev =>
  match ev with
  | .upgrade chargePointId => some { b.setTask b.opened { chargePointId } with
      downstream := .connecting
      opened := b.opened + 1 }
  | .abandon n => (b.tasks n).bind fun t =>
    if t.stage = .upgrading then some (b.setTask n { t with stage := .finished }) else none
  | .advance n => (b.tasks n).bind fun t => b.advance n t
  | .setUpstreamState n newState => (b.tasks n).bind fun t =>
    if t.maySet newState then some (b.setUpstreamState n newState t) else none
  | .publish n => (b.tasks n).bind fun t => t.unpublished.map fun pair =>
    (b.publishStatus t.chargePointId pair).setTask n { t with unpublished := none }

def lastUpstream (chargePointId : String) (b : StatusBoard) : Option ConnectionState :=
  ((b.published.filter fun e => e.1 = chargePointId).getLast?).map fun e => e.2.1

/-- No `set_upstream_state` and no `handle_connection` is in progress. -/
def Quiet (b : StatusBoard) : Prop :=
  ∀ n < b.opened, ∀ t ∈ b.tasks n, t.unpublished = none ∧
    (t.stage = .upgrading ∨ t.stage = .running ∨ t.stage = .finished)

instance (b : StatusBoard) : Decidable b.Quiet := by
  unfold Quiet
  infer_instance

/-- Where a live session has set a state, the registered one's is the published one, and the only
one's is the shared one. -/
def ShowsLive (b : StatusBoard) : Prop :=
  ∀ n t state, b.tasks n = some t → t.isLive = true → t.unpublished = none →
    t.lastSet = some state →
      (b.current t.chargePointId = some n → b.lastUpstream t.chargePointId = some state) ∧
      ((∀ m u, b.tasks m = some u → u.isLive = true → m = n) → b.upstream = state)

def otherWriters (n : Nat) (b : StatusBoard) : List Nat :=
  (List.range b.opened).filter fun m => m != n && (b.tasks m).any (·.isWriter)

/-- A step that takes no live session's status away: Disconnected is not set while exactly one
other session writes, the registered session does not return early before its state is published,
and what is published for a charge point agrees with what its registered session has set. -/
def Undisturbed (b : StatusBoard) (ev : StatusEvent) : Prop :=
  match ev with
  | .setUpstreamState n newState =>
    if newState = .disconnected then (b.otherWriters n).length ≠ 1
    else ∀ t ∈ b.tasks n, b.upstream = newState → b.current t.chargePointId = some n →
      b.lastUpstream t.chargePointId = some newState
  | .advance n | .publish n => ∀ t ∈ b.tasks n, ∀ pair ∈ t.toPublish,
    ∀ m ∈ b.current t.chargePointId, ∀ u ∈ b.tasks m, u.isLive = true → u.unpublished = none →
      ∀ state ∈ u.lastSet, pair.1 = state
  | _ => True

instance (b : StatusBoard) (ev : StatusEvent) : Decidable (b.Undisturbed ev) := by
  unfold Undisturbed
  split <;> infer_instance

/-! ## The invariant -/

/-- Of the sessions that write, a registered one's state is published and a sole one's is shared. -/
structure Truthful (b : StatusBoard) : Prop where
  fresh : ∀ k, b.opened ≤ k → b.tasks k = none
  reads : ∀ n t pair, b.tasks n = some t → t.unpublished = some pair →
    t.stage = .running ∧ t.lastSet = some pair.1
  begins : ∀ n t, b.tasks n = some t → t.stage.isEarly = true → t.lastSet = none
  sole : ∀ n t state, b.tasks n = some t → t.isWriter = true → t.lastSet = some state →
    (∀ m u, b.tasks m = some u → u.isWriter = true → m = n) → b.upstream = state
  shown : ∀ n t state, b.tasks n = some t → t.isLive = true → t.unpublished = none →
    t.lastSet = some state → b.current t.chargePointId = some n →
      b.lastUpstream t.chargePointId = some state

section
variable {b b' : StatusBoard} {n : Nat} {t t' : StatusTask}

theorem isLive_of_stage (h : t.stage ≠ .running) : t.isLive = false := by
  simp [StatusTask.isLive, h]

/-- A session that writes is live, and one that is live and has published what it set writes. -/
theorem isLive_of_isWriter (h : t.isWriter = true) : t.isLive = true := by
  simp only [StatusTask.isWriter, Bool.and_eq_true] at h
  simp [StatusTask.isLive, h.1.1, h.2]

theorem isWriter_of_isLive {state : ConnectionState} (h : t.isLive = true)
    (hpublished : t.unpublished = none) (hset : t.lastSet = some state) : t.isWriter = true := by
  simp only [StatusTask.isLive, hpublished, Option.isSome_none, Bool.or_false,
    Bool.and_eq_true] at h
  simpa [StatusTask.isWriter, h.1, hset] using h.2

theorem Truthful.showsLive (hb : b.Truthful) : b.ShowsLive := by
  intro n t state ht hlive hpublished hset
  refine ⟨hb.shown n t state ht hlive hpublished hset, fun hone => ?_⟩
  exact hb.sole n t state ht (isWriter_of_isLive hlive hpublished hset) hset
    fun m u hu hwriter => hone m u hu (isLive_of_isWriter hwriter)

theorem lastUpstream_publishStatus (id id' : String) (pair : ConnectionState × ConnectionState)
    (b : StatusBoard) : (b.publishStatus id pair).lastUpstream id' =
      if id = id' then some pair.1 else b.lastUpstream id' := by
  by_cases h : id = id' <;> simp [lastUpstream, publishStatus, List.filter_append, h]

theorem eq_of_setTask {m : Nat} {u : StatusTask} (h : (b.setTask n t).tasks m = some u) :
    m = n ∧ u = t ∨ m ≠ n ∧ b.tasks m = some u :=
  eq_of_update h

theorem setTask_self : (b.setTask n t).tasks n = some t := by
  simp [setTask]

theorem setTask_other {m : Nat} (h : m ≠ n) : (b.setTask n t).tasks m = b.tasks m := by
  simp [setTask, h]

theorem Truthful.lt (hb : b.Truthful) (ht : b.tasks n = some t) : n < b.opened := by
  by_contra hn
  rw [hb.fresh n (not_lt.mp hn)] at ht
  cases ht

/-- A task changes, and with it neither the shared upstream state nor who writes it. -/
theorem Truthful.replace (hb : b.Truthful) (hn : n < b'.opened) (hopened : b.opened ≤ b'.opened)
    (htasks : b'.tasks = (b.setTask n t').tasks) (hup : b'.upstream = b.upstream)
    (hwrites : ∀ t, b.tasks n = some t → t.isWriter = true → t'.isWriter = true)
    (hwrote : t'.isWriter = true →
      ∃ t, b.tasks n = some t ∧ t.isWriter = true ∧ t.lastSet = t'.lastSet)
    (hreads : ∀ pair, t'.unpublished = some pair →
      t'.stage = .running ∧ t'.lastSet = some pair.1)
    (hbegins : t'.stage.isEarly = true → t'.lastSet = none)
    (hshown : ∀ m u state, (b.setTask n t').tasks m = some u → u.isLive = true →
      u.unpublished = none → u.lastSet = some state → b'.current u.chargePointId = some m →
        b'.lastUpstream u.chargePointId = some state) : b'.Truthful := by
  refine ⟨fun k hk => ?_, fun m u pair hu hpair => ?_, fun m u hu hstage => ?_,
    fun m u state hu hwriter hset hsole => ?_, htasks ▸ hshown⟩ <;> rw [htasks] at *
  · rw [setTask_other (by omega)]
    exact hb.fresh k (hopened.trans hk)
  · rcases eq_of_setTask hu with ⟨-, rfl⟩ | ⟨-, hu⟩
    · exact hreads pair hpair
    · exact hb.reads m u pair hu hpair
  · rcases eq_of_setTask hu with ⟨-, rfl⟩ | ⟨-, hu⟩
    · exact hbegins hstage
    · exact hb.begins m u hu hstage
  · -- who writes now wrote before, and nobody else did
    obtain ⟨v, hv, hwriter, hset⟩ : ∃ v, b.tasks m = some v ∧ v.isWriter = true ∧
        v.lastSet = some state := by
      rcases eq_of_setTask hu with ⟨rfl, rfl⟩ | ⟨-, hu⟩
      · exact hset ▸ hwrote hwriter
      · exact ⟨u, hu, hwriter, hset⟩
    rw [hup]
    refine hb.sole m v state hv hwriter hset fun k w hw hwriter => ?_
    by_cases hk : k = n
    · subst hk
      exact hsole k t' setTask_self (hwrites w hw hwriter)
    · exact hsole k w (by rw [setTask_other hk, hw]) hwriter

/-- A task whose session is not live goes on to another stage. -/
theorem Truthful.goOn (hb : b.Truthful) (ht : b.tasks n = some t) (hdead : t.isLive = false)
    (stage : ConnectionStage)
    (hearly : stage.isEarly = true ∨ stage = .running → t.stage.isEarly = true)
    (htasks : b'.tasks = (b.setTask n { t with stage }).tasks) (hup : b'.upstream = b.upstream)
    (hopened : b'.opened = b.opened)
    (hshown : ∀ m u state, b.tasks m = some u → m ≠ n → u.isLive = true → u.unpublished = none →
      u.lastSet = some state → b'.current u.chargePointId = some m →
        b.current u.chargePointId = some m ∧
          (b.lastUpstream u.chargePointId = some state →
            b'.lastUpstream u.chargePointId = some state)) : b'.Truthful := by
  have hunread : t.unpublished = none := by
    cases hpair : t.unpublished with
    | none => rfl
    | some pair =>
      have hstage := (hb.reads n t pair ht hpair).1
      simp [StatusTask.isLive, hstage, hpair] at hdead
  have hunset (hrunning : stage = .running) : t.lastSet = none :=
    hb.begins n t ht (hearly (.inr hrunning))
  refine hb.replace (hopened ▸ hb.lt ht) hopened.ge htasks hup (fun u hu hwriter => ?_)
    (fun hwriter => ?_) (fun pair hpair => ?_) (fun hnew => hb.begins n t ht (hearly (.inl hnew)))
    fun m u state hu hlive hpublished hset hcurrent => ?_
  · rw [ht, Option.some.injEq] at hu
    rw [isLive_of_isWriter (hu ▸ hwriter)] at hdead
    cases hdead
  · simp only [StatusTask.isWriter, Bool.and_eq_true, decide_eq_true_eq] at hwriter
    rw [hunset hwriter.1.1] at hwriter
    simp at hwriter
  · exact absurd hpair (by simp [hunread])
  · rcases eq_of_setTask hu with ⟨-, rfl⟩ | ⟨hm, hu⟩
    · replace hset : t.lastSet = some state := hset
      have hrunning : stage = .running := by
        by_contra hstage
        rw [isLive_of_stage hstage] at hlive
        cases hlive
      rw [hunset hrunning] at hset
      cases hset
    · obtain ⟨hcurrent, hkept⟩ := hshown m u state hu hm hlive hpublished hset hcurrent
      exact hkept (hb.shown m u state hu hlive hpublished hset hcurrent)

/-- What a task publishes agrees with what the registered session has set. -/
theorem shown_of_publish {pair : ConnectionState × ConnectionState}
    (hpair : ∀ m ∈ b.current t.chargePointId, ∀ u ∈ b.tasks m, u.isLive = true →
      u.unpublished = none → ∀ state ∈ u.lastSet, pair.1 = state)
    {m : Nat} {u : StatusTask} {state : ConnectionState} (hu : b.tasks m = some u)
    (hlive : u.isLive = true) (hpublished : u.unpublished = none) (hset : u.lastSet = some state)
    (hcurrent : b.current u.chargePointId = some m)
    (hshown : b.lastUpstream u.chargePointId = some state) :
    (b.publishStatus t.chargePointId pair).lastUpstream u.chargePointId = some state := by
  rw [lastUpstream_publishStatus]
  split
  · rename_i hid
    rw [hpair m (hid ▸ hcurrent) u hu hlive hpublished state hset]
  · exact hshown

/-- `handle_connection` goes on. -/
theorem Truthful.advance (hb : b.Truthful) (ht : b.tasks n = some t)
    (hC : b.Undisturbed (.advance n)) (h : b.advance n t = some b') : b'.Truthful := by
  -- registrations and publications apart, only the stage of the task changes
  have hgo (stage : ConnectionStage) (hdead : t.isLive = false)
      (hearly : stage.isEarly = true ∨ stage = .running → t.stage.isEarly = true)
      (b' : StatusBoard) (htasks : b'.tasks = (b.setTask n { t with stage }).tasks)
      (hup : b'.upstream = b.upstream) (hopened : b'.opened = b.opened)
      (hcurrent : b'.current = b.current) (hpublished : b'.published = b.published) :
      b'.Truthful := by
    refine hb.goOn ht hdead stage hearly htasks hup hopened
      fun m u state _ _ _ _ _ hcur => ⟨hcurrent ▸ hcur, fun hlast => ?_⟩
    unfold lastUpstream at hlast ⊢
    rwa [hpublished]
  have hpublish (stage : ConnectionStage) (pair : ConnectionState × ConnectionState)
      (hpair : t.toPublish = some pair) (hdead : t.isLive = false)
      (hearly : stage.isEarly = true ∨ stage = .running → t.stage.isEarly = true) :
      ((b.publishStatus t.chargePointId pair).setTask n { t with stage }).Truthful :=
    hb.goOn ht hdead stage hearly rfl rfl rfl
      fun m u state hu _ hlive hpublished hset hcur => ⟨hcur,
        shown_of_publish (hC t ht pair hpair) hu hlive hpublished hset hcur⟩
  unfold StatusBoard.advance at h
  split at h <;> rename_i hstage
  · cases h
    exact hgo .numbered (isLive_of_stage (by simp [hstage]))
      (by simp [hstage, ConnectionStage.isEarly]) _ rfl rfl rfl rfl rfl
  · cases h
    refine hb.goOn ht (isLive_of_stage (by simp [hstage])) .registered
      (by simp [hstage, ConnectionStage.isEarly]) rfl rfl rfl
      fun m u state _ hmn _ _ _ hcur => ⟨?_, id⟩
    replace hcur : Function.update b.current t.chargePointId (some n) u.chargePointId =
      some m := hcur
    rw [Function.update_apply] at hcur
    split at hcur
    · exact absurd (Option.some.inj hcur).symm hmn
    · exact hcur
  · cases h
    exact hgo .routed (isLive_of_stage (by simp [hstage]))
      (by simp [hstage, ConnectionStage.isEarly]) _ rfl rfl rfl rfl rfl
  · cases h
    exact hgo (.connected b.upstream .connected) (isLive_of_stage (by simp [hstage]))
      (by simp [hstage, ConnectionStage.isEarly]) _ rfl rfl rfl rfl rfl
  · rename_i upstream downstream
    cases h
    exact hpublish .announced (upstream, downstream) (by simp [StatusTask.toPublish, hstage])
      (isLive_of_stage (by simp [hstage])) (by simp [hstage, ConnectionStage.isEarly])
  · cases h
    exact hgo .running (isLive_of_stage (by simp [hstage]))
      (by simp [hstage, ConnectionStage.isEarly]) _ rfl rfl rfl rfl rfl
  · split at h
    · cases h
    · rename_i hdead
      cases h
      exact hgo .returned (by simpa using hdead) (by simp [ConnectionStage.isEarly]) _
        rfl rfl rfl rfl rfl
  · cases h
    exact hgo .unrouted (isLive_of_stage (by simp [hstage])) (by simp [ConnectionStage.isEarly]) _
      rfl rfl rfl rfl rfl
  · split at h
    · cases h
      refine hb.goOn ht (isLive_of_stage (by simp [hstage])) (.deregistered true)
        (by simp [ConnectionStage.isEarly]) rfl rfl rfl
        fun m u state _ _ _ _ _ hcur => ⟨?_, id⟩
      replace hcur : Function.update b.current t.chargePointId none u.chargePointId =
        some m := hcur
      rw [Function.update_apply] at hcur
      split at hcur
      · cases hcur
      · exact hcur
    · cases h
      exact hgo (.deregistered false) (isLive_of_stage (by simp [hstage]))
        (by simp [ConnectionStage.isEarly]) _ rfl rfl rfl rfl rfl
  · cases h
    exact hgo (.disconnected b.upstream .disconnected) (isLive_of_stage (by simp [hstage]))
      (by simp [ConnectionStage.isEarly]) _ rfl rfl rfl rfl rfl
  · cases h
    exact hgo .finished (isLive_of_stage (by simp [hstage])) (by simp [ConnectionStage.isEarly]) _
      rfl rfl rfl rfl rfl
  · rename_i upstream downstream
    cases h
    exact hpublish .finished (upstream, downstream) (by simp [StatusTask.toPublish, hstage])
      (isLive_of_stage (by simp [hstage])) (by simp [ConnectionStage.isEarly])
  · cases h

/-- A session publishes what it set. -/
theorem Truthful.publish (hb : b.Truthful) (ht : b.tasks n = some t)
    (hC : b.Undisturbed (.publish n)) {pair : ConnectionState × ConnectionState}
    (hpair : t.unpublished = some pair) :
    ((b.publishStatus t.chargePointId pair).setTask n { t with unpublished := none }).Truthful := by
  obtain ⟨hstage, hset⟩ := hb.reads n t pair ht hpair
  refine hb.replace (hb.lt ht) le_rfl rfl rfl (fun u hu hwriter => ?_)
    (fun hwriter => ⟨t, ht, hwriter, rfl⟩) (fun pair hpair => by simp at hpair)
    (hb.begins n t ht) fun m u state hu hlive hpublished hsetu hcurrent => ?_
  · rw [ht, Option.some.injEq] at hu
    exact hu ▸ hwriter
  · rcases eq_of_setTask hu with ⟨-, rfl⟩ | ⟨-, hu⟩
    · replace hsetu : t.lastSet = some state := hsetu
      change (b.publishStatus t.chargePointId pair).lastUpstream t.chargePointId = _
      rw [lastUpstream_publishStatus, if_pos rfl, ← hsetu, hset]
    · have hown : t.toPublish = some pair := by simp [StatusTask.toPublish, hstage, hpair]
      exact shown_of_publish (hC t ht pair hown) hu hlive hpublished hsetu hcurrent
        (hb.shown m u state hu hlive hpublished hsetu hcurrent)

@[simp] theorem setUpstreamState_upstream (newState : ConnectionState) :
    (b.setUpstreamState n newState t).upstream = newState := by
  unfold StatusBoard.setUpstreamState
  split <;> first | assumption | rfl

@[simp] theorem setUpstreamState_opened (newState : ConnectionState) :
    (b.setUpstreamState n newState t).opened = b.opened := by
  unfold StatusBoard.setUpstreamState
  split <;> rfl

@[simp] theorem setUpstreamState_current (newState : ConnectionState) :
    (b.setUpstreamState n newState t).current = b.current := by
  unfold StatusBoard.setUpstreamState
  split <;> rfl

@[simp] theorem setUpstreamState_lastUpstream (newState : ConnectionState) (id : String) :
    (b.setUpstreamState n newState t).lastUpstream id = b.lastUpstream id := by
  unfold StatusBoard.setUpstreamState
  split <;> rfl

/-- Where the state is the same nothing is left to publish, otherwise it is. -/
theorem setUpstreamState_tasks (newState : ConnectionState) : ∃ t',
    (b.setUpstreamState n newState t).tasks = (b.setTask n t').tasks ∧
      t'.chargePointId = t.chargePointId ∧ t'.stage = t.stage ∧ t'.lastSet = some newState ∧
      (t'.unpublished = t.unpublished ∧ b.upstream = newState ∨
        ∃ downstream, t'.unpublished = some (newState, downstream)) := by
  unfold StatusBoard.setUpstreamState
  split
  · exact ⟨_, rfl, rfl, rfl, rfl, .inl ⟨rfl, ‹_›⟩⟩
  · exact ⟨_, rfl, rfl, rfl, rfl, .inr ⟨_, rfl⟩⟩

/-- The only other session that writes is the only one listed. -/
theorem Truthful.length_otherWriters (hb : b.Truthful) {m : Nat} {u : StatusTask} (hmn : m ≠ n)
    (hu : b.tasks m = some u) (hwriter : u.isWriter = true)
    (hsole : ∀ k v, k ≠ n → b.tasks k = some v → v.isWriter = true → k = m) :
    (b.otherWriters n).length = 1 := by
  have hnodup : (b.otherWriters n).Nodup := List.nodup_range.filter _
  have hmem (k : Nat) : k ∈ b.otherWriters n ↔ k = m := by
    simp only [otherWriters, List.mem_filter, List.mem_range, Bool.and_eq_true, bne_iff_ne,
      Option.any_eq_true]
    refine ⟨fun ⟨_, hkn, v, hv, hvw⟩ => hsole k v hkn hv hvw, ?_⟩
    rintro rfl
    exact ⟨hb.lt hu, hmn, u, hu, hwriter⟩
  rw [((List.perm_ext_iff_of_nodup hnodup (List.nodup_singleton m)).mpr
    (by simpa using hmem)).length_eq, List.length_singleton]

/-- A session sets the state under the lock. -/
theorem Truthful.setUpstreamState (hb : b.Truthful) (ht : b.tasks n = some t)
    {newState : ConnectionState} (hmay : t.maySet newState = true)
    (hC : b.Undisturbed (.setUpstreamState n newState)) :
    (b.setUpstreamState n newState t).Truthful := by
  have hn : n < b.opened := hb.lt ht
  simp only [StatusTask.maySet, Bool.and_eq_true, decide_eq_true_eq,
    Option.isNone_iff_eq_none] at hmay
  obtain ⟨⟨hstage, hread⟩, -⟩ := hmay
  obtain ⟨t', htasks, hid, hstage', hset', hread'⟩ :=
    setUpstreamState_tasks (b := b) (n := n) (t := t) newState
  rw [hstage] at hstage'
  rw [hread] at hread'
  refine ⟨fun k hk => ?_, fun m u pair hu hpair => ?_, fun m u hu hearly => ?_,
    fun m u state hu hwriter hset hsole => ?_,
    fun m u state hu hlive hpublished hset hcur => ?_⟩
  · rw [setUpstreamState_opened] at hk
    rw [htasks, setTask_other (by omega)]
    exact hb.fresh k hk
  · rcases eq_of_setTask (htasks ▸ hu) with ⟨-, rfl⟩ | ⟨-, hu⟩
    · rcases hread' with ⟨hnone, -⟩ | ⟨downstream, hsome⟩
      · exact absurd hpair (by simp [hnone])
      · rw [hsome, Option.some.injEq] at hpair
        exact ⟨hstage', hpair ▸ hset'⟩
    · exact hb.reads m u pair hu hpair
  · rcases eq_of_setTask (htasks ▸ hu) with ⟨-, rfl⟩ | ⟨-, hu⟩
    · simp [hstage', ConnectionStage.isEarly] at hearly
    · exact hb.begins m u hu hearly
  · rw [setUpstreamState_upstream]
    rw [htasks] at hu hsole
    rcases eq_of_setTask hu with ⟨-, rfl⟩ | ⟨hmn, hold⟩
    · exact Option.some.inj (hset'.symm.trans hset)
    · by_cases hd : newState = .disconnected
      · -- then the other session is the only one left that writes
        simp only [Undisturbed, if_pos hd] at hC
        refine absurd (hb.length_otherWriters hmn hold hwriter fun k v hk hv hvw => ?_) hC
        exact hsole k v (by rw [setTask_other hk, hv]) hvw
      · -- the task itself writes, so the other one is not the only one
        refine absurd (hsole n t' setTask_self ?_) hmn.symm
        simp [StatusTask.isWriter, hstage', hset', hd]
  · rw [setUpstreamState_current] at hcur
    rw [setUpstreamState_lastUpstream]
    rcases eq_of_setTask (htasks ▸ hu) with ⟨rfl, rfl⟩ | ⟨-, hu⟩
    · rcases hread' with ⟨-, hsame⟩ | ⟨downstream, hsome⟩
      · -- the session returned early
        obtain rfl : newState = state := Option.some.inj (hset'.symm.trans hset)
        have hd : newState ≠ .disconnected := by
          rintro rfl
          simp [StatusTask.isLive, hset', hpublished] at hlive
        simp only [Undisturbed, if_neg hd] at hC
        rw [hid] at hcur ⊢
        exact hC t ht hsame hcur
      · exact absurd hpublished (by simp [hsome])
    · exact hb.shown m u state hu hlive hpublished hset hcur

/-- An upgrade adds a task that has set nothing. -/
theorem Truthful.upgrade (hb : b.Truthful) (chargePointId : String) :
    Truthful { b.setTask b.opened { chargePointId } with
      downstream := .connecting
      opened := b.opened + 1 } := by
  refine hb.replace (n := b.opened) (Nat.lt_succ_self _) (Nat.le_succ _) rfl rfl
    (fun u hu _ => ?_) (fun hwriter => by simp [StatusTask.isWriter] at hwriter)
    (fun pair hpair => by cases hpair) (fun _ => rfl)
    fun m u state hu hlive hpublished hset hcur => ?_
  · rw [hb.fresh _ le_rfl] at hu
    cases hu
  · rcases eq_of_setTask hu with ⟨-, rfl⟩ | ⟨-, hu⟩
    · cases hset
    · exact hb.shown m u state hu hlive hpublished hset hcur

/-! ## Runs -/

theorem Truthful.step {ev : StatusEvent} (hb : b.Truthful) (hC : b.Undisturbed ev)
    (h : StatusBoard.step b ev = some b') : b'.Truthful := by
  cases ev with
  | upgrade chargePointId =>
    cases h
    exact hb.upgrade chargePointId
  | abandon n =>
    obtain ⟨t, ht, h⟩ := Option.bind_eq_some_iff.mp h
    split at h
    · rename_i hstage
      cases h
      exact hb.goOn ht (isLive_of_stage (by simp [hstage])) .finished
        (by simp [ConnectionStage.isEarly]) rfl rfl rfl fun m u state _ _ _ _ _ hcur => ⟨hcur, id⟩
    · cases h
  | advance n =>
    obtain ⟨t, ht, h⟩ := Option.bind_eq_some_iff.mp h
    exact hb.advance ht hC h
  | setUpstreamState n newState =>
    obtain ⟨t, ht, h⟩ := Option.bind_eq_some_iff.mp h
    split at h
    · rename_i hmay
      cases h
      exact hb.setUpstreamState ht hmay hC
    · cases h
  | publish n =>
    obtain ⟨t, ht, h⟩ := Option.bind_eq_some_iff.mp h
    obtain ⟨pair, hpair, rfl⟩ := Option.map_eq_some_iff.mp h
    exact hb.publish ht hC hpair

theorem truthful_new : new.Truthful where
  fresh _ _ := rfl
  reads _ _ _ ht := by cases ht
  begins _ _ ht := by cases ht
  sole _ _ _ ht := by cases ht
  shown _ _ _ ht := by cases ht

end

/-- In a run that disturbs no live session's status, every state shows it. -/
theorem shows_live {events : List StatusEvent} {b : StatusBoard}
    (hrun : step.run new events = some b) (hC : step.Meets Undisturbed new events) :
    b.ShowsLive := by
  have htruthful : b.Truthful := step.invariant_of_meets (P := Truthful)
    (fun _ _ _ hC h hb => hb.step hC h) hrun hC truthful_new
  exact htruthful.showsLive

def setAndPublish (n : Nat) (newState : ConnectionState) : List StatusEvent :=
  [.setUpstreamState n newState, .publish n]

def connects (n : Nat) (chargePointId : String) : List StatusEvent :=
  .upgrade chargePointId :: List.replicate 6 (.advance n) ++
    setAndPublish n .connecting ++ setAndPublish n .connected

def forwardingTask (chargePointId : String) : StatusTask :=
  { chargePointId, stage := .running, lastSet := some .connected }

theorem shows_live_connects : ∃ b, step.run new (connects 0 "CP01") = some b ∧
    b.tasks 0 = some (forwardingTask "CP01") ∧ b.lastUpstream "CP01" = some .connected ∧
      b.upstream = .connected := by
  have hseen : ((step.run new (connects 0 "CP01")).map fun b =>
      (b.tasks 0, b.current "CP01", b.upstream)) =
        some (some (forwardingTask "CP01"), some 0, .connected) := by
    decide +kernel
  obtain ⟨b, hrun, hb⟩ := Option.map_eq_some_iff.mp hseen
  simp only [Prod.mk.injEq] at hb
  obtain ⟨ht, hcurrent, hup⟩ := hb
  have hshows : b.ShowsLive := shows_live hrun (by decide +kernel)
  exact ⟨b, hrun, ht, (hshows 0 _ .connected ht rfl rfl rfl).1 hcurrent, hup⟩

/-- The charger connects again, and the session of its first connection ends after the second one is
connected. -/
def takenOver : List StatusEvent :=
  connects 0 "CP01" ++ connects 1 "CP01" ++ setAndPublish 0 .disconnected ++
    List.replicate 4 (.advance 0)

/-- The registered session is connected and the only one left. The charger is published, and the
state shared, as disconnected. -/
theorem not_shows_live_takenOver : ∃ b, step.run new takenOver = some b ∧ b.Quiet ∧
    b.tasks 1 = some (forwardingTask "CP01") ∧ b.current "CP01" = some 1 ∧
    b.lastUpstream "CP01" = some .disconnected ∧ b.upstream = .disconnected ∧ ¬ b.ShowsLive := by
  have hseen : ((step.run new takenOver).map fun b =>
      (decide b.Quiet, b.tasks 1, b.current "CP01", b.lastUpstream "CP01", b.upstream)) =
        some (true, some (forwardingTask "CP01"), some 1, some .disconnected, .disconnected) := by
    decide +kernel
  obtain ⟨b, hrun, hb⟩ := Option.map_eq_some_iff.mp hseen
  simp only [Prod.mk.injEq, decide_eq_true_eq] at hb
  obtain ⟨hquiet, ht, hcurrent, hlast, hup⟩ := hb
  refine ⟨b, hrun, hquiet, ht, hcurrent, hlast, hup, fun hshows => ?_⟩
  have hshown := (hshows 1 _ .connected ht rfl rfl rfl).1 hcurrent
  rw [show (forwardingTask "CP01").chargePointId = "CP01" from rfl, hlast] at hshown
  cases hshown

end StatusBoard

end OcppProxy

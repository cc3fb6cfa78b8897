import OcppProxy.Downstream

/-!
# Connection replacement

`register_connection` and `deregister_connection` called in any order, for any charge points. The
generation of a connection is taken before the lock, so the order of the insertions need not be that
of the generations.
-/

namespace OcppProxy

/-! ## The two operations on the shared state -/

namespace DownstreamState

section
variable {d : DownstreamState} (n : Nat) (task : ConnectionTask) (id : String)

def activeOf (n : Nat) (task : ConnectionTask) : ActiveConnection :=
  { generation := task.generation, cancel := n }

theorem lookup_registerConnection : (d.registerConnection n task).connections.lookup id =
    if id = task.chargePointId then some (activeOf n task) else d.connections.lookup id := by
  have hinsert : (d.connections.insert task.chargePointId (activeOf n task)).lookup id =
      if id = task.chargePointId then some (activeOf n task) else d.connections.lookup id := by
    by_cases h : id = task.chargePointId
    · subst h
      simp
    · simp [h]
  rw [← hinsert]
  unfold registerConnection
  dsimp only
  split <;> rfl

/-- Registering cancels the token of the connection it displaces. -/
theorem tasks_registerConnection (k : Nat) : (d.registerConnection n task).tasks k =
    if (d.connections.lookup task.chargePointId).any (·.cancel == k) then
      (d.tasks k).map ({ · with cancelled := true })
    else d.tasks k := by
  unfold registerConnection
  dsimp only
  cases hfound : d.connections.lookup task.chargePointId with
  | none => simp
  | some existing =>
    by_cases h : k = existing.cancel
    · subst h
      simp [modifyTask]
    · have hne : existing.cancel ≠ k := fun hk => h hk.symm
      simp [modifyTask, h, hne]

/-- Deregistering removes the entry of its own generation and nothing else. -/
theorem deregisterConnection_eq (generation : Nat) :
    (d.deregisterConnection id generation).1 =
        (d.connections.lookup id).any (·.generation == generation) ∧
      (d.deregisterConnection id generation).2 =
        if (d.connections.lookup id).any (·.generation == generation) then
          { d with connections := d.connections.erase id }
        else d := by
  unfold deregisterConnection
  cases hfound : d.connections.lookup id with
  | none => exact ⟨rfl, rfl⟩
  | some active =>
    by_cases h : active.generation = generation <;> simp [h]

end

end DownstreamState

/-! ## Histories of calls -/

/-- The shared state with what was done to it: the connections inserted, and the connections that
deregistered with the answer they got. -/
structure Registry where
  state : DownstreamState
  inserted : List (String × Nat) := []
  deregistered : List (Nat × Bool) := []

inductive RegistryCall where
  /-- `register_connection` takes a generation. -/
  | number (chargePointId : String)
  /-- `register_connection` inserts the connection. -/
  | insert (n : Nat)
  /-- `deregister_connection` with what `register_connection` returned. -/
  | deregister (n : Nat)
  deriving DecidableEq, Repr

namespace Registry

def new (stateManager : ConnectionStateManager) : Registry :=
  { state := .new stateManager }

def number (chargePointId : String) (r : Registry) : Registry :=
  { r with state := { r.state with
      generation := r.state.generation + 1
      tasks := Function.update r.state.tasks r.state.opened
        (some { chargePointId, stage := .numbered, generation := r.state.generation })
      opened := r.state.opened + 1 } }

def insert (n : Nat) (task : ConnectionTask) (r : Registry) : Registry :=
  { r with
    state := (r.state.registerConnection n task).setStage n .registered
    inserted := r.inserted ++ [(task.chargePointId, n)] }

def deregister (n : Nat) (task : ConnectionTask) (r : Registry) : Registry :=
  let (removed, state) := r.state.deregisterConnection task.chargePointId task.generation
  { r with state, deregistered := r.deregistered ++ [(n, removed)] }

def step : Machine Registry RegistryCall := fun r call =>
  match call with
  | .number chargePointId => some (r.number chargePointId)
  | .insert n => (r.state.tasks n).bind fun task =>
    if task.stage = .numbered then some (r.insert n task) else none
  | .deregister n => (r.state.tasks n).bind fun task =>
    if task.stage = .registered then some (r.deregister n task) else none

def latest (r : Registry) (id : String) : Option Nat :=
  ((r.inserted.filter (·.1 == id)).map Prod.snd).getLast?

def hasLeft (r : Registry) (n : Nat) : Bool := r.deregistered.any (·.1 == n)

def removedItself (r : Registry) (n : Nat) : Bool := r.deregistered.contains (n, true)

/-- The latest connection of a charge point, as long as it has not deregistered. -/
def registered (r : Registry) (id : String) : Option Nat :=
  (r.latest id).filter (!r.hasLeft ·)

structure Safe (r : Registry) : Prop where
  fresh : r.state.Fresh
  generation_lt : ∀ n task, r.state.tasks n = some task → task.generation < r.state.generation
  generation_inj : ∀ m n t u, r.state.tasks m = some t → r.state.tasks n = some u →
    t.generation = u.generation → m = n
  inserted : ∀ id n, (id, n) ∈ r.inserted ↔
    ∃ task, r.state.tasks n = some task ∧ task.chargePointId = id ∧ task.stage = .registered
  left : ∀ n, r.hasLeft n = true → ∃ id, (id, n) ∈ r.inserted
  latest_left : ∀ id n, r.latest id = some n → r.hasLeft n = true → r.removedItself n = true
  entry : ∀ id, r.state.connections.lookup id = (r.registered id).bind fun n =>
    (r.state.tasks n).map (DownstreamState.activeOf n)
  cancelled : ∀ n task, r.state.tasks n = some task → (task.cancelled = true ↔
    task.stage = .registered ∧ r.latest task.chargePointId ≠ some n ∧ r.removedItself n = false)

section
variable {r : Registry} {n : Nat} {task : ConnectionTask}

theorem mem_inserted_of_latest {id : String} (h : r.latest id = some n) :
    (id, n) ∈ r.inserted := by
  have hmem := List.mem_of_getLast? h
  obtain ⟨⟨id', m⟩, hfilter, hm⟩ := List.mem_map.mp hmem
  obtain ⟨hmem, hid⟩ := List.mem_filter.mp hfilter
  simp only [beq_iff_eq] at hid hm
  rwa [hid, hm] at hmem

theorem registered_eq_some {id : String} :
    r.registered id = some n ↔ r.latest id = some n ∧ r.hasLeft n = false := by
  simp [registered, Option.filter_eq_some_iff]

theorem hasLeft_of_removedItself (h : r.removedItself n = true) : r.hasLeft n = true := by
  have hmem : (n, true) ∈ r.deregistered := by simpa [removedItself] using h
  exact List.any_eq_true.mpr ⟨(n, true), hmem, by simp⟩

theorem latest_insert (id : String) : (r.insert n task).latest id =
    if id = task.chargePointId then some n else r.latest id := by
  unfold latest insert
  dsimp only
  rw [List.filter_append, List.map_append]
  by_cases h : id = task.chargePointId
  · subst h
    simp
  · have hne : (task.chargePointId == id) = false := by simpa using Ne.symm h
    simp [hne, h]

/-- The connection that holds the entry of a charge point. -/
theorem Safe.lookup_eq_some (hr : r.Safe) {id : String} {active : ActiveConnection} :
    r.state.connections.lookup id = some active ↔ ∃ m t, r.registered id = some m ∧
      r.state.tasks m = some t ∧ active = DownstreamState.activeOf m t := by
  rw [hr.entry id, Option.bind_eq_some_iff]
  constructor
  · rintro ⟨m, hm, hactive⟩
    obtain ⟨t, ht, rfl⟩ := Option.map_eq_some_iff.mp hactive
    exact ⟨m, t, hm, ht, rfl⟩
  · rintro ⟨m, t, hm, ht, rfl⟩
    exact ⟨m, hm, Option.map_eq_some_iff.mpr ⟨t, ht, rfl⟩⟩

/-- An inserted connection is a registered task of the charge point it was inserted for. -/
theorem Safe.of_inserted (hr : r.Safe) {id : String} (hmem : (id, n) ∈ r.inserted)
    (htask : r.state.tasks n = some task) :
    task.chargePointId = id ∧ task.stage = .registered := by
  obtain ⟨t, ht, hid, hregistered⟩ := (hr.inserted id n).mp hmem
  rw [htask, Option.some.injEq] at ht
  rw [ht]
  exact ⟨hid, hregistered⟩

theorem Safe.of_registered (hr : r.Safe) {id : String} (h : r.registered id = some n)
    (htask : r.state.tasks n = some task) :
    task.chargePointId = id ∧ task.stage = .registered :=
  hr.of_inserted (mem_inserted_of_latest (registered_eq_some.mp h).1) htask

/-- A registered connection is a task of its charge point that has been inserted. -/
theorem Safe.task_of_registered (hr : r.Safe) {id : String} (h : r.registered id = some n) :
    ∃ t, r.state.tasks n = some t ∧ t.chargePointId = id ∧ t.stage = .registered :=
  (hr.inserted id n).mp (mem_inserted_of_latest (registered_eq_some.mp h).1)

/-- A connection that only has its generation has not been inserted. -/
theorem Safe.not_inserted (hr : r.Safe) (htask : r.state.tasks n = some task)
    (hstage : task.stage = .numbered) (id : String) : (id, n) ∉ r.inserted := by
  intro hmem
  have hregistered := (hr.of_inserted hmem htask).2
  rw [hstage] at hregistered
  cases hregistered

theorem Safe.not_hasLeft (hr : r.Safe) (htask : r.state.tasks n = some task)
    (hstage : task.stage = .numbered) : r.hasLeft n = false := by
  by_contra hleft
  obtain ⟨id, hmem⟩ := hr.left n (eq_true_of_ne_false hleft)
  exact hr.not_inserted htask hstage id hmem

/-- The tasks after an insertion: `n` is registered and the connection it displaces cancelled. -/
theorem Safe.tasks_insert (hr : r.Safe) (htask : r.state.tasks n = some task)
    (hstage : task.stage = .numbered) (k : Nat) : (r.insert n task).state.tasks k =
      if k = n then some { task with stage := .registered }
      else if r.registered task.chargePointId = some k then
        (r.state.tasks k).map ({ · with cancelled := true })
      else r.state.tasks k := by
  have hdisplaced : (r.state.connections.lookup task.chargePointId).any (·.cancel == k) = true ↔
      r.registered task.chargePointId = some k := by
    rw [Option.any_eq_true]
    constructor
    · rintro ⟨active, hactive, hk⟩
      obtain ⟨m, t, hm, -, rfl⟩ := hr.lookup_eq_some.mp hactive
      have hk : m = k := by simpa [DownstreamState.activeOf] using hk
      rwa [hk] at hm
    · intro hk
      obtain ⟨t, ht, -⟩ := hr.task_of_registered hk
      exact ⟨DownstreamState.activeOf k t, hr.lookup_eq_some.mpr ⟨k, t, hk, ht, rfl⟩,
        by simp [DownstreamState.activeOf]⟩
  have hself : r.registered task.chargePointId ≠ some n := by
    intro h
    exact hr.not_inserted htask hstage _ (mem_inserted_of_latest (registered_eq_some.mp h).1)
  have hregister := DownstreamState.tasks_registerConnection (d := r.state) n task
  unfold insert DownstreamState.setStage DownstreamState.modifyTask
  by_cases hk : k = n
  · subst hk
    have hn := hregister k
    rw [if_neg (mt hdisplaced.mp hself), htask] at hn
    simp [hn]
  · simp [hk, hregister k, hdisplaced]

/-- A deregister call removes an entry if and only if it is the caller's. -/
theorem Safe.removes_iff (hr : r.Safe) (htask : r.state.tasks n = some task) :
    (r.state.connections.lookup task.chargePointId).any (·.generation == task.generation) =
      decide (r.registered task.chargePointId = some n) := by
  rw [Bool.eq_iff_iff, Option.any_eq_true, decide_eq_true_eq]
  constructor
  · rintro ⟨active, hactive, hgeneration⟩
    obtain ⟨m, t, hm, ht, rfl⟩ := hr.lookup_eq_some.mp hactive
    have hgeneration : t.generation = task.generation := by
      simpa [DownstreamState.activeOf] using hgeneration
    rwa [hr.generation_inj m n t task ht htask hgeneration] at hm
  · intro h
    exact ⟨DownstreamState.activeOf n task, hr.lookup_eq_some.mpr ⟨n, task, h, htask, rfl⟩,
      by simp [DownstreamState.activeOf]⟩

/-! ### Every call keeps the registry safe -/

theorem safe_new (stateManager : ConnectionStateManager) : (new stateManager).Safe where
  fresh _ _ := rfl
  generation_lt _ _ h := by cases h
  generation_inj _ _ _ _ h := by cases h
  inserted _ _ := by
    constructor
    · intro h
      cases h
    · rintro ⟨task, h, -⟩
      cases h
  left _ h := by cases h
  latest_left _ _ h := by cases h
  entry _ := rfl
  cancelled _ _ h := by cases h

theorem tasks_number (chargePointId : String) (k : Nat) :
    (r.number chargePointId).state.tasks k = if k = r.state.opened then
      some { chargePointId, stage := .numbered, generation := r.state.generation }
    else r.state.tasks k :=
  Function.update_apply ..

/-- The new task has the next generation, the others are as before. -/
theorem task_of_number {chargePointId : String} {k : Nat} {t : ConnectionTask}
    (ht : (r.number chargePointId).state.tasks k = some t) :
    (k = r.state.opened ∧ t.generation = r.state.generation ∧ t.stage = .numbered ∧
      t.cancelled = false) ∨ (k ≠ r.state.opened ∧ r.state.tasks k = some t) := by
  rcases eq_of_update ht with ⟨hk, rfl⟩ | ⟨hk, ht⟩
  · exact .inl ⟨hk, rfl, rfl, rfl⟩
  · exact .inr ⟨hk, ht⟩

theorem Safe.task_number (hr : r.Safe) (chargePointId : String) {k : Nat} {t : ConnectionTask}
    (ht : r.state.tasks k = some t) : (r.number chargePointId).state.tasks k = some t := by
  have hk : k ≠ r.state.opened := by
    rintro rfl
    rw [hr.fresh _ le_rfl] at ht
    cases ht
  rw [tasks_number, if_neg hk, ht]

theorem Safe.number (hr : r.Safe) (chargePointId : String) : (r.number chargePointId).Safe where
  fresh k hk := by
    have hk : r.state.opened + 1 ≤ k := hk
    rw [tasks_number, if_neg (by omega)]
    exact hr.fresh k (by omega)
  generation_lt k t ht := by
    have hlt : t.generation ≤ r.state.generation := by
      rcases task_of_number ht with ⟨-, hg, -⟩ | ⟨-, ht⟩
      · exact hg.le
      · exact (hr.generation_lt k t ht).le
    exact Nat.lt_succ_of_le hlt
  generation_inj k l t u ht hu hg := by
    rcases task_of_number ht with ⟨hk, hgt, -⟩ | ⟨hk, ht⟩ <;>
      rcases task_of_number hu with ⟨hl, hgu, -⟩ | ⟨hl, hu⟩
    · exact hk.trans hl.symm
    · have := hr.generation_lt l u hu
      omega
    · have := hr.generation_lt k t ht
      omega
    · exact hr.generation_inj k l t u ht hu hg
  inserted id k := by
    have hinserted : (r.number chargePointId).inserted = r.inserted := rfl
    rw [hinserted, hr.inserted id k]
    constructor
    · rintro ⟨t, ht, hid, hstage⟩
      exact ⟨t, hr.task_number chargePointId ht, hid, hstage⟩
    · rintro ⟨t, ht, hid, hstage⟩
      rcases task_of_number ht with ⟨-, -, hnumbered, -⟩ | ⟨-, ht⟩
      · rw [hnumbered] at hstage
        cases hstage
      · exact ⟨t, ht, hid, hstage⟩
  left := hr.left
  latest_left := hr.latest_left
  entry id := by
    have hconnections : (r.number chargePointId).state.connections = r.state.connections := rfl
    have hregistered : (r.number chargePointId).registered id = r.registered id := rfl
    rw [hconnections, hregistered, hr.entry id]
    cases hheld : r.registered id with
    | none => rfl
    | some m =>
      obtain ⟨t, ht, -⟩ := hr.task_of_registered hheld
      simp only [Option.bind_some, ht, hr.task_number chargePointId ht]
  cancelled k t ht := by
    rcases task_of_number ht with ⟨-, -, hstage, hcancelled⟩ | ⟨-, ht⟩
    · simp [hstage, hcancelled]
    · exact hr.cancelled k t ht

/-! An insertion: the tasks keep what they are, but for the stage of the connection inserted and the
token of the one it displaces. -/

theorem Safe.task_of_insert (hr : r.Safe) (htask : r.state.tasks n = some task)
    (hstage : task.stage = .numbered) {k : Nat} {t' : ConnectionTask}
    (ht' : (r.insert n task).state.tasks k = some t') :
    ∃ t, r.state.tasks k = some t ∧ t'.generation = t.generation ∧
      t'.chargePointId = t.chargePointId ∧
      (t'.stage = .registered ↔ k = n ∨ t.stage = .registered) ∧
      (t'.cancelled = true ↔
        k ≠ n ∧ r.registered task.chargePointId = some k ∨ t.cancelled = true) := by
  rw [hr.tasks_insert htask hstage] at ht'
  split at ht'
  · rename_i hk
    subst hk
    rw [Option.some.injEq] at ht'
    exact ⟨task, htask, ht' ▸ rfl, ht' ▸ rfl, by simp [← ht'], by simp [← ht']⟩
  · rename_i hk
    split at ht'
    · rename_i hdisplaced
      obtain ⟨t, ht, rfl⟩ := Option.map_eq_some_iff.mp ht'
      exact ⟨t, ht, rfl, rfl, by simp [hk], by simp [hk, hdisplaced]⟩
    · rename_i hkept
      exact ⟨t', ht', rfl, rfl, by simp [hk], by simp [hkept]⟩

theorem Safe.task_insert (hr : r.Safe) (htask : r.state.tasks n = some task)
    (hstage : task.stage = .numbered) {k : Nat} {t : ConnectionTask}
    (ht : r.state.tasks k = some t) :
    ∃ t', (r.insert n task).state.tasks k = some t' ∧ t'.generation = t.generation ∧
      t'.chargePointId = t.chargePointId ∧
      (t'.stage = .registered ↔ k = n ∨ t.stage = .registered) := by
  have hsome : ∃ t', (r.insert n task).state.tasks k = some t' := by
    rw [hr.tasks_insert htask hstage]
    split
    · exact ⟨_, rfl⟩
    · split
      · exact ⟨_, Option.map_eq_some_iff.mpr ⟨t, ht, rfl⟩⟩
      · exact ⟨t, ht⟩
  obtain ⟨t', ht'⟩ := hsome
  obtain ⟨u, hu, hg, hcp, hst, -⟩ := hr.task_of_insert htask hstage ht'
  rw [ht, Option.some.injEq] at hu
  rw [hu]
  exact ⟨t', ht', hg, hcp, hst⟩

theorem generation_insert : (r.insert n task).state.generation = r.state.generation := by
  unfold Registry.insert DownstreamState.registerConnection
  dsimp only
  split <;> rfl

theorem Safe.registered_insert (hr : r.Safe) (htask : r.state.tasks n = some task)
    (hstage : task.stage = .numbered) (id : String) : (r.insert n task).registered id =
      if id = task.chargePointId then some n else r.registered id := by
  unfold registered
  rw [latest_insert]
  split
  · exact Option.filter_eq_some_iff.mpr ⟨rfl, congrArg Bool.not (hr.not_hasLeft htask hstage)⟩
  · rfl

theorem Safe.inserted_insert (hr : r.Safe) (htask : r.state.tasks n = some task)
    (hstage : task.stage = .numbered) (id : String) (k : Nat) :
    (id, k) ∈ (r.insert n task).inserted ↔ ∃ t', (r.insert n task).state.tasks k = some t' ∧
      t'.chargePointId = id ∧ t'.stage = .registered := by
  have hinserted : (id, k) ∈ (r.insert n task).inserted ↔
      (id, k) ∈ r.inserted ∨ id = task.chargePointId ∧ k = n := by
    simp [Registry.insert]
  rw [hinserted, hr.inserted id k]
  constructor
  · rintro (⟨t, ht, hid, hregistered⟩ | ⟨rfl, rfl⟩)
    · obtain ⟨t', ht', -, hcp, hst⟩ := hr.task_insert htask hstage ht
      exact ⟨t', ht', hcp.trans hid, hst.mpr (.inr hregistered)⟩
    · obtain ⟨t', ht', -, hcp, hst⟩ := hr.task_insert htask hstage htask
      exact ⟨t', ht', hcp, hst.mpr (.inl rfl)⟩
  · rintro ⟨t', ht', hid, hregistered⟩
    obtain ⟨t, ht, -, hcp, hst, -⟩ := hr.task_of_insert htask hstage ht'
    rcases hst.mp hregistered with hk | hregistered
    · subst hk
      rw [htask, Option.some.injEq] at ht
      exact .inr ⟨hid.symm.trans (ht ▸ hcp), rfl⟩
    · exact .inl ⟨t, ht, hcp.symm.trans hid, hregistered⟩

theorem Safe.entry_insert (hr : r.Safe) (htask : r.state.tasks n = some task)
    (hstage : task.stage = .numbered) (id : String) :
    (r.insert n task).state.connections.lookup id = ((r.insert n task).registered id).bind fun n' =>
      ((r.insert n task).state.tasks n').map (DownstreamState.activeOf n') := by
  have hlookup : (r.insert n task).state.connections.lookup id =
      if id = task.chargePointId then some (DownstreamState.activeOf n task)
      else r.state.connections.lookup id :=
    DownstreamState.lookup_registerConnection n task id
  rw [hlookup, hr.registered_insert htask hstage]
  split
  · rw [Option.bind_some, hr.tasks_insert htask hstage, if_pos rfl]
    rfl
  · rw [hr.entry id]
    cases hheld : r.registered id with
    | none => rfl
    | some m =>
      obtain ⟨t, ht, -⟩ := hr.task_of_registered hheld
      obtain ⟨t', ht', hg, -⟩ := hr.task_insert htask hstage ht
      simp only [Option.bind_some, ht, ht', Option.map_some, DownstreamState.activeOf, hg]

/-- The displaced connection is cancelled: it was the latest, and had not removed itself. -/
theorem Safe.cancelled_insert (hr : r.Safe) (htask : r.state.tasks n = some task)
    (hstage : task.stage = .numbered) {k : Nat} {t' : ConnectionTask}
    (ht' : (r.insert n task).state.tasks k = some t') : t'.cancelled = true ↔
      t'.stage = .registered ∧ (r.insert n task).latest t'.chargePointId ≠ some k ∧
        (r.insert n task).removedItself k = false := by
  obtain ⟨t, ht, -, hcp, hst, hc⟩ := hr.task_of_insert htask hstage ht'
  have hremoved : (r.insert n task).removedItself k = r.removedItself k := rfl
  rw [hc, hst, hcp, latest_insert, hremoved, hr.cancelled k t ht]
  by_cases hk : k = n
  · -- the token of the new connection is its own
    subst hk
    rw [htask, Option.some.injEq] at ht
    subst ht
    simp [hstage]
  by_cases hid : t.chargePointId = task.chargePointId
  · have hdisplaced : r.registered task.chargePointId = some k ↔
        r.latest t.chargePointId = some k ∧ r.hasLeft k = false := by
      rw [hid, registered_eq_some]
    have hnew : (some n : Option Nat) ≠ some k := by
      simpa using Ne.symm hk
    rw [if_pos hid]
    constructor
    · rintro (⟨-, hheld⟩ | ⟨hregistered, -, hkept⟩)
      · have hleft := (hdisplaced.mp hheld).2
        refine ⟨.inr (hr.of_registered hheld ht).2, hnew, ?_⟩
        by_contra hremoves
        have := hasLeft_of_removedItself (eq_true_of_ne_false hremoves)
        rw [hleft] at this
        cases this
      · exact ⟨.inr hregistered, hnew, hkept⟩
    · rintro ⟨hregistered, -, hkept⟩
      by_cases hlatest : r.latest t.chargePointId = some k
      · refine .inl ⟨hk, hdisplaced.mpr ⟨hlatest, ?_⟩⟩
        by_contra hleft
        have := hr.latest_left _ k hlatest (eq_true_of_ne_false hleft)
        rw [hkept] at this
        cases this
      · exact .inr ⟨hregistered.resolve_left hk, hlatest, hkept⟩
  · have hother : r.registered task.chargePointId ≠ some k := by
      intro hheld
      exact hid (hr.of_registered hheld ht).1
    simp [hk, hid, hother]

theorem Safe.insert (hr : r.Safe) (htask : r.state.tasks n = some task)
    (hstage : task.stage = .numbered) : (r.insert n task).Safe where
  fresh := by
    have hsame := DownstreamState.sameTasks_registerConnection (d := r.state) n task
    exact (DownstreamState.sameTasks_modifyTask n hsame _).fresh hr.fresh
  generation_lt k t' ht' := by
    obtain ⟨t, ht, hg, -⟩ := hr.task_of_insert htask hstage ht'
    rw [hg, generation_insert]
    exact hr.generation_lt k t ht
  generation_inj k l t' u' ht' hu' hg := by
    obtain ⟨t, ht, hgt, -⟩ := hr.task_of_insert htask hstage ht'
    obtain ⟨u, hu, hgu, -⟩ := hr.task_of_insert htask hstage hu'
    exact hr.generation_inj k l t u ht hu (by omega)
  inserted := hr.inserted_insert htask hstage
  left k hleft := by
    obtain ⟨id, hmem⟩ := hr.left k hleft
    exact ⟨id, List.mem_append_left _ hmem⟩
  latest_left id k hlatest hleft := by
    rw [latest_insert] at hlatest
    split at hlatest
    · rw [Option.some.injEq] at hlatest
      subst hlatest
      have hstays : (r.insert n task).hasLeft n = false := hr.not_hasLeft htask hstage
      rw [hstays] at hleft
      cases hleft
    · exact hr.latest_left id k hlatest hleft
  entry := hr.entry_insert htask hstage
  cancelled _ _ := hr.cancelled_insert htask hstage

/-! A deregistration: the caller has left, and its entry with it if it was the registered one. -/

theorem Safe.deregister_state (hr : r.Safe) (htask : r.state.tasks n = some task) :
    (r.deregister n task).state = if r.registered task.chargePointId = some n then
      { r.state with connections := r.state.connections.erase task.chargePointId }
    else r.state := by
  have hstate := (DownstreamState.deregisterConnection_eq (d := r.state) task.chargePointId
    task.generation).2
  rw [hr.removes_iff htask] at hstate
  simp only [decide_eq_true_eq] at hstate
  exact hstate

theorem Safe.tasks_deregister (hr : r.Safe) (htask : r.state.tasks n = some task) :
    (r.deregister n task).state.tasks = r.state.tasks := by
  rw [hr.deregister_state htask]
  split <;> rfl

theorem Safe.generation_deregister (hr : r.Safe) (htask : r.state.tasks n = some task) :
    (r.deregister n task).state.generation = r.state.generation := by
  rw [hr.deregister_state htask]
  split <;> rfl

theorem Safe.lookup_deregister (hr : r.Safe) (htask : r.state.tasks n = some task) (id : String) :
    (r.deregister n task).state.connections.lookup id =
      if id = task.chargePointId ∧ r.registered task.chargePointId = some n then none
      else r.state.connections.lookup id := by
  rw [hr.deregister_state htask]
  by_cases hheld : r.registered task.chargePointId = some n
  · by_cases hid : id = task.chargePointId
    · subst hid
      simp [hheld, AList.lookup_erase]
    · simp [hid, hheld]
  · simp [hheld]

theorem hasLeft_deregister (k : Nat) :
    (r.deregister n task).hasLeft k = true ↔ r.hasLeft k = true ∨ k = n := by
  have hflip : n = k ↔ k = n := eq_comm
  simp only [Registry.deregister, hasLeft, List.any_append, List.any_cons, List.any_nil,
    Bool.or_false, Bool.or_eq_true, beq_iff_eq, hflip]

theorem Safe.removedItself_deregister (hr : r.Safe) (htask : r.state.tasks n = some task) (k : Nat) :
    (r.deregister n task).removedItself k = true ↔
      r.removedItself k = true ∨ k = n ∧ r.registered task.chargePointId = some n := by
  have hanswer := (DownstreamState.deregisterConnection_eq (d := r.state) task.chargePointId
    task.generation).1
  rw [hr.removes_iff htask] at hanswer
  unfold Registry.deregister removedItself
  dsimp only
  rw [hanswer]
  by_cases h : r.registered task.chargePointId = some n <;> simp [h]

theorem registered_deregister (id : String) : (r.deregister n task).registered id =
    if r.latest id = some n then none else r.registered id := by
  have hlatest : (r.deregister n task).latest id = r.latest id := rfl
  ext k
  rw [registered_eq_some, hlatest, Bool.eq_false_iff, ne_eq, hasLeft_deregister]
  split
  · rename_i hmine
    constructor
    · rintro ⟨hk, hstays⟩
      exact absurd (.inr (Option.some.inj (hk.symm.trans hmine))) hstays
    · intro h
      cases h
  · rename_i hmine
    rw [registered_eq_some, Bool.eq_false_iff, ne_eq]
    refine and_congr_right fun hk => not_congr (or_iff_left ?_)
    rintro rfl
    exact hmine hk

theorem Safe.entry_deregister (hr : r.Safe) (htask : r.state.tasks n = some task) (id : String) :
    (r.deregister n task).state.connections.lookup id =
      ((r.deregister n task).registered id).bind fun n' =>
        ((r.deregister n task).state.tasks n').map (DownstreamState.activeOf n') := by
  rw [hr.lookup_deregister htask, hr.tasks_deregister htask, registered_deregister]
  by_cases hmine : r.latest id = some n
  · -- the latest connection leaves: its entry is gone, now or already
    have hid := (hr.of_inserted (mem_inserted_of_latest hmine) htask).1
    rw [if_pos hmine, Option.bind_none, ite_eq_left_iff]
    intro hnot
    have hnone : r.registered id = none := by
      rw [Option.eq_none_iff_forall_ne_some]
      intro k hk
      have hkn := (registered_eq_some.mp hk).1
      rw [hmine, Option.some.injEq] at hkn
      rw [← hid, ← hkn] at hk
      exact hnot ⟨hid.symm, hk⟩
    rw [hr.entry id, hnone]
    rfl
  · have hother : ¬(id = task.chargePointId ∧ r.registered task.chargePointId = some n) := by
      rintro ⟨rfl, hheld⟩
      exact hmine (registered_eq_some.mp hheld).1
    rw [if_neg hother, if_neg hmine, hr.entry id]

theorem Safe.cancelled_deregister (hr : r.Safe) (htask : r.state.tasks n = some task) {k : Nat}
    {t : ConnectionTask} (ht : r.state.tasks k = some t) : t.cancelled = true ↔
      t.stage = .registered ∧ (r.deregister n task).latest t.chargePointId ≠ some k ∧
        (r.deregister n task).removedItself k = false := by
  rw [hr.cancelled k t ht]
  have hlatest : (r.deregister n task).latest t.chargePointId = r.latest t.chargePointId := rfl
  rw [hlatest]
  refine and_congr_right fun _ => and_congr_right fun hk => ?_
  -- a connection that is not the latest does not remove an entry
  have hiff : (r.deregister n task).removedItself k = true ↔ r.removedItself k = true := by
    refine (hr.removedItself_deregister htask k).trans (or_iff_left ?_)
    rintro ⟨rfl, hheld⟩
    rw [htask, Option.some.injEq] at ht
    exact hk (ht ▸ (registered_eq_some.mp hheld).1)
  rw [Bool.eq_false_iff, Bool.eq_false_iff]
  exact (not_congr hiff).symm

theorem Safe.deregister (hr : r.Safe) (htask : r.state.tasks n = some task)
    (hstage : task.stage = .registered) : (r.deregister n task).Safe where
  fresh := by
    have hsame := DownstreamState.sameTasks_deregisterConnection (d := r.state)
      task.chargePointId task.generation
    exact hsame.fresh hr.fresh
  generation_lt := by
    rw [hr.tasks_deregister htask, hr.generation_deregister htask]
    exact hr.generation_lt
  generation_inj := by
    rw [hr.tasks_deregister htask]
    exact hr.generation_inj
  inserted := by
    rw [hr.tasks_deregister htask]
    exact hr.inserted
  left k hk := by
    rcases (hasLeft_deregister k).mp hk with hk | hk
    · exact hr.left k hk
    · have hown := (hr.inserted _ n).mpr ⟨task, htask, rfl, hstage⟩
      exact ⟨task.chargePointId, hk ▸ hown⟩
  latest_left id k hlatest hleft := by
    rw [hr.removedItself_deregister htask]
    by_cases hbefore : r.hasLeft k = true
    · exact .inl (hr.latest_left id k hlatest hbefore)
    · have hkn : k = n := ((hasLeft_deregister k).mp hleft).resolve_left hbefore
      subst hkn
      refine .inr ⟨rfl, ?_⟩
      rw [(hr.of_inserted (mem_inserted_of_latest hlatest) htask).1]
      exact registered_eq_some.mpr ⟨hlatest, eq_false_of_ne_true hbefore⟩
  entry := hr.entry_deregister htask
  cancelled k t ht := by
    rw [hr.tasks_deregister htask] at ht
    exact hr.cancelled_deregister htask ht

theorem Safe.step {call : RegistryCall} {r' : Registry} (hr : r.Safe)
    (h : Registry.step r call = some r') : r'.Safe := by
  cases call with
  | number chargePointId =>
    cases h
    exact hr.number chargePointId
  | insert n =>
    obtain ⟨task, htask, h⟩ := Option.bind_eq_some_iff.mp h
    split at h
    · cases h
      exact hr.insert htask ‹_›
    · cases h
  | deregister n =>
    obtain ⟨task, htask, h⟩ := Option.bind_eq_some_iff.mp h
    split at h
    · cases h
      exact hr.deregister htask ‹_›
    · cases h

def subject (r : Registry) : RegistryCall → Option String
  | .number chargePointId => some chargePointId
  | .insert n | .deregister n => (r.state.tasks n).map (·.chargePointId)

/-- A call leaves the entries and the tokens of other charge points alone. -/
theorem Safe.step_other {call : RegistryCall} {r' : Registry} (hr : r.Safe)
    (h : Registry.step r call = some r') {id : String} (hid : r.subject call ≠ some id) :
    r'.state.connections.lookup id = r.state.connections.lookup id ∧
      ∀ k t, r.state.tasks k = some t → t.chargePointId = id → r'.state.tasks k = some t := by
  cases call with
  | number chargePointId =>
    cases h
    exact ⟨rfl, fun k t ht _ => hr.task_number chargePointId ht⟩
  | insert n =>
    obtain ⟨task, htask, h⟩ := Option.bind_eq_some_iff.mp h
    have hcp : id ≠ task.chargePointId := by
      rintro rfl
      exact hid (by simp [subject, htask])
    split at h
    · rename_i hstage
      cases h
      refine ⟨?_, fun k t ht hk => ?_⟩
      · have hlookup := DownstreamState.lookup_registerConnection (d := r.state) n task id
        rw [if_neg hcp] at hlookup
        exact hlookup
      · have hkn : k ≠ n := by
          rintro rfl
          rw [htask, Option.some.injEq] at ht
          exact hcp (hk ▸ ht ▸ rfl)
        have hother : r.registered task.chargePointId ≠ some k := by
          intro hheld
          exact hcp (hk.symm.trans (hr.of_registered hheld ht).1)
        rw [hr.tasks_insert htask hstage, if_neg hkn, if_neg hother, ht]
    · cases h
  | deregister n =>
    obtain ⟨task, htask, h⟩ := Option.bind_eq_some_iff.mp h
    have hcp : id ≠ task.chargePointId := by
      rintro rfl
      exact hid (by simp [subject, htask])
    split at h
    · cases h
      refine ⟨?_, fun k t ht _ => ?_⟩
      · rw [hr.lookup_deregister htask, if_neg fun h => hcp h.1]
      · rw [hr.tasks_deregister htask]
        exact ht
    · cases h

/-- After any calls: the tokens ever inserted for a charge point are cancelled except the last one
and those of connections that removed their own entry; the map holds an entry for a charge point
exactly while the last connection inserted has not deregistered, and it is that one; any other
connection's deregister answers false and changes nothing; a call on one charge point leaves the
others alone. -/
theorem replacement_safe {stateManager : ConnectionStateManager} {calls : List RegistryCall}
    (h : step.run (new stateManager) calls = some r) :
    (∀ id k, (id, k) ∈ r.inserted → ∃ t, r.state.tasks k = some t ∧
      (t.cancelled = true ↔ r.latest id ≠ some k ∧ r.removedItself k = false)) ∧
    (∀ id active, r.state.connections.lookup id = some active ↔
      ∃ k t, r.latest id = some k ∧ r.hasLeft k = false ∧ r.state.tasks k = some t ∧
        active = DownstreamState.activeOf k t) ∧
    (∀ k t, r.state.tasks k = some t → r.registered t.chargePointId ≠ some k →
      r.state.deregisterConnection t.chargePointId t.generation = (false, r.state)) ∧
    ∀ call r', step r call = some r' → ∀ id, r.subject call ≠ some id →
      r'.state.connections.lookup id = r.state.connections.lookup id ∧
        ∀ k t, r.state.tasks k = some t → t.chargePointId = id → r'.state.tasks k = some t := by
  have hr : r.Safe :=
    step.invariant (P := Safe) (fun _ _ _ hstep hr => hr.step hstep) h (safe_new stateManager)
  refine ⟨fun id k hmem => ?_, fun id active => ?_, fun k t ht hother => ?_,
    fun call r' hstep id hid => hr.step_other hstep hid⟩
  · -- a token is cancelled by the connection that displaces it, and by nothing else
    obtain ⟨t, ht, hcp, hregistered⟩ := (hr.inserted id k).mp hmem
    have hcancelled := hr.cancelled k t ht
    rw [hcp] at hcancelled
    exact ⟨t, ht, hcancelled.trans (and_iff_right hregistered)⟩
  · rw [hr.lookup_eq_some]
    constructor
    · rintro ⟨k, t, hk, ht, hactive⟩
      obtain ⟨hlatest, hstays⟩ := registered_eq_some.mp hk
      exact ⟨k, t, hlatest, hstays, ht, hactive⟩
    · rintro ⟨k, t, hlatest, hstays, ht, hactive⟩
      exact ⟨k, t, registered_eq_some.mpr ⟨hlatest, hstays⟩, ht, hactive⟩
  · obtain ⟨hanswer, hstate⟩ :=
      DownstreamState.deregisterConnection_eq (d := r.state) t.chargePointId t.generation
    rw [hr.removes_iff ht, decide_eq_false hother] at hanswer hstate
    exact Prod.ext hanswer hstate

end

/-- Two connections of `CP01`: the second displaces the first, and the first deregisters late. -/
def displaced : List RegistryCall :=
  [.number "CP01", .insert 0, .number "CP01", .insert 1, .deregister 0]

theorem replacement_safe_displaced : ∃ r, step.run (new {}) displaced = some r ∧
    ∃ t, r.state.tasks 0 = some t ∧ t.cancelled = true := by
  have hrun : ((step.run (new {}) displaced).map fun r =>
      (r.inserted, r.latest "CP01", r.removedItself 0)) =
        some ([("CP01", 0), ("CP01", 1)], some 1, false) := by decide +kernel
  obtain ⟨r, hr, hvalues⟩ := Option.map_eq_some_iff.mp hrun
  simp only [Prod.mk.injEq] at hvalues
  obtain ⟨hinserted, hlatest, hkept⟩ := hvalues
  obtain ⟨t, ht, hcancelled⟩ := (replacement_safe hr).1 "CP01" 0 (by simp [hinserted])
  exact ⟨r, hr, t, ht, hcancelled.mpr ⟨by simp [hlatest], hkept⟩⟩

/-- The token of a connection that deregistered before the next one came is never cancelled. -/
theorem not_cancelled_left : ∃ r, step.run (new {})
      [.number "CP01", .insert 0, .deregister 0, .number "CP01", .insert 1] = some r ∧
    ("CP01", 0) ∈ r.inserted ∧ r.latest "CP01" = some 1 ∧
    (r.state.tasks 0).map (·.cancelled) = some false := by
  have hrun : ((step.run (new {})
      [.number "CP01", .insert 0, .deregister 0, .number "CP01", .insert 1]).map fun r =>
        (decide (("CP01", 0) ∈ r.inserted), r.latest "CP01",
          (r.state.tasks 0).map (·.cancelled))) = some (true, some 1, some false) := by
    decide +kernel
  obtain ⟨r, hr, hvalues⟩ := Option.map_eq_some_iff.mp hrun
  simp only [Prod.mk.injEq] at hvalues
  obtain ⟨hinserted, hlatest, hcancelled⟩ := hvalues
  exact ⟨r, hr, of_decide_eq_true hinserted, hlatest, hcancelled⟩

end Registry

end OcppProxy

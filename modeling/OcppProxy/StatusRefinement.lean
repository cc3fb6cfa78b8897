import OcppProxy.SessionStatus
import OcppProxy.SharedState
import OcppProxy.StatusBoard

/-!
# The proxy runs on the status board

Every step of the connection tasks is a run of the status board: a session's calls of
`set_upstream_state` are its calls there, and each is followed by its publication.
-/

namespace OcppProxy

/-! ## One session on the board -/

/-- From the board `b₀` and the session `s₀` on, only the session of task `n` has moved: it is now
`s`, the task `t` and the board `b`. -/
structure StatusBoard.Follows (id : String) (n : Nat) (b₀ : StatusBoard) (s₀ : Session)
    (t : StatusTask) (s : Session) (b : StatusBoard) : Prop where
  upstream : b.upstream = s.manager.upstreamState
  downstream : b.downstream = s.manager.downstreamState
  published : ∃ es, s.log = s₀.log ++ es ∧
    b.published = b₀.published ++ es.filterMap fun e => e.2.status? id
  tasks : b.tasks = (b₀.setTask n t).tasks
  current : b.current = b₀.current
  opened : b.opened = b₀.opened

namespace StatusBoard

open Session

section
variable {cx : SessionContext} {now : Time} {n : Nat} {b₀ b b' : StatusBoard} {s₀ s s' : Session}
  {t : StatusTask}

theorem run_one {ev : StatusEvent} (h : step b ev = some b') : step.run b [ev] = some b' :=
  (step.run_cons b b' ev []).mpr ⟨b', h, rfl⟩

theorem Follows.plain (h : Follows cx.chargePointId n b₀ s₀ t s b) (hplain : Plain s s') :
    Follows cx.chargePointId n b₀ s₀ t s' b where
  upstream := h.upstream.trans hplain.upstream.symm
  downstream := h.downstream.trans hplain.downstream.symm
  published := by
    obtain ⟨es, hes, hpublished⟩ := h.published
    obtain ⟨es', hes', hplain⟩ := hplain.log
    refine ⟨es ++ es', by rw [hes', hes, List.append_assoc], ?_⟩
    have hnone (e : Time × Entry) (he : e ∈ es') : e.2.status? cx.chargePointId = none :=
      Entry.status?_of_isPlain (hplain e he)
    rw [hpublished, List.filterMap_append, List.filterMap_eq_nil_iff.mpr hnone, List.append_nil]
  tasks := h.tasks
  current := h.current
  opened := h.opened

/-- A call of `set_upstream_state` under the lock, and its publication where it did not return
early. -/
theorem Follows.set (h : Follows cx.chargePointId n b₀ s₀ t s b) (now : Time)
    (hid : t.chargePointId = cx.chargePointId) (hidle : t.unpublished = none)
    {newState : ConnectionState} (hmay : t.maySet newState = true) : ∃ evs b',
      step.run b evs = some b' ∧ Follows cx.chargePointId n b₀ s₀
        { t with lastSet := some newState } (s.setUpstreamState cx now newState) b' := by
  have ht : b.tasks n = some t := by rw [h.tasks, setTask_self]
  have hset : step b (.setUpstreamState n newState) =
      some (b.setUpstreamState n newState t) := by
    simp [step, ht, hmay]
  have htasks (u : StatusTask) : (b.setTask n u).tasks = (b₀.setTask n u).tasks := by
    unfold setTask
    rw [h.tasks]
    exact Function.update_idem ..
  have hsame := h.upstream
  by_cases hstate : b.upstream = newState
  · have hs : s.setUpstreamState cx now newState = s := by
      unfold Session.setUpstreamState
      rw [if_pos (hsame ▸ hstate)]
    refine ⟨[.setUpstreamState n newState], _, run_one hset, ?_⟩
    rw [hs]
    unfold StatusBoard.setUpstreamState
    rw [if_pos hstate]
    exact ⟨h.upstream, h.downstream, h.published, htasks _, h.current, h.opened⟩
  · have hs : s.setUpstreamState cx now newState =
        ({ s with manager := s.manager.transition .upstream newState } : Session).note now (.event
          (.stateChange cx.chargePointId newState s.manager.downstreamState)) := by
      unfold Session.setUpstreamState
      rw [if_neg (hsame ▸ hstate)]
      rfl
    obtain ⟨es, hes, hpublished⟩ := h.published
    have hrun : step.run b [.setUpstreamState n newState, .publish n] =
        some (((b.setUpstreamState n newState t).publishStatus t.chargePointId
          (newState, b.downstream)).setTask n { t with lastSet := some newState }) := by
      refine (step.run_cons ..).mpr ⟨_, hset, run_one ?_⟩
      unfold StatusBoard.setUpstreamState
      rw [if_neg hstate]
      simp [step, setTask, publishStatus, hidle]
    refine ⟨_, _, hrun, ?_⟩
    rw [hs]
    refine ⟨?_, ?_, ⟨es ++ [(now, .event (.stateChange cx.chargePointId newState
      s.manager.downstreamState))], ?_, ?_⟩, ?_, ?_, ?_⟩
    · exact setUpstreamState_upstream newState
    · unfold StatusBoard.setUpstreamState
      rw [if_neg hstate]
      exact h.downstream
    · rw [Session.note_log, hes, List.append_assoc]
    · unfold StatusBoard.setUpstreamState
      rw [if_neg hstate]
      simp only [setTask, publishStatus, hpublished, List.filterMap_append, List.append_assoc,
        h.downstream, hid]
      rfl
    · unfold StatusBoard.setUpstreamState
      rw [if_neg hstate]
      unfold setTask publishStatus
      rw [h.tasks]
      simp [setTask]
    · exact (setUpstreamState_current newState).trans h.current
    · exact (setUpstreamState_opened newState).trans h.opened

/-- Between its first and its last call a session goes on. -/
theorem Follows.moves (hmoves : StatusMoves cx (· ≠ .disconnected) s s')
    (h : Follows cx.chargePointId n b₀ s₀ t s b) (hid : t.chargePointId = cx.chargePointId)
    (hstage : t.stage = .running) (hidle : t.unpublished = none)
    (hset : t.lastSet ≠ none ∧ t.lastSet ≠ some .disconnected) : ∃ evs b' lastSet,
      step.run b evs = some b' ∧ (lastSet ≠ none ∧ lastSet ≠ some .disconnected) ∧
        Follows cx.chargePointId n b₀ s₀ { t with lastSet } s' b' := by
  induction hmoves with
  | refl => exact ⟨[], b, t.lastSet, rfl, hset, h⟩
  | tail _ hmove ih =>
    obtain ⟨evs, b₁, lastSet, hrun, hlast, h₁⟩ := ih
    cases hmove with
    | plain hplain => exact ⟨evs, b₁, lastSet, hrun, hlast, h₁.plain hplain⟩
    | set hne =>
      rename_i newState
      have hmay : ({ t with lastSet } : StatusTask).maySet newState = true := by
        obtain ⟨last, rfl⟩ := Option.ne_none_iff_exists'.mp hlast.1
        simpa [StatusTask.maySet, hstage, hidle] using hlast.2
      obtain ⟨evs', b₂, hrun', h₂⟩ := h₁.set _ hid hidle hmay
      exact ⟨evs ++ evs', b₂, some newState, (step.run_append ..).mpr ⟨b₁, hrun, hrun'⟩,
        ⟨by simp, by simpa using hne⟩, h₂⟩

end

end StatusBoard

/-! ## The tasks on the board -/

structure ConnectionTask.On (task : ConnectionTask) (t : StatusTask) : Prop where
  chargePointId : t.chargePointId = task.chargePointId
  stage : t.stage = task.stage
  idle : t.unpublished = none
  begins : task.stage.isEarly = true → t.lastSet = none
  ended : ∀ s ∈ task.session, s.phase = .ended ∨ task.stage = .running
  running : task.stage = .running → ∃ s ∈ task.session, t.lastSet ≠ none ∧
    (s.phase = .ended ↔ t.lastSet = some .disconnected)

namespace DownstreamState

structure On (d : DownstreamState) (b : StatusBoard) : Prop where
  upstream : b.upstream = d.stateManager.upstreamState
  downstream : b.downstream = d.stateManager.downstreamState
  published : b.published = d.mqttTx.filterMap MqttEvent.status?
  current : ∀ id, b.current id = (d.connections.lookup id).map (·.cancel)
  opened : b.opened = d.opened
  absent : ∀ n, d.tasks n = none → b.tasks n = none
  tasks : ∀ n task, d.tasks n = some task → ∃ t, b.tasks n = some t ∧ task.On t

section
variable {cx : ProxyContext} {d d' : DownstreamState} {b b' : StatusBoard} {n : Nat}
  {task : ConnectionTask} {t t' : StatusTask}

/-- The board has neither the inboxes, nor the router, nor the generations. -/
theorem On.congr (h : d.On b) (hmanager : d'.stateManager = d.stateManager)
    (hmqtt : d'.mqttTx = d.mqttTx) (hconnections : d'.connections = d.connections)
    (hopened : d'.opened = d.opened) (htasks : d'.tasks = d.tasks) : d'.On b := by
  refine ⟨?_, ?_, ?_, ?_, ?_, ?_, ?_⟩
  · rw [hmanager]
    exact h.upstream
  · rw [hmanager]
    exact h.downstream
  · rw [hmqtt]
    exact h.published
  · rw [hconnections]
    exact h.current
  · rw [hopened]
    exact h.opened
  · rw [htasks]
    exact h.absent
  · rw [htasks]
    exact h.tasks

theorem On.setDownstream (h : d.On b) (downstream : ConnectionState) :
    ({ d with stateManager := d.stateManager.transition .downstream downstream } :
      DownstreamState).On { b with downstream } :=
  ⟨h.upstream, rfl, h.published, h.current, h.opened, h.absent, h.tasks⟩

theorem On.publishStatus (h : d.On b) (id : String) (upstream downstream : ConnectionState) :
    (d.publishStatus id upstream downstream).On (b.publishStatus id (upstream, downstream)) := by
  refine ⟨h.upstream, h.downstream, ?_, h.current, h.opened, h.absent, h.tasks⟩
  simp [StatusBoard.publishStatus, DownstreamState.publishStatus, h.published,
    List.filterMap_append, MqttEvent.status?]

/-- The registered connection of a charge point is removed. -/
theorem On.erase (h : d.On b) (id : String) :
    ({ d with connections := d.connections.erase id } : DownstreamState).On { b with
      current := Function.update b.current id none } := by
  refine ⟨h.upstream, h.downstream, h.published, fun id' => ?_, h.opened, h.absent, h.tasks⟩
  by_cases hid : id' = id
  · subst hid
    simp
  · simp [hid, h.current id']

/-- One task changes, here and there. -/
theorem On.modifyTask (h : d.On b) (htask : d.tasks n = some task)
    {f : ConnectionTask → ConnectionTask} (ht : (f task).On t) :
    (d.modifyTask n f).On (b.setTask n t) := by
  refine ⟨h.upstream, h.downstream, h.published, h.current, h.opened, fun k hk => ?_,
    fun k u hu => ?_⟩
  · have hkn : k ≠ n := by
      rintro rfl
      simp [DownstreamState.modifyTask, htask] at hk
    rw [StatusBoard.setTask_other hkn]
    exact h.absent k (by simpa [DownstreamState.modifyTask, hkn] using hk)
  · by_cases hkn : k = n
    · subst hkn
      obtain rfl : f task = u := by simpa [DownstreamState.modifyTask, htask] using hu
      exact ⟨t, StatusBoard.setTask_self, ht⟩
    · rw [StatusBoard.setTask_other hkn]
      exact h.tasks k u (by simpa [DownstreamState.modifyTask, hkn] using hu)

/-- A task's token is cancelled. -/
theorem On.cancel (h : d.On b) (m : Nat) :
    (d.modifyTask m ({ · with cancelled := true })).On b := by
  cases htask : d.tasks m with
  | none =>
    have hsame : d.modifyTask m ({ · with cancelled := true }) = d := by
      unfold DownstreamState.modifyTask
      rw [htask, Option.map_none, ← htask, Function.update_eq_self]
    exact hsame.symm ▸ h
  | some task =>
    obtain ⟨t, ht, hon⟩ := h.tasks m task htask
    have hsame : b.setTask m t = b := by
      unfold StatusBoard.setTask
      rw [← ht, Function.update_eq_self]
    have hmodified := h.modifyTask htask (f := ({ · with cancelled := true })) (t := t)
      ⟨hon.chargePointId, hon.stage, hon.idle, hon.begins, hon.ended, hon.running⟩
    rwa [hsame] at hmodified

/-- A task whose session is over, or not begun, goes on to another stage. -/
theorem on_setStage (hon : task.On t)
    (hover : ∀ s ∈ task.session, s.phase = .ended) (stage : ConnectionStage)
    (hearly : stage.isEarly = true → task.stage.isEarly = true) (hne : stage ≠ .running) :
    ({ task with stage } : ConnectionTask).On { t with stage } where
  chargePointId := hon.chargePointId
  stage := rfl
  idle := hon.idle
  begins h := hon.begins (hearly h)
  ended s hs := .inl (hover s hs)
  running h := absurd h hne

theorem On.setStage (h : d.On b) (htask : d.tasks n = some task) (ht : b.tasks n = some t)
    (hover : ∀ s ∈ task.session, s.phase = .ended) (stage : ConnectionStage)
    (hearly : stage.isEarly = true → task.stage.isEarly = true) (hne : stage ≠ .running) :
    (d.setStage n stage).On (b.setTask n { t with stage }) := by
  obtain ⟨t', ht', hon⟩ := h.tasks n task htask
  obtain rfl : t' = t := Option.some.inj (ht'.symm.trans ht)
  exact h.modifyTask htask (on_setStage hon hover stage hearly hne)

theorem modifyTask_modifyTask (f g : ConnectionTask → ConnectionTask) :
    (d.modifyTask n f).modifyTask n g = d.modifyTask n (g ∘ f) := by
  simp [DownstreamState.modifyTask, Option.map_map]

/-- A task changes after its session has moved, and what the session handed over is there. -/
theorem On.follows (h : d.On b) (htask : d.tasks n = some task) {s₀ s : Session}
    {f : ConnectionTask → ConnectionTask} {logged : Nat}
    (hfollows : b.Follows task.chargePointId n s₀ t s b') (hlogged : s₀.log.length = logged)
    (ht : (f task).On t) :
    (({ d with
      stateManager := s.manager
      mqttTx := d.mqttTx ++ s.handedSince task.chargePointId logged } :
        DownstreamState).modifyTask n f).On b' := by
  subst hlogged
  obtain ⟨es, hes, hpublished⟩ := hfollows.published
  have hplaced : ({ d with
      stateManager := s.manager
      mqttTx := d.mqttTx ++ s.handedSince task.chargePointId s₀.log.length } :
        DownstreamState).On { b with
          upstream := s.manager.upstreamState
          downstream := s.manager.downstreamState
          published := b'.published } := by
    refine ⟨rfl, rfl, ?_, h.current, h.opened, h.absent, h.tasks⟩
    rw [hpublished, List.filterMap_append, ← h.published, Session.handedSince, hes,
      List.drop_left, List.filterMap_filterMap]
    rfl
  have hmodified := hplaced.modifyTask htask ht
  refine ⟨hfollows.upstream, hfollows.downstream, hmodified.published, fun id => ?_, ?_,
    fun k hk => ?_, fun k u hu => ?_⟩
  · rw [hfollows.current]
    exact hmodified.current id
  · rw [hfollows.opened]
    exact hmodified.opened
  · rw [hfollows.tasks]
    exact hmodified.absent k hk
  · rw [hfollows.tasks]
    exact hmodified.tasks k u hu

/-- A registration, with the displaced connection's token cancelled. -/
theorem On.registerConnection (h : d.On b) (htask : d.tasks n = some task) :
    (d.registerConnection n task).On { b with
      current := Function.update b.current task.chargePointId (some n) } ∧
    ∃ cancelled, (d.registerConnection n task).tasks n = some { task with cancelled } := by
  have hinserted : ({ d with
      connections := d.connections.insert task.chargePointId (activeOf n task) } :
        DownstreamState).On { b with
          current := Function.update b.current task.chargePointId (some n) } := by
    refine ⟨h.upstream, h.downstream, h.published, fun id => ?_, h.opened, h.absent, h.tasks⟩
    by_cases hid : id = task.chargePointId
    · subst hid
      simp [activeOf]
    · simp [hid, h.current id]
  unfold DownstreamState.registerConnection
  dsimp only
  split
  · rename_i existing _
    refine ⟨hinserted.cancel existing.cancel, ?_⟩
    by_cases hn : n = existing.cancel
    · exact ⟨true, by simp [DownstreamState.modifyTask, ← hn, htask]⟩
    · exact ⟨task.cancelled, by simp [DownstreamState.modifyTask, hn, htask]⟩
  · exact ⟨hinserted, task.cancelled, htask⟩

/-- A connection is still the current one if it is the registered one on the board. -/
theorem On.current_iff (h : d.On b) (hsane : d.shared.Sane) (htask : d.tasks n = some task)
    (hentered : task.stage.isEntered = true) : b.current task.chargePointId = some n ↔
      (d.connections.lookup task.chargePointId).any (·.generation == task.generation) = true := by
  have hview := shared_tasks htask
  rw [h.current, Option.any_eq_true, Option.map_eq_some_iff]
  constructor
  · rintro ⟨active, hactive, rfl⟩
    obtain ⟨u, hu, -, hactiveOf, -⟩ := hsane.entry _ active hactive
    rw [hview, Option.some.injEq] at hu
    refine ⟨active, hactive, ?_⟩
    rw [hactiveOf, ← hu]
    exact beq_self_eq_true _
  · rintro ⟨active, hactive, hgeneration⟩
    exact ⟨active, hactive, hsane.entry_of_generation hview hentered hactive
      (beq_iff_eq.mp hgeneration)⟩

/-- A session's first call, right after its start. -/
theorem follows_start (hon : task.On t) (hearly : task.stage.isEarly = true) (now : Time)
    (hup : b.upstream = d.stateManager.upstreamState)
    (hdown : b.downstream = d.stateManager.downstreamState) : ∃ evs b',
      StatusBoard.step.run (b.setTask n { t with stage := .running }) evs = some b' ∧
        ∃ s₀ : Session, s₀.log = [] ∧ b.Follows task.chargePointId n s₀
          { t with stage := .running, lastSet := some .connecting }
          (Session.start (cx.session task.chargePointId) now d.stateManager) b' := by
  obtain ⟨s₀, hs₀, hlog, hmanager⟩ : ∃ s₀ : Session,
      Session.start (cx.session task.chargePointId) now d.stateManager =
        s₀.enterConnecting (cx.session task.chargePointId) now ∧ s₀.log = [] ∧
        s₀.manager = d.stateManager := ⟨_, rfl, rfl, rfl⟩
  have hfollows : b.Follows (cx.session task.chargePointId).chargePointId n s₀
      { t with stage := .running } s₀ (b.setTask n { t with stage := .running }) :=
    ⟨by rw [hmanager]; exact hup, by rw [hmanager]; exact hdown,
      ⟨[], by simp, (List.append_nil _).symm⟩, rfl, rfl, rfl⟩
  have hmay : ({ t with stage := .running } : StatusTask).maySet .connecting = true := by
    simp [StatusTask.maySet, hon.idle, hon.begins hearly]
  obtain ⟨evs, b', hrun, hset⟩ := hfollows.set now hon.chargePointId hon.idle hmay
  refine ⟨evs, b', hrun, s₀, hlog, ?_⟩
  rw [hs₀]
  exact hset.plain (.of_fields ⟨rfl, rfl⟩ rfl)

/-- A task enters `run_session`. -/
theorem On.start (h : d.On b) (htask : d.tasks n = some task) (hstage : task.stage = .announced)
    {now : Time} (hstep : d.advance cx now n task = some d') :
    ∃ evs b', StatusBoard.step.run b evs = some b' ∧ d'.On b' := by
  obtain ⟨t, ht, hon⟩ := h.tasks n task htask
  simp only [DownstreamState.advance, hstage] at hstep
  cases hstep
  have hadvance : StatusBoard.step b (.advance n) =
      some (b.setTask n { t with stage := .running }) := by
    simp [StatusBoard.step, ht, StatusBoard.advance, hon.stage, hstage]
  have hearly : task.stage.isEarly = true := by simp [hstage, ConnectionStage.isEarly]
  obtain ⟨evs, b', hrun, s₀, hlog, hfollows⟩ :=
    @follows_start cx d b n task t hon hearly now h.upstream h.downstream
  refine ⟨.advance n :: evs, b', (StatusBoard.step.run_cons ..).mpr ⟨_, hadvance, hrun⟩, ?_⟩
  unfold DownstreamState.putSession DownstreamState.setStage
  rw [modifyTask_modifyTask]
  have hlogged : s₀.log.length = 0 := by rw [hlog, List.length_nil]
  have hphase : (Session.start (cx.session task.chargePointId) now d.stateManager).phase ≠
      .ended := by simp [Session.start, Session.enterConnecting]
  refine h.follows htask hfollows hlogged ⟨hon.chargePointId, rfl, hon.idle, ?_, ?_, ?_⟩
  · simp [ConnectionStage.isEarly]
  · exact fun _ _ => .inr rfl
  · exact fun _ => ⟨_, rfl, by simp, by simp [hphase]⟩

/-- A task asks whether it is still the registered connection, and leaves if it is. -/
theorem On.deregister (h : d.On b) (hsane : d.shared.Sane) (htask : d.tasks n = some task)
    (ht : b.tasks n = some t) (hstage : task.stage = .unrouted) {now : Time}
    (hstep : d.advance cx now n task = some d') : ∃ b', b.advance n t = some b' ∧ d'.On b' := by
  obtain ⟨t', ht', hon⟩ := h.tasks n task htask
  obtain rfl : t' = t := Option.some.inj (ht'.symm.trans ht)
  have hover (s : Session) (hs : s ∈ task.session) : s.phase = .ended :=
    (hon.ended s hs).resolve_right (by simp [hstage])
  have hcurrent := h.current_iff hsane htask (by rw [hstage]; rfl)
  obtain ⟨hanswer, hafter⟩ := @deregisterConnection_eq d task.chargePointId task.generation
  have hd' : d' = (d.deregisterConnection task.chargePointId task.generation).2.setStage n
      (.deregistered (d.deregisterConnection task.chargePointId task.generation).1) := by
    rw [DownstreamState.advance, hstage] at hstep
    exact (Option.some.inj hstep).symm
  rw [hanswer, hafter] at hd'
  by_cases hn : b.current task.chargePointId = some n
  · rw [if_pos (hcurrent.mp hn), hcurrent.mp hn] at hd'
    have hleaves : b.advance n t' = some
        (({ b with current := Function.update b.current task.chargePointId none } :
          StatusBoard).setTask n { t' with stage := .deregistered true }) := by
      simp only [StatusBoard.advance, hon.stage, hstage, hon.chargePointId, hn]
      rfl
    refine ⟨_, hleaves, ?_⟩
    rw [hd']
    exact (h.erase task.chargePointId).setStage htask ht hover (.deregistered true)
      (by simp [ConnectionStage.isEarly]) (by simp)
  · rw [if_neg (mt hcurrent.mpr hn), eq_false_of_ne_true (mt hcurrent.mpr hn)] at hd'
    have hstays : b.advance n t' =
        some (b.setTask n { t' with stage := .deregistered false }) := by
      simp only [StatusBoard.advance, hon.stage, hstage, hon.chargePointId, if_neg hn]
    refine ⟨_, hstays, ?_⟩
    rw [hd']
    exact h.setStage htask ht hover (.deregistered false) (by simp [ConnectionStage.isEarly])
      (by simp)

/-- A connection task takes its next step. -/
theorem On.advance (h : d.On b) (hsane : d.shared.Sane) {now : Time} (htask : d.tasks n = some task)
    (hstep : d.advance cx now n task = some d') :
    ∃ evs b', StatusBoard.step.run b evs = some b' ∧ d'.On b' := by
  obtain ⟨t, ht, hon⟩ := h.tasks n task htask
  have hid := hon.chargePointId
  have hover (hne : task.stage ≠ .running) (s : Session) (hs : s ∈ task.session) :
      s.phase = .ended := (hon.ended s hs).resolve_right hne
  -- the board's task takes the same step
  have hgo {b' : StatusBoard} (hb : b.advance n t = some b') (hd : d'.On b') :
      ∃ evs b', StatusBoard.step.run b evs = some b' ∧ d'.On b' :=
    ⟨[.advance n], b', StatusBoard.run_one (by simp [StatusBoard.step, ht, hb]), hd⟩
  have hmoves {d₁ : DownstreamState} {b₁ : StatusBoard} (h₁ : d₁.On b₁)
      (htask₁ : d₁.tasks n = some task) (ht₁ : b₁.tasks n = some t) (stage : ConnectionStage)
      (hne : task.stage ≠ .running) (hne' : stage ≠ .running)
      (hearly : stage.isEarly = true → task.stage.isEarly = true) :
      (d₁.setStage n stage).On (b₁.setTask n { t with stage }) :=
    h₁.setStage htask₁ ht₁ (hover hne) stage hearly hne'
  have hadvance := hstep
  unfold DownstreamState.advance at hstep
  split at hstep <;> rename_i hstage
  · cases hstep
    have hcounted : ({ d with generation := d.generation + 1 } : DownstreamState).On b :=
      h.congr rfl rfl rfl rfl rfl
    have hnumbered : ({ task with generation := d.generation } : ConnectionTask).On t :=
      ⟨hid, hon.stage, hon.idle, hon.begins, hon.ended, hon.running⟩
    exact hgo (by simp only [StatusBoard.advance, hon.stage, hstage]) (hcounted.modifyTask htask
      (on_setStage hnumbered (hover (by simp [hstage])) .numbered
        (by simp [hstage, ConnectionStage.isEarly]) (by simp)))
  · cases hstep
    obtain ⟨hregistered, cancelled, htask'⟩ := h.registerConnection htask
    have hon' : ({ task with cancelled } : ConnectionTask).On t :=
      ⟨hid, hon.stage, hon.idle, hon.begins, hon.ended, hon.running⟩
    exact hgo (by simp only [StatusBoard.advance, hon.stage, hstage, hid]; rfl)
      (hregistered.modifyTask htask' (on_setStage hon' (hover (by simp [hstage])) .registered
        (by simp [hstage, ConnectionStage.isEarly]) (by simp)))
  · cases hstep
    have hrouted : ({ d with
        inboxes := Function.update d.inboxes n {}
        commandRouter := d.commandRouter.register task.chargePointId task.generation n } :
          DownstreamState).On b := h.congr rfl rfl rfl rfl rfl
    exact hgo (by simp only [StatusBoard.advance, hon.stage, hstage]) (hmoves hrouted htask ht
      .routed (by simp [hstage]) (by simp) (by simp [hstage, ConnectionStage.isEarly]))
  · cases hstep
    exact hgo (by simp only [StatusBoard.advance, hon.stage, hstage, ← h.upstream]; rfl)
      (hmoves (h.setDownstream .connected) htask ht
        (.connected d.stateManager.upstreamState .connected)
        (by simp [hstage]) (by simp) (by simp [hstage, ConnectionStage.isEarly]))
  · rename_i upstream downstream
    cases hstep
    exact hgo (by simp only [StatusBoard.advance, hon.stage, hstage, hid])
      (hmoves (h.publishStatus task.chargePointId upstream downstream) htask ht .announced
        (by simp [hstage]) (by simp) (by simp [hstage, ConnectionStage.isEarly]))
  · exact h.start htask hstage hadvance
  · split at hstep
    · rename_i hended
      cases hstep
      obtain ⟨s, hs, -, hover'⟩ := hon.running hstage
      have hover : s.phase = .ended := by
        rw [Option.mem_def.mp hs] at hended
        simpa using hended
      have hdead : t.isLive = false := by
        simp [StatusTask.isLive, hover'.mp hover, hon.idle]
      have hclosed : ({ d with inboxes := Function.update d.inboxes n (d.inboxes n).close } :
          DownstreamState).On b := h.congr rfl rfl rfl rfl rfl
      refine hgo (by simp [StatusBoard.advance, hon.stage, hstage, hdead])
        (hclosed.setStage htask ht (fun s' hs' => ?_) .returned (by simp [ConnectionStage.isEarly])
          (by simp))
      rwa [Option.mem_unique hs' hs]
    · cases hstep
  · cases hstep
    have hderegistered : ({ d with commandRouter :=
        (d.commandRouter.deregister task.chargePointId task.generation).2 } :
          DownstreamState).On b := h.congr rfl rfl rfl rfl rfl
    exact hgo (by simp only [StatusBoard.advance, hon.stage, hstage]) (hmoves hderegistered htask ht
      .unrouted (by simp [hstage]) (by simp) (by simp [ConnectionStage.isEarly]))
  · obtain ⟨b', hb, hd⟩ := h.deregister hsane htask ht hstage hadvance
    exact hgo hb hd
  · cases hstep
    exact hgo (by simp only [StatusBoard.advance, hon.stage, hstage, ← h.upstream]; rfl)
      (hmoves (h.setDownstream .disconnected) htask ht
        (.disconnected d.stateManager.upstreamState .disconnected)
        (by simp [hstage]) (by simp) (by simp [ConnectionStage.isEarly]))
  · cases hstep
    exact hgo (by simp only [StatusBoard.advance, hon.stage, hstage]) (hmoves h htask ht .finished
      (by simp [hstage]) (by simp) (by simp [ConnectionStage.isEarly]))
  · rename_i upstream downstream
    cases hstep
    exact hgo (by simp only [StatusBoard.advance, hon.stage, hstage, hid])
      (hmoves (h.publishStatus task.chargePointId upstream downstream) htask ht .finished
        (by simp [hstage]) (by simp) (by simp [ConnectionStage.isEarly]))
  · cases hstep

/-- The session of a task steps. -/
theorem On.sessionStep (h : d.On b) (htask : d.tasks n = some task) {session : Session}
    (hsession : task.session = some session) {ev : Event}
    (hstep : d.sessionStep cx n task session ev = some d') :
    ∃ evs b', StatusBoard.step.run b evs = some b' ∧ d'.On b' := by
  obtain ⟨t, ht, hon⟩ := h.tasks n task htask
  unfold DownstreamState.sessionStep at hstep
  split at hstep
  · rename_i hadmits
    obtain ⟨session', hsession', rfl⟩ := Option.map_eq_some_iff.mp hstep
    have hmanager : ∀ manager, ev.input ≠ .manager manager := by
      intro manager hm
      rw [hm] at hadmits
      cases hadmits
    have hgoing : ({ session with manager := d.stateManager } : Session).phase ≠ .ended :=
      Session.phase_ne_ended_of_step hsession' hmanager
    have hstage : task.stage = .running := (hon.ended session hsession).resolve_left hgoing
    obtain ⟨s, hs, hset, hended⟩ := hon.running hstage
    obtain rfl : s = session := Option.mem_unique hs hsession
    have hset' : t.lastSet ≠ some .disconnected := fun hlast => hgoing (hended.mpr hlast)
    have hstage' : t.stage = .running := hon.stage.trans hstage
    have hhere : b.Follows (cx.session task.chargePointId).chargePointId n { s with
        manager := d.stateManager
        clock := ev.env.now } t { s with
        manager := d.stateManager
        clock := ev.env.now } b := by
      refine ⟨h.upstream, h.downstream, ⟨[], by simp, by simp⟩, ?_, rfl, rfl⟩
      rw [StatusBoard.setTask, ← ht, Function.update_eq_self]
    have htaken : ({ d with
        inboxes := Function.update d.inboxes n ((d.inboxes n).take ev.requests.length) } :
          DownstreamState).On b := h.congr rfl rfl rfl rfl rfl
    have hplace (lastSet : Option ConnectionState) (hsome : lastSet ≠ none)
        (hlast : session'.phase = .ended ↔ lastSet = some .disconnected) :
        ({ task with session := some session' } : ConnectionTask).On { t with lastSet } := by
      refine ⟨hon.chargePointId, hon.stage, hon.idle, fun hearly => ?_, fun _ _ => .inr hstage,
        fun _ => ⟨session', rfl, hsome, hlast⟩⟩
      rw [hstage] at hearly
      cases hearly
    rcases Session.moves_of_handle (Session.step_eq_some.mp hsession').2 hmanager with
      ⟨hmoves, hphase⟩ | hclosed
    · obtain ⟨evs, b', lastSet, hrun, hlast, hfollows⟩ :=
        StatusBoard.Follows.moves hmoves hhere hon.chargePointId hstage' hon.idle ⟨hset, hset'⟩
      exact ⟨evs, b', hrun, htaken.follows htask hfollows rfl
        (hplace lastSet hlast.1 (by simp [hphase, hlast.2]))⟩
    · have hmay : t.maySet .disconnected = true := by
        obtain ⟨last, hlast⟩ := Option.ne_none_iff_exists'.mp hset
        simpa [StatusTask.maySet, hstage', hon.idle, hlast] using hset'
      obtain ⟨evs, b', hrun, hfollows⟩ :=
        StatusBoard.Follows.set hhere ev.env.now hon.chargePointId hon.idle hmay
      rw [hclosed] at hplace ⊢
      exact ⟨evs, b', hrun, htaken.follows htask (hfollows.plain (.of_fields ⟨rfl, rfl⟩ rfl)) rfl
        (hplace (some .disconnected) (by simp) (by simp [Session.onClosed]))⟩
  · cases hstep

/-- Every step of the proxy is a run of the status board. -/
theorem On.step (h : d.On b) (hsane : d.shared.Sane) {ev : ProxyEvent}
    (hstep : DownstreamState.step cx d ev = some d') :
    ∃ evs b', StatusBoard.step.run b evs = some b' ∧ d'.On b' := by
  cases ev with
  | upgrade id header =>
    cases hstep
    unfold wsUpgradeHandler
    split
    · refine ⟨[.upgrade id], _, StatusBoard.run_one rfl, h.upstream, rfl, h.published, h.current,
        congrArg (· + 1) h.opened, fun k hk => ?_, fun k u hu => ?_⟩ <;> rw [h.opened]
      · have hk : Function.update d.tasks d.opened (some { chargePointId := id }) k = none := hk
        have hne : k ≠ d.opened := by
          rintro rfl
          simp at hk
        exact (StatusBoard.setTask_other hne).trans (h.absent k (by simpa [hne] using hk))
      · have hu : Function.update d.tasks d.opened (some { chargePointId := id }) k = some u := hu
        rcases eq_of_update hu with ⟨rfl, rfl⟩ | ⟨hne, hu⟩
        · exact ⟨_, StatusBoard.setTask_self, rfl, rfl, rfl, fun _ => rfl, by simp, by simp⟩
        · obtain ⟨t, ht, hon⟩ := h.tasks k u hu
          exact ⟨t, (StatusBoard.setTask_other hne).trans ht, hon⟩
    · exact ⟨[], b, rfl, h⟩
  | abandon n =>
    obtain ⟨task, htask, hstep⟩ := Option.bind_eq_some_iff.mp hstep
    obtain ⟨t, ht, hon⟩ := h.tasks n task htask
    split at hstep
    · rename_i hstage
      cases hstep
      have habandon : StatusBoard.step b (.abandon n) =
          some (b.setTask n { t with stage := .finished }) := by
        simp [StatusBoard.step, ht, hon.stage, hstage]
      refine ⟨[.abandon n], _, StatusBoard.run_one habandon, h.setStage htask ht (fun s hs => ?_)
        .finished (by simp [ConnectionStage.isEarly]) (by simp)⟩
      exact (hon.ended s hs).resolve_right (by simp [hstage])
    · cases hstep
  | advance n now =>
    obtain ⟨task, htask, hstep⟩ := Option.bind_eq_some_iff.mp hstep
    exact h.advance hsane htask hstep
  | session n ev =>
    obtain ⟨task, htask, hstep⟩ := Option.bind_eq_some_iff.mp hstep
    obtain ⟨session, hsession, hstep⟩ := Option.bind_eq_some_iff.mp hstep
    exact h.sessionStep htask hsession hstep
  | dispatch id request =>
    refine ⟨[], b, rfl, ?_⟩
    simp only [DownstreamState.step] at hstep
    split at hstep <;> cases hstep
    · exact h.congr rfl rfl rfl rfl rfl
    · exact h
  | shutdown =>
    cases hstep
    exact ⟨[], b, rfl, h.congr rfl rfl rfl rfl rfl⟩

end

theorem on_new : (new {}).On .new where
  upstream := rfl
  downstream := rfl
  published := rfl
  current _ := rfl
  opened := rfl
  absent _ _ := rfl
  tasks _ _ h := by cases h

/-- Every run of the proxy is a run of the status board: what is published and shared of the
connection states is what the board says. -/
theorem statusBoard_of_run {cx : ProxyContext} {events : List ProxyEvent} {d : DownstreamState}
    (hrun : (step cx).run (new {}) events = some d) :
    ∃ evs b, StatusBoard.step.run .new evs = some b ∧ d.On b := by
  obtain ⟨evs, b, hboard, hon, -⟩ := (step cx).simulates StatusBoard.step
    (R := fun d b => d.On b ∧ d.shared.Sane) (fun d ev d' b hstep ⟨hon, hsane⟩ => by
      obtain ⟨evs, b', hboard, hon'⟩ := hon.step hsane hstep
      exact ⟨evs, b', hboard, hon', hsane.sharedStep (sharedStep_of_step hstep)⟩)
    hrun ⟨on_new, SharedView.sane_new {}⟩
  exact ⟨evs, b, hboard, hon⟩

end DownstreamState

end OcppProxy

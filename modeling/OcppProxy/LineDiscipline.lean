import OcppProxy.Transparency
import Mathlib.Data.List.Induction

/-!
# When a proxy Call may go out

A Call of the Central System that the charger has not answered blocks proxy Calls while it is young.
The session reads this off the call tracker, where Calls of both directions share their ids; it holds
as long as nothing takes a young entry of the Central System out of the tracker but its answer.
-/

namespace OcppProxy

/-- Watches a log. It keeps the Calls handed to the charger and not answered since, each with the
time and its id, and stops at a proxy Call that goes out while one of them is younger than
`centralCallGrace`. -/
def lineMonitor (crates : Crates) : Machine (List (Time × String)) (Time × Entry)
  | waiting, (now, .call _ _) =>
    if ∀ c ∈ waiting, (centralCallGrace : Int) ≤ now - c.1 then some waiting else none
  | waiting, (now, .toCharger text) =>
    some ((OcppFrame.callId crates text).toList.map (fun id => (now, id)) ++ waiting)
  | waiting, (_, .readCharger text) =>
    some (waiting.filter fun c => OcppFrame.responseId crates text ≠ some c.2)
  | waiting, _ => some waiting

def IsAnsweredIn (crates : Crates) (id : String) (log : List (Time × Entry)) : Prop :=
  ∃ e ∈ log, ∃ reply, e.2 = .readCharger reply ∧ OcppFrame.responseId crates reply = some id

/-- A Call handed to the charger, with its time and id, that nothing later in the log answers. -/
def IsUnanswered (crates : Crates) (log : List (Time × Entry)) (c : Time × String) : Prop :=
  ∃ earlier later text, log = earlier ++ (c.1, .toCharger text) :: later ∧
    OcppFrame.callId crates text = some c.2 ∧ ¬ IsAnsweredIn crates c.2 later

/-- Before every proxy Call, each Call handed to the charger less than `centralCallGrace` ago has
been answered. -/
def CallsWait (crates : Crates) (log : List (Time × Entry)) : Prop :=
  ∀ (before after : List (Time × Entry)) (now : Time) (request : CommandRequest)
    (prepared : PreparedCall), log = before ++ (now, .call request prepared) :: after →
    ∀ c, IsUnanswered crates before c → (centralCallGrace : Int) ≤ now - c.1

/-- Watches the Calls each peer has open: those read from it, by id, whose answer has not been handed
to it. It stops at a Call under an id its sender has open. -/
def idMonitor (crates : Crates) : Machine (List String × List String) (Time × Entry)
  | (charger, central), (_, .readCharger text) =>
    if ∀ id ∈ OcppFrame.callId crates text, id ∉ charger then
      some ((OcppFrame.callId crates text).toList ++ charger, central)
    else none
  | (charger, central), (_, .readCentral text) =>
    if ∀ id ∈ OcppFrame.callId crates text, id ∉ central then
      some (charger, (OcppFrame.callId crates text).toList ++ central)
    else none
  | (charger, central), (_, .toCharger text) =>
    some (charger.filter fun id => OcppFrame.responseId crates text ≠ some id, central)
  | (charger, central), (_, .toCentral text) =>
    some (charger, central.filter fun id => OcppFrame.responseId crates text ≠ some id)
  | peers, _ => some peers

def ReusesNoOpenId (crates : Crates) (log : List (Time × Entry)) : Prop :=
  ((idMonitor crates).run ([], []) log).isSome = true

instance (crates : Crates) (log : List (Time × Entry)) : Decidable (ReusesNoOpenId crates log) := by
  unfold ReusesNoOpenId
  infer_instance

section
variable {crates : Crates} {log : List (Time × Entry)} {e : Time × Entry} {c : Time × String}

/-- Where a list with one more element at its end splits. -/
theorem concat_eq_append_cons {α : Type} {l before after : List α} {x y : α} :
    l ++ [y] = before ++ x :: after ↔
      (after = [] ∧ l = before ∧ y = x) ∨ ∃ rest, after = rest ++ [y] ∧ l = before ++ x :: rest := by
  constructor
  · intro h
    rcases List.eq_nil_or_concat after with rfl | ⟨rest, z, rfl⟩
    · obtain ⟨hl, hy⟩ := List.append_inj' h rfl
      exact .inl ⟨rfl, hl, by simpa using hy⟩
    · rw [List.concat_eq_append, ← List.cons_append, ← List.append_assoc] at h
      obtain ⟨hl, hy⟩ := List.append_inj' h rfl
      obtain rfl : y = z := by simpa using hy
      exact .inr ⟨rest, List.concat_eq_append, hl⟩
  · rintro (⟨rfl, rfl, rfl⟩ | ⟨rest, rfl, rfl⟩) <;> simp

theorem isAnsweredIn_concat {id : String} : IsAnsweredIn crates id (log ++ [e]) ↔
    IsAnsweredIn crates id log ∨ IsAnsweredIn crates id [e] := by
  simp only [IsAnsweredIn, List.mem_append, or_and_right, exists_or]

theorem isUnanswered_concat : IsUnanswered crates (log ++ [e]) c ↔
    (IsUnanswered crates log c ∧ ¬ IsAnsweredIn crates c.2 [e]) ∨
      ∃ text, e = (c.1, .toCharger text) ∧ OcppFrame.callId crates text = some c.2 := by
  constructor
  · rintro ⟨earlier, later, text, hlog, hid, hopen⟩
    rcases concat_eq_append_cons.mp hlog with ⟨rfl, rfl, rfl⟩ | ⟨rest, rfl, rfl⟩
    · exact .inr ⟨text, rfl, hid⟩
    · rw [isAnsweredIn_concat, not_or] at hopen
      exact .inl ⟨⟨earlier, rest, text, rfl, hid, hopen.1⟩, hopen.2⟩
  · rintro (⟨⟨earlier, later, text, rfl, hid, hopen⟩, he⟩ | ⟨text, rfl, hid⟩)
    · refine ⟨earlier, later ++ [e], text, by simp, hid, ?_⟩
      rw [isAnsweredIn_concat, not_or]
      exact ⟨hopen, he⟩
    · exact ⟨log, [], text, rfl, hid, by simp [IsAnsweredIn]⟩

/-- What the monitor does with one entry. -/
theorem mem_lineMonitor_step {waiting waiting' : List (Time × String)}
    (h : lineMonitor crates waiting e = some waiting') : c ∈ waiting' ↔
      (c ∈ waiting ∧ ¬ IsAnsweredIn crates c.2 [e]) ∨
        ∃ text, e = (c.1, .toCharger text) ∧ OcppFrame.callId crates text = some c.2 := by
  obtain ⟨now, entry⟩ := e
  cases entry with
  | toCharger text =>
    obtain rfl := Option.some.inj h
    simp only [List.mem_append, List.mem_map, Option.mem_toList, IsAnsweredIn, List.mem_singleton,
      exists_eq_left, Prod.mk.injEq, Entry.toCharger.injEq, reduceCtorEq, false_and, exists_false,
      not_false_eq_true, and_true]
    constructor
    · rintro (⟨id, hid, rfl⟩ | hc)
      · exact .inr ⟨text, ⟨rfl, rfl⟩, hid⟩
      · exact .inl hc
    · rintro (hc | ⟨text', ⟨rfl, rfl⟩, hid⟩)
      · exact .inr hc
      · exact .inl ⟨c.2, hid, rfl⟩
  | readCharger text =>
    obtain rfl := Option.some.inj h
    simp [IsAnsweredIn]
  | call request prepared =>
    have h : (if ∀ c ∈ waiting, (centralCallGrace : Int) ≤ now - c.1 then some waiting else none) =
      some waiting' := h
    split at h
    · obtain rfl := Option.some.inj h
      simp [IsAnsweredIn]
    · cases h
  | _ =>
    obtain rfl := Option.some.inj h
    simp [IsAnsweredIn]

/-- The monitor holds exactly the Calls that are not answered. -/
theorem mem_lineMonitor {waiting : List (Time × String)}
    (h : (lineMonitor crates).run [] log = some waiting) :
    c ∈ waiting ↔ IsUnanswered crates log c := by
  induction log using List.reverseRec generalizing waiting with
  | nil =>
    obtain rfl : [] = waiting := by simpa using h
    simp [IsUnanswered]
  | append_singleton log e ih =>
    obtain ⟨before, hbefore, he⟩ := ((lineMonitor crates).run_append _ _ _ _).mp h
    have hstep : lineMonitor crates before e = some waiting := by
      simpa [Machine.run] using he
    rw [mem_lineMonitor_step hstep, isUnanswered_concat, ih hbefore]

theorem callsWait_concat : CallsWait crates (log ++ [e]) ↔ CallsWait crates log ∧
    ∀ request prepared, e.2 = .call request prepared →
      ∀ c, IsUnanswered crates log c → (centralCallGrace : Int) ≤ e.1 - c.1 := by
  constructor
  · intro h
    refine ⟨fun before after now request prepared hlog => ?_, fun request prepared he => ?_⟩
    · exact h before (after ++ [e]) now request prepared (by simp [hlog])
    · exact h log [] e.1 request prepared (by rw [← he])
  · rintro ⟨hlog, he⟩ before after now request prepared hsplit c hc
    rcases concat_eq_append_cons.mp hsplit with ⟨rfl, rfl, rfl⟩ | ⟨rest, rfl, hl⟩
    · exact he request prepared rfl c hc
    · exact hlog before rest now request prepared hl c hc

/-- The monitor passes exactly the logs in which proxy Calls wait. -/
theorem callsWait_iff (log : List (Time × Entry)) :
    CallsWait crates log ↔ ((lineMonitor crates).run [] log).isSome = true := by
  induction log using List.reverseRec with
  | nil => simp [CallsWait]
  | append_singleton log e ih =>
    rw [callsWait_concat, ih, Machine.run_concat]
    cases hrun : (lineMonitor crates).run [] log with
    | none => simp
    | some waiting =>
      obtain ⟨now, entry⟩ := e
      simp only [Option.isSome_some, true_and, Option.bind_some, ← mem_lineMonitor hrun]
      cases entry with
      | call request prepared =>
        have hcall : lineMonitor crates waiting (now, .call request prepared) =
          if ∀ c ∈ waiting, (centralCallGrace : Int) ≤ now - c.1 then some waiting else none := rfl
        rw [hcall]
        split
        · next hold => exact ⟨fun _ => rfl, fun _ _ _ _ => hold⟩
        · next hyoung =>
          exact ⟨fun h => absurd (h request prepared rfl) hyoung, fun h => by cases h⟩
      | _ => simp [lineMonitor]

/-- Entries that send no proxy Call and hand no Call to the charger. -/
theorem callsWait_append {es : List (Time × Entry)} (h : CallsWait crates log)
    (hcall : ∀ e ∈ es, e.2.call? = none) : CallsWait crates (log ++ es) := by
  induction es using List.reverseRec with
  | nil => simpa using h
  | append_singleton es e ih =>
    rw [← List.append_assoc]
    refine callsWait_concat.mpr ⟨ih fun e he => hcall e (List.mem_append_left _ he), ?_⟩
    intro request prepared he
    have hnone := hcall e (List.mem_append_right _ (List.mem_singleton_self e))
    rw [he] at hnone
    cases hnone

theorem isUnanswered_append {es : List (Time × Entry)}
    (hcharger : ∀ e ∈ es, e.2.toCharger? = none) (h : IsUnanswered crates (log ++ es) c) :
    IsUnanswered crates log c ∧ ¬ IsAnsweredIn crates c.2 es := by
  induction es using List.reverseRec with
  | nil => exact ⟨by simpa using h, by simp [IsAnsweredIn]⟩
  | append_singleton es e ih =>
    rw [← List.append_assoc] at h
    rcases isUnanswered_concat.mp h with ⟨hes, he⟩ | ⟨text, rfl, -⟩
    · obtain ⟨hlog, hopen⟩ := ih (fun e he => hcharger e (List.mem_append_left _ he)) hes
      exact ⟨hlog, by rw [isAnsweredIn_concat, not_or]; exact ⟨hopen, he⟩⟩
    · have hnone := hcharger _ (List.mem_append_right _ (List.mem_singleton_self _))
      cases hnone

end

namespace Session

section
variable (cx : SessionContext) (s : Session) (ev : Event)

def HasFreshCentralCall (now : Time) (id : String) : Prop :=
  ∃ p ∈ s.forwarder.callTracker.pending id,
    p.direction = .centralToCharger ∧ now - p.sentAt < centralCallGrace

instance (now : Time) (id : String) : Decidable (s.HasFreshCentralCall now id) := by
  unfold HasFreshCentralCall
  infer_instance

/-- The event brings no Call of the charger and no response of the Central System that passes with
the id of a young, unanswered Call of the Central System. -/
def KeepsFreshCalls : Prop :=
  s.phase = .forwarding →
    (ev.env.upstreamRoom ≠ some 0 → ∀ text ∈ ev.input.chargerText,
      ∀ id ∈ OcppFrame.callId cx.crates text, ¬ s.HasFreshCentralCall ev.env.now id) ∧
    (ev.env.chargerUp = true → ∀ text ∈ ev.input.centralText,
      ∀ id ∈ OcppFrame.responseId cx.crates text, ¬ s.HasFreshCentralCall ev.env.now id)

instance : Decidable (s.KeepsFreshCalls cx ev) := by
  unfold KeepsFreshCalls
  infer_instance

/-- A waiting Call is old, or the tracker still holds it or a later one of its id. -/
def IsGuarded (c : Time × String) : Prop :=
  c.1 ≤ s.clock ∧ ((centralCallGrace : Int) ≤ s.clock - c.1 ∨
    ∃ p, s.forwarder.callTracker.pending c.2 = some p ∧ p.direction = .centralToCharger ∧
      c.1 ≤ p.sentAt)

/-- Proxy Calls have waited so far, and every unanswered Call is guarded. -/
def Guarded : Prop :=
  CallsWait cx.crates s.log ∧ ∀ c, IsUnanswered cx.crates s.log c → s.IsGuarded c

end

section
variable {cx : SessionContext} {s t u : Session} {ev : Event} {now : Time}
  {inbox inbox' : List CommandRequest}

/-- While the line is clear every guarded Call is old. -/
theorem IsGuarded.old {c : Time × String} (h : u.IsGuarded c) (hclear : u.LineClear u.clock) :
    (centralCallGrace : Int) ≤ u.clock - c.1 := by
  rcases h.2 with hold | ⟨p, hp, hdir, hle⟩
  · exact hold
  · have hage := (CallTracker.hasRecentPendingIn_eq_false _ _).mp hclear _ p hp hdir
    exact hage.trans (Int.sub_le_sub_left hle u.clock)

theorem Guarded.quiet (h : u.Guarded cx) (hclock : u.clock = now)
    (hq : Quiet cx now inbox inbox' u t) : t.Guarded cx := by
  obtain ⟨es, hlog, hframe, hcall⟩ := hq.entries
  have hes : ∀ e ∈ es.map fun e => (now, e), e.2.toCharger? = none := by
    refine List.forall_mem_map.mpr fun e he => ?_
    have hf := hframe e he
    cases e <;> first | rfl | cases hf
  refine ⟨?_, fun c hc => ?_⟩
  · rw [hlog]
    clear hlog
    induction es using List.reverseRec with
    | nil => simpa using h.1
    | append_singleton es e ih =>
      rw [List.map_append, ← List.append_assoc]
      refine callsWait_concat.mpr ⟨ih ?_ ?_ ?_, ?_⟩
      · exact fun e he => hframe e (List.mem_append_left _ he)
      · exact fun r p he => hcall r p (List.mem_append_left _ he)
      · exact fun e he => hes e (by rw [List.map_append]; exact List.mem_append_left _ he)
      · rintro request prepared he c hc
        obtain rfl : e = .call request prepared := he
        have hclear := (hcall _ _ (List.mem_append_right _ (List.mem_singleton_self _))).2
        have hold := isUnanswered_append
          (fun e he => hes e (by rw [List.map_append]; exact List.mem_append_left _ he)) hc
        subst hclock
        exact (h.2 c hold.1).old hclear
  · rw [hlog] at hc
    have hguarded := h.2 c (isUnanswered_append hes hc).1
    unfold IsGuarded
    rw [hq.clock, hq.callTracker]
    exact hguarded

theorem IsGuarded.congr {c : Time × String} (h : u.IsGuarded c) (hclock : t.clock = u.clock)
    (hpending : t.forwarder.callTracker.pending c.2 = u.forwarder.callTracker.pending c.2) :
    t.IsGuarded c := by
  unfold IsGuarded
  rw [hclock, hpending]
  exact h

/-- Later on a guarded Call is guarded still. -/
theorem IsGuarded.later {c : Time × String} (h : s.IsGuarded c) (hle : s.clock ≤ now) :
    IsGuarded { s with clock := now } c := by
  refine ⟨h.1.trans hle, h.2.imp_left fun hold => hold.trans (Int.sub_le_sub_right hle c.1)⟩

/-- A Call whose id has no young Call of the Central System in the tracker is old. -/
theorem IsGuarded.old_of_not_fresh {c : Time × String} (h : s.IsGuarded c)
    (hfresh : ¬ s.HasFreshCentralCall s.clock c.2) :
    (centralCallGrace : Int) ≤ s.clock - c.1 := by
  rcases h.2 with hold | ⟨p, hp, hdir, hle⟩
  · exact hold
  · have hage : (centralCallGrace : Int) ≤ s.clock - p.sentAt := by
      by_contra hyoung
      exact hfresh ⟨p, hp, hdir, not_le.mp hyoung⟩
    exact hage.trans (Int.sub_le_sub_left hle s.clock)

/-- Entries that send no proxy Call and hand no text to the charger keep the log guarded, if what
waits and is not answered by them stays guarded. -/
theorem Guarded.append (h : s.Guarded cx) (es : List Entry) (hlog : u.log = s.log)
    (hcall : ∀ e ∈ es, e.call? = none) (hcharger : ∀ e ∈ es, e.toCharger? = none)
    (hguarded : ∀ c, s.IsGuarded c → ¬ IsAnsweredIn cx.crates c.2 (es.map fun e => (now, e)) →
      u.IsGuarded c) : (u.noteAll now es).Guarded cx := by
  unfold Guarded
  rw [noteAll_log, hlog]
  refine ⟨callsWait_append h.1 (List.forall_mem_map.mpr hcall), fun c hc => ?_⟩
  obtain ⟨hold, hopen⟩ := isUnanswered_append (List.forall_mem_map.mpr hcharger) hc
  exact hguarded c (h.2 c hold) hopen

/-- What a handed-over text leaves guarded: what was, and the text itself if it is a Call. -/
theorem Guarded.handOver {text : String} (h : s.Guarded cx) (hlog : u.log = s.log)
    (hguarded : ∀ c, s.IsGuarded c → u.IsGuarded c)
    (htext : ∀ id, OcppFrame.callId cx.crates text = some id → u.IsGuarded (now, id)) :
    (u.noteAll now [.readCentral text, .toCharger text]).Guarded cx := by
  have hread : (u.noteAll now [.readCentral text]).Guarded cx :=
    h.append _ hlog (by simp [Entry.call?]) (by simp [Entry.toCharger?]) fun c hc _ => hguarded c hc
  have hsplit : (u.noteAll now [.readCentral text, .toCharger text]).log =
      (u.noteAll now [.readCentral text]).log ++ [(now, .toCharger text)] := by simp
  unfold Guarded
  rw [hsplit]
  refine ⟨callsWait_append hread.1 (by simp [Entry.call?]), fun c hc => ?_⟩
  rcases isUnanswered_concat.mp hc with ⟨hold, -⟩ | ⟨text', he, hid⟩
  · exact hread.2 c hold
  · obtain ⟨hnow, rfl⟩ : now = c.1 ∧ text = text' := by simpa using he
    have hc' := htext c.2 hid
    rw [hnow] at hc'
    exact hc'

/-- Tracking a frame keeps a waiting Call guarded unless it takes out a young Call of its id. -/
theorem IsGuarded.resolveAction {c : Time × String} {frame : OcppFrame} {direction : Direction}
    (h : s.IsGuarded c)
    (hfresh : c.2 = frame.uniqueId → ¬ s.HasFreshCentralCall s.clock frame.uniqueId) :
    IsGuarded { s with
      forwarder := (s.forwarder.resolveAction now frame direction).2 } c := by
  by_cases hid : c.2 = frame.uniqueId
  · exact ⟨h.1, .inl (h.old_of_not_fresh (hid ▸ hfresh hid))⟩
  · exact h.congr rfl (by rw [MessageForwarder.resolveAction_pending, if_neg hid])

/-- A Call of the Central System takes the place of an earlier one of its id. -/
theorem IsGuarded.trackCall {c : Time × String} {frame : OcppFrame} (h : s.IsGuarded c)
    (hcall : frame.messageType.isCall = true) (hclock : s.clock = now) :
    IsGuarded { s with
      forwarder := (s.forwarder.resolveAction now frame .centralToCharger).2 } c := by
  by_cases hid : c.2 = frame.uniqueId
  · refine ⟨h.1, .inr ?_⟩
    simp only [MessageForwarder.resolveAction_pending, hid, if_true]
    cases hm : frame.messageType with
    | call action => exact ⟨_, rfl, rfl, hclock ▸ h.1⟩
    | callResult => simp [hm, OcppMessageType.isCall] at hcall
    | callError => simp [hm, OcppMessageType.isCall] at hcall
  · exact h.congr rfl (by rw [MessageForwarder.resolveAction_pending, if_neg hid])

theorem Guarded.frameStep (h : FrameStep cx ev.env ev.input inbox inbox' s t)
    (hclock : s.clock = ev.env.now) (hok : s.KeepsFreshCalls cx ev)
    (hage : (centralCallGrace : Int) ≤ s.forwarder.callTracker.maxAge) (hs : s.Guarded cx) :
    t.Guarded cx := by
  -- entries that leave the tracker alone
  have hplain (u : Session) (es : List Entry) (hlog : u.log = s.log) (hu : u.clock = s.clock)
      (htracker : u.forwarder.callTracker = s.forwarder.callTracker)
      (hcall : ∀ e ∈ es, e.call? = none) (hcharger : ∀ e ∈ es, e.toCharger? = none) :
      (u.noteAll ev.env.now es).Guarded cx :=
    hs.append es hlog hcall hcharger fun c hc _ => hc.congr hu (by rw [htracker])
  cases h with
  | quiet _ _ hq => exact hs.quiet hclock hq
  | dropped _ _ hq =>
    exact (hplain s [_] rfl rfl rfl (by simp [Entry.call?]) (by simp [Entry.toCharger?])).quiet
      hclock hq
  | consumed _ _ _ _ _ _ hq =>
    exact (hplain s _ rfl rfl rfl (by simp [Entry.call?]) (by simp [Entry.toCharger?])).quiet
      hclock hq
  | @forwarded text frame hinput hphase hparse _ hroom hq =>
    have hbase : (({ s with
        forwarder := (s.forwarder.resolveAction ev.env.now frame .chargerToCentral).2 } :
          Session).noteAll ev.env.now [.readCharger text, .toCentral text]).Guarded cx := by
      refine hs.append _ rfl (by simp [Entry.call?]) (by simp [Entry.toCharger?])
        fun c hc hopen => hc.resolveAction fun hid => ?_
      cases hcall : frame.messageType.isCall with
      | true =>
        rw [hclock]
        refine (hok hphase).1 hroom text (by simp [hinput, Input.chargerText]) _ ?_
        simp [OcppFrame.callId_of_parse hparse, hcall]
      | false =>
        -- the charger answers it here
        refine absurd ⟨_, List.mem_cons_self, text, rfl, ?_⟩ hopen
        simp [OcppFrame.responseId_of_parse hparse, hcall, hid]
    exact hbase.quiet hclock hq
  | @buffered text frame _ _ _ _ _ _ hq _ =>
    refine (hplain { s with forwarder := (s.forwarder.bufferUpstream frame).2 } _ rfl rfl rfl
      ?_ ?_).quiet hclock hq
    · exact List.forall_mem_cons.mpr ⟨rfl, List.forall_mem_map.mpr fun _ _ => rfl⟩
    · exact List.forall_mem_cons.mpr ⟨rfl, List.forall_mem_map.mpr fun _ _ => rfl⟩
  | relayed _ _ _ _ hq =>
    exact (hplain s _ rfl rfl rfl (by simp [Entry.call?]) (by simp [Entry.toCharger?])).quiet
      hclock hq
  | lost _ _ _ _ _ hq =>
    exact (hplain s [_] rfl rfl rfl (by simp [Entry.call?]) (by simp [Entry.toCharger?])).quiet
      hclock hq
  | @delivered text frame hinput hphase hparse hup hq =>
    suffices hbase : (({ s with
        forwarder := (s.forwarder.resolveAction ev.env.now frame .centralToCharger).2 } :
          Session).noteAll ev.env.now [.readCentral text, .toCharger text]).Guarded cx from
      hbase.quiet hclock hq
    cases hcall : frame.messageType.isCall with
    | true =>
      refine hs.handOver rfl (fun c hc => hc.trackCall hcall hclock) fun id hid => ?_
      obtain rfl : frame.uniqueId = id := by
        simpa [OcppFrame.callId_of_parse hparse, hcall] using hid
      refine ⟨hclock.ge, .inr ?_⟩
      simp only [MessageForwarder.resolveAction_pending, if_true]
      cases hm : frame.messageType with
      | call action => exact ⟨_, rfl, rfl, le_rfl⟩
      | callResult => simp [hm, OcppMessageType.isCall] at hcall
      | callError => simp [hm, OcppMessageType.isCall] at hcall
    | false =>
      refine hs.handOver rfl (fun c hc => hc.resolveAction fun _ => ?_) fun id hid => ?_
      · rw [hclock]
        refine (hok hphase).2 hup text (by simp [hinput, Input.centralText]) _ ?_
        simp [OcppFrame.responseId_of_parse hparse, hcall]
      · simp [OcppFrame.callId_of_parse hparse, hcall] at hid
  | @passed text e _ _ hparse _ hq =>
    refine (hs.handOver rfl (fun _ => id) fun id hid => ?_).quiet hclock hq
    rw [OcppFrame.callId_of_parse_error hparse] at hid
    cases hid
  | undelivered _ _ _ _ hq =>
    exact (hplain s [_] rfl rfl rfl (by simp [Entry.call?]) (by simp [Entry.toCharger?])).quiet
      hclock hq
  | swept _ _ _ ht =>
    obtain ⟨forwarder, heq, -, htracker⟩ := s.housekeepingArm_eq ev.env
    rw [ht, heq]
    refine hs.append _ rfl (List.forall_mem_map.mpr fun _ _ => rfl)
      (List.forall_mem_map.mpr fun _ _ => rfl) fun c hc _ => ⟨hc.1, ?_⟩
    rcases hc.2 with hold | ⟨p, hp, hdir, hle⟩
    · exact .inl hold
    · -- what the tick takes out is older than the grace
      by_cases hyoung : ev.env.now - p.sentAt < s.forwarder.callTracker.maxAge
      · refine .inr ⟨p, ?_, hdir, hle⟩
        exact htracker ▸ (CallTracker.pending_cleanupExpired _ _ _).mpr ⟨hp, hyoung⟩
      · have hold : (centralCallGrace : Int) ≤ s.clock - p.sentAt :=
          hage.trans (hclock ▸ not_lt.mp hyoung)
        exact .inl (hold.trans (Int.sub_le_sub_left hle s.clock))
  | @flushed s' done rest _ _ hbefore _ _ hq _ =>
    have hs' := hs.quiet hclock hbefore
    have hbase : (({ s' with
        phase := .forwarding
        forwarder := { s'.forwarder with upstreamBuffer := rest } } : Session).noteAll ev.env.now
          (done.map fun frame => .toCentral frame.raw)).Guarded cx :=
      hs'.append _ rfl (List.forall_mem_map.mpr fun _ _ => rfl)
        (List.forall_mem_map.mpr fun _ _ => rfl) fun _ hc _ => hc
    exact hbase.quiet (hbefore.clock.trans hclock) hq

theorem FrameStep.maxAge {env : Env} {input : Input}
    (h : FrameStep cx env input inbox inbox' s t) :
    t.forwarder.callTracker.maxAge = s.forwarder.callTracker.maxAge := by
  cases h with
  | quiet _ _ hq => rw [hq.callTracker]
  | dropped _ _ hq => rw [hq.callTracker, note_forwarder]
  | consumed _ _ _ _ _ _ hq => rw [hq.callTracker, noteAll_forwarder]
  | forwarded _ _ _ _ _ hq =>
    rw [hq.callTracker, noteAll_forwarder, MessageForwarder.resolveAction_maxAge]
  | buffered _ _ _ _ _ _ hq _ =>
    rw [hq.callTracker, noteAll_forwarder]
    rfl
  | relayed _ _ _ _ hq => rw [hq.callTracker, noteAll_forwarder]
  | lost _ _ _ _ _ hq => rw [hq.callTracker, note_forwarder]
  | delivered _ _ _ _ hq =>
    rw [hq.callTracker, noteAll_forwarder, MessageForwarder.resolveAction_maxAge]
  | passed _ _ _ _ hq => rw [hq.callTracker, noteAll_forwarder]
  | undelivered _ _ _ _ hq => rw [hq.callTracker, note_forwarder]
  | swept _ _ _ ht =>
    obtain ⟨forwarder, heq, -, htracker⟩ := s.housekeepingArm_eq env
    rw [ht, heq, noteAll_forwarder, htracker]
    rfl
  | flushed _ _ hbefore _ _ hq _ =>
    rw [hq.callTracker, noteAll_forwarder]
    exact congrArg CallTracker.maxAge hbefore.callTracker

/-- As long as no young Call of the Central System is taken out of the tracker by a frame that is
not its answer, every proxy Call waits for the charger to answer. -/
theorem calls_wait_of_fresh_kept {manager : ConnectionStateManager}
    {events : List Event} (hrun : (step cx).run (start cx now manager) events = some t)
    (hage : centralCallGrace ≤ cx.config.callTrackerMaxAge)
    (hkeeps : (step cx).Meets (fun s ev => KeepsFreshCalls cx s ev) (start cx now manager)
      events) : CallsWait cx.crates t.log := by
  have hstart : (start cx now manager).Guarded cx := by
    obtain ⟨events, hlog⟩ := start_log cx now manager
    unfold Guarded
    rw [hlog]
    have hempty : CallsWait cx.crates ([] : List (Time × Entry)) := by
      intro before after now request prepared h
      simp at h
    refine ⟨?_, fun c hc => ?_⟩
    · simpa using callsWait_append hempty (List.forall_mem_map.mpr fun _ _ => rfl)
    · rw [← List.nil_append (List.map _ _)] at hc
      obtain ⟨earlier, later, text, h, -⟩ :=
        (isUnanswered_append (List.forall_mem_map.mpr fun _ _ => rfl) hc).1
      simp at h
  -- an entry leaves the tracker with its answer or once it is older than the grace period
  have hkeep (s : Session) (ev : Event) (s' : Session) (hok : KeepsFreshCalls cx s ev)
      (hs : step cx s ev = some s')
      (h : s.forwarder.callTracker.maxAge = cx.config.callTrackerMaxAge ∧ s.Guarded cx) :
      s'.forwarder.callTracker.maxAge = cx.config.callTrackerMaxAge ∧ s'.Guarded cx := by
    have hframe := frameStep_of_step hs []
    have hle := (step_eq_some.mp hs).1
    have hlater : ({ s with clock := ev.env.now } : Session).Guarded cx :=
      ⟨h.2.1, fun c hc => (h.2.2 c hc).later hle⟩
    refine ⟨hframe.maxAge.trans h.1, hlater.frameStep hframe rfl hok ?_⟩
    rw [show CallTracker.maxAge _ = _ from h.1]
    exact_mod_cast hage
  refine ((step cx).invariant_of_meets hkeep hrun hkeeps ⟨?_, hstart⟩).2.1
  rw [start_forwarder]
  rfl

/-- A Call of the Central System under id 7, its answer, and a Call of the charger under the same
id. -/
def triggerStatus : String × Json :=
  ("[2,\"7\",\"TriggerMessage\",\x7b\x7d]",
    .array [.ofNat 2, .string "7", .string "TriggerMessage", .ofFields []])

def triggerAnswer : String × Json :=
  ("[3,\"7\",\x7b\x7d]", .array [.ofNat 3, .string "7", .ofFields []])

def sameIdHeartbeat : String × Json :=
  ("[2,\"7\",\"Heartbeat\",\x7b\x7d]",
    .array [.ofNat 2, .string "7", .string "Heartbeat", .ofFields []])

abbrev lineTable : List (String × Json) := [triggerStatus, triggerAnswer, sameIdHeartbeat]

theorem calls_wait_of_fresh_kept_trigger :
    ∃ t, runOfTable lineTable [.at 1 .connected, .at 2 (.central (.text triggerStatus.1)),
        .at 3 (.charger (.text triggerAnswer.1)),
        .at 4 (.command (some (.new 0 "a" .clearCurrentLimit .mqtt)))] = some t ∧
      CallsWait (Crates.ofTable lineTable) t.log := by
  obtain ⟨t, hrun⟩ := Option.isSome_iff_exists.mp (show (runOfTable lineTable
    [.at 1 .connected, .at 2 (.central (.text triggerStatus.1)),
      .at 3 (.charger (.text triggerAnswer.1)),
      .at 4 (.command (some (.new 0 "a" .clearCurrentLimit .mqtt)))]).isSome = true by
    decide +kernel)
  exact ⟨t, hrun, calls_wait_of_fresh_kept hrun (by decide) (by decide +kernel)⟩

/-- A Call of the charger that happens to have the id of the Central System's takes its place in the
tracker, and a proxy Call goes out two seconds after it. Neither peer used one of its own ids
twice. -/
theorem not_callsWait_sameId :
    ∃ t, runOfTable lineTable [.at 1 .connected, .at 2 (.central (.text triggerStatus.1)),
        .at 3 (.charger (.text sameIdHeartbeat.1)),
        .at 4 (.command (some (.new 0 "a" .clearCurrentLimit .mqtt)))] = some t ∧
      ReusesNoOpenId (Crates.ofTable lineTable) t.log ∧
      ¬ CallsWait (Crates.ofTable lineTable) t.log := by
  have hseen : (runOfTable lineTable
      [.at 1 .connected, .at 2 (.central (.text triggerStatus.1)),
        .at 3 (.charger (.text sameIdHeartbeat.1)),
        .at 4 (.command (some (.new 0 "a" .clearCurrentLimit .mqtt)))]).map
      (fun t => (decide (ReusesNoOpenId (Crates.ofTable lineTable) t.log),
        ((lineMonitor (Crates.ofTable lineTable)).run [] t.log).isSome)) = some (true, false) := by
    decide +kernel
  obtain ⟨t, hrun, ht⟩ := Option.map_eq_some_iff.mp hseen
  rw [Prod.mk.injEq, decide_eq_true_eq] at ht
  exact ⟨t, hrun, ht.1, by rw [callsWait_iff, ht.2]; decide⟩

end

end Session

end OcppProxy

import OcppProxy.CallSteps
import OcppProxy.CommandProvenance
import OcppProxy.ConfinedCommands
import OcppProxy.SessionWalk

/-!
# The ids of the proxy's own Calls

A session numbers its Calls, and the number is what stands behind the last dash of a Call's id. The
numbers only grow, so no id is used twice, and an answer that the proxy takes is the answer to one
Call: it is never taken again, whatever the charger repeats.
-/

namespace OcppProxy

def LocalCallQueue.uniqueIdAt (now : Time) (sequence : Nat) : String :=
  s!"{uniqueIdPrefix}{now.timestampMillis}-{sequence}"

theorem LocalCallQueue.nextUniqueId_eq (q : LocalCallQueue) (now : Time) :
    q.nextUniqueId now = (uniqueIdAt now (q.sequence + 1), { q with sequence := q.sequence + 1 }) :=
  rfl

/-- What stands before the first separator is determined by the whole. -/
theorem takeWhile_ne_append {α : Type} [DecidableEq α] {l rest : List α} {sep : α}
    (hl : sep ∉ l) : (l ++ sep :: rest).takeWhile (· ≠ sep) = l := by
  rw [List.takeWhile_append_of_pos, List.takeWhile_cons_of_neg (by simp), List.append_nil]
  intro a ha
  have hne : a ≠ sep := fun h => hl (h ▸ ha)
  simpa using hne

theorem dash_notMem_toDigits (n : Nat) : '-' ∉ Nat.toDigits 10 n := by
  intro h
  have hdigit := Nat.isDigit_of_mem_toDigits (by omega) (by omega) h
  revert hdigit
  decide

/-- The digits behind the last dash are read from the end. -/
theorem LocalCallQueue.digits_uniqueIdAt (now : Time) (n : Nat) :
    (uniqueIdAt now n).toList.reverse.takeWhile (· ≠ '-') = (Nat.toDigits 10 n).reverse := by
  have hlist : (uniqueIdAt now n).toList =
      (uniqueIdPrefix ++ toString now.timestampMillis).toList ++ '-' :: Nat.toDigits 10 n := by
    rw [← Nat.toList_repr]
    simp only [uniqueIdAt, toString, String.toList_append, List.append_assoc]
    rfl
  rw [hlist, List.reverse_append, List.reverse_cons, List.append_assoc, List.singleton_append]
  exact takeWhile_ne_append (by simpa using dash_notMem_toDigits n)

/-- Ids of different numbers differ, whenever they are given out. -/
theorem LocalCallQueue.uniqueIdAt_inj {now later : Time} {m n : Nat}
    (h : uniqueIdAt now m = uniqueIdAt later n) : m = n := by
  have hdigits : (Nat.toDigits 10 m).reverse = (Nat.toDigits 10 n).reverse := by
    rw [← digits_uniqueIdAt now m, h, digits_uniqueIdAt later n]
  have hvalue := congrArg (Nat.ofDigitChars 10 · 0) (List.reverse_injective hdigits)
  simpa only [Nat.ofDigitChars_toDigits (by omega : 1 < 10) (by omega : 10 ≤ 10)] using hvalue

def Entry.isApart : Entry → Bool
  | .call .. | .consumed _ => false
  | _ => true

def IsAnswerTo (crates : Crates) (received : Time × String) (prepared : PreparedCall) : Prop :=
  ∃ frame, OcppFrame.parse crates received.1 received.2 = .ok frame ∧
    frame.messageType.isCall = false ∧ frame.uniqueId = prepared.uniqueId

namespace Session

/-- The answers that the session took for its own, and when. -/
def answersTaken (s : Session) : List (Time × String) :=
  s.log.filterMap fun e => e.2.consumed?.map (e.1, ·)

/-- The Calls sent are numbered upwards, and those that were answered, in the order of their
answers, come before the one in flight. -/
structure Numbered (cx : SessionContext) (s : Session) : Prop where
  ids : ∃ numbers : List (Time × Nat),
    (s.trace Entry.call?).map PreparedCall.uniqueId =
      numbers.map (fun n => LocalCallQueue.uniqueIdAt n.1 n.2) ∧
    (numbers.map Prod.snd).Pairwise (· < ·) ∧ ∀ n ∈ numbers, n.2 ≤ s.localCalls.sequence
  answers : ∃ before answered,
    s.trace Entry.call? = before ++ s.localCalls.inFlight.toList.map InFlight.prepared ∧
      answered.Sublist before ∧ List.Forall₂ (IsAnswerTo cx.crates) s.answersTaken answered

/-- From `s` to `t` no Call is sent and no answer is taken. -/
structure Calm (s t : Session) : Prop where
  log : Adds Entry.isApart s t
  sequence : s.localCalls.sequence ≤ t.localCalls.sequence
  slot : t.localCalls.inFlight = s.localCalls.inFlight ∨ t.localCalls.inFlight = none

section
variable {cx : SessionContext} {env : Env} {now : Time} {s t u : Session}

theorem answersTaken_append {added : List (Time × Entry)} (h : t.log = s.log ++ added) :
    t.answersTaken = s.answersTaken ++ added.filterMap fun e => e.2.consumed?.map (e.1, ·) := by
  simp only [answersTaken, h, List.filterMap_append]

theorem Calm.traces (h : Calm s t) : t.trace Entry.call? = s.trace Entry.call? ∧
    t.answersTaken = s.answersTaken := by
  obtain ⟨es, hlog, hes⟩ := h.log
  constructor
  · rw [trace_append _ hlog, List.filterMap_eq_nil_iff.mpr, List.append_nil]
    intro e he
    have hapart := hes e he
    obtain ⟨at', e⟩ := e
    cases e <;> first | rfl | cases hapart
  · rw [answersTaken_append hlog, List.filterMap_eq_nil_iff.mpr, List.append_nil]
    intro e he
    have hapart := hes e he
    obtain ⟨at', e⟩ := e
    cases e <;> first | rfl | cases hapart

theorem Numbered.calm (hs : s.Numbered cx) (h : Calm s t) : t.Numbered cx := by
  obtain ⟨hcalls, htaken⟩ := h.traces
  obtain ⟨numbers, hids, hupward, hbound⟩ := hs.ids
  obtain ⟨before, answered, hbefore, hsublist, hanswers⟩ := hs.answers
  refine ⟨⟨numbers, by rw [hcalls, hids], hupward, fun n hn => ?_⟩, ?_⟩
  · exact (hbound n hn).trans h.sequence
  · rw [hcalls, htaken]
    rcases h.slot with hslot | hslot
    · rw [hslot]
      exact ⟨before, answered, hbefore, hsublist, hanswers⟩
    · rw [hslot]
      exact ⟨_, answered, (List.append_nil _).symm,
        hsublist.trans (hbefore ▸ List.sublist_append_left ..), hanswers⟩

/-- An answer frees the slot, so what is taken next answers a later Call. -/
theorem Numbered.take (hs : s.Numbered cx) {f : InFlight} {text : String}
    (hf : s.localCalls.inFlight = some f) (hanswer : IsAnswerTo cx.crates (now, text) f.prepared) :
    (({ s with localCalls := { s.localCalls with inFlight := none } } : Session).note now
      (.consumed text)).Numbered cx := by
  obtain ⟨numbers, hids, hupward, hbound⟩ := hs.ids
  obtain ⟨before, answered, hbefore, hsublist, hanswers⟩ := hs.answers
  have hcalls : (({ s with localCalls := { s.localCalls with inFlight := none } } : Session).note
      now (.consumed text)).trace Entry.call? = s.trace Entry.call? := by
    rw [trace_note]
    exact List.append_nil _
  refine ⟨⟨numbers, by rw [hcalls, hids], hupward, hbound⟩, ?_⟩
  refine ⟨before ++ [f.prepared], answered ++ [f.prepared], ?_, ?_, ?_⟩
  · rw [hcalls, hbefore, hf]
    simp
  · exact hsublist.append (.refl _)
  · rw [answersTaken_append (note_log ..)]
    exact List.rel_append hanswers (.cons hanswer .nil)

/-- A Call is sent under the next number while nothing is in flight. -/
theorem Numbered.send (hs : s.Numbered cx) {calls : LocalCallQueue} {request : CommandRequest}
    {prepared : PreparedCall} (hidle : s.localCalls.inFlight = none)
    (hcalls : calls.sequence = s.localCalls.sequence + 1)
    (hid : prepared.uniqueId = LocalCallQueue.uniqueIdAt now calls.sequence) :
    (({ s with localCalls := calls.setInFlight request prepared now } : Session).note now
      (.call request prepared)).Numbered cx := by
  obtain ⟨numbers, hids, hupward, hbound⟩ := hs.ids
  obtain ⟨before, answered, hbefore, hsublist, hanswers⟩ := hs.answers
  refine ⟨⟨numbers ++ [(now, calls.sequence)], ?_, ?_, ?_⟩, ?_⟩
  · rw [trace_note, List.map_append, List.map_append, ← hids]
    simp [trace, Entry.call?, hid]
  · rw [List.map_append, List.pairwise_append]
    refine ⟨hupward, List.pairwise_singleton .., fun m hm n hn => ?_⟩
    obtain ⟨number, hnumber, rfl⟩ := List.mem_map.mp hm
    obtain rfl := List.mem_singleton.mp hn
    have hle := hbound number hnumber
    show number.2 < calls.sequence
    omega
  · intro n hn
    show n.2 ≤ calls.sequence
    rcases List.mem_append.mp hn with hn | hn
    · have hle := hbound n hn
      omega
    · obtain rfl := List.mem_singleton.mp hn
      exact le_rfl
  · refine ⟨before, answered, ?_, hsublist, ?_⟩
    · rw [hidle, Option.toList_none, List.map_nil, List.append_nil] at hbefore
      rw [trace_note, ← hbefore]
      rfl
    · rw [answersTaken_append (note_log ..)]
      simpa [Entry.consumed?, answersTaken] using hanswers

/-! ## The arms -/

theorem Calm.of_same (hlog : t.log = s.log) (hcalls : t.localCalls = s.localCalls) : Calm s t :=
  ⟨.of_log hlog, by rw [hcalls], by rw [hcalls]; exact .inl rfl⟩

theorem Calm.refl (s : Session) : Calm s s := .of_same rfl rfl

theorem Calm.trans (h : Calm s t) (h' : Calm t u) : Calm s u where
  log := h.log.trans h'.log
  sequence := h.sequence.trans h'.sequence
  slot := h'.slot.elim (fun hslot => hslot ▸ h.slot) .inr

theorem Calm.same (h : Calm s t) (hlog : u.log = t.log) (hcalls : u.localCalls = t.localCalls) :
    Calm s u :=
  h.trans (.of_same hlog hcalls)

theorem Calm.noteAll {es : List Entry} (h : Calm s t) (hes : ∀ e ∈ es, e.isApart = true) :
    Calm s (t.noteAll now es) :=
  ⟨h.log.noteAll hes, h.sequence, h.slot⟩

theorem Calm.note {e : Entry} (h : Calm s t) (he : e.isApart = true) : Calm s (t.note now e) :=
  ⟨h.log.note he, h.sequence, h.slot⟩

/-- Moves of the queue that send nothing. -/
theorem calm_queue {localCalls : LocalCallQueue}
    (hsequence : s.localCalls.sequence ≤ localCalls.sequence)
    (hslot : localCalls.inFlight = s.localCalls.inFlight ∨ localCalls.inFlight = none) :
    Calm s { s with localCalls } :=
  ⟨.of_log rfl, hsequence, hslot⟩

theorem Numbered.sendLoop (fuel : Nat) (s : Session) (hs : s.Numbered cx) :
    (sent (sendLoop cx env fuel s)).Numbered cx := by
  induction fuel generalizing s with
  | zero => exact hs
  | succ fuel ih =>
    unfold Session.sendLoop
    split
    · exact hs
    · rename_i request calls hpop
      obtain ⟨hidle, rest, hq, rfl⟩ := s.localCalls.popNext_eq_some.mp hpop
      -- a request that is not sent leaves a gap in the numbers
      have hpopped : Calm s { s with localCalls := { s.localCalls with
          queued := rest
          sequence := s.localCalls.sequence + 1 } } := calm_queue (Nat.le_succ _) (.inl rfl)
      have hrefuse (status : CommandStatus) (detail : String) : Calm s
          (refuse cx env.now request status detail { s with localCalls := { s.localCalls with
            queued := rest
            sequence := s.localCalls.sequence + 1 } }) := hpopped.note rfl
      dsimp only [LocalCallQueue.nextUniqueId_eq]
      split
      · exact ih _ (hs.calm (hrefuse _ _))
      · rename_i prepared hp
        split
        · exact hs.calm (hrefuse _ _)
        · obtain ⟨payload, amps, detail, -, rfl⟩ := prepareCall_eq_ok.mp hp
          exact hs.send hidle rfl rfl

theorem Numbered.sendThen (hs : s.Numbered cx) : (s.sendThen cx env).1.Numbered cx := by
  rw [sendThen_fst]
  unfold sendLocalCalls
  split
  · exact hs
  · split
    · exact hs
    · exact .sendLoop _ s hs

theorem Numbered.forwardCharger (hs : s.Numbered cx) (text : String) (frame : OcppFrame) :
    (s.forwardCharger cx env text frame).1.Numbered cx := by
  have hnoted (f : Forwarded WireSink) : Calm s (({ s with forwarder := f.forwarder } :
      Session).noteAll env.now (f.sink.sent.map .toCentral ++ f.events.map .event)) := by
    refine Calm.noteAll (.of_same rfl rfl) fun e he => ?_
    rcases List.mem_append.mp he with he | he <;> obtain ⟨-, -, rfl⟩ := List.mem_map.mp he <;> rfl
  unfold Session.forwardCharger
  generalize s.forwarder.forwardUpstream env.now frame env.upstreamSink = f
  dsimp only
  split
  · have hcounted : Calm s { (({ s with forwarder := f.forwarder } : Session).noteAll env.now
        (f.sink.sent.map .toCentral ++ f.events.map .event)) with
          manager := s.manager.recordForwarded .chargerToCentral } := (hnoted f).same rfl rfl
    split
    · exact (hs.calm hcounted).sendThen
    · exact hs.calm hcounted
  · split
    · refine hs.calm (Calm.noteAll ?_ (List.forall_mem_map.mpr fun _ _ => rfl))
      exact (hnoted f).same rfl rfl
    · exact hs.calm (hnoted f)

theorem Numbered.chargerText (hs : s.Numbered cx) (text : String) :
    (s.chargerText cx env text).1.Numbered cx := by
  have hread : (s.note env.now (.readCharger text)).Numbered cx :=
    hs.calm ((Calm.refl s).note rfl)
  unfold Session.chargerText
  dsimp only
  split
  · rename_i frame hparse
    split
    · rename_i inFlight localCalls htake
      obtain ⟨hresponse, hf, hid, rfl⟩ := s.localCalls.ours_eq_some.mp htake
      have htaken := hread.take hf ⟨frame, hparse, hresponse, hid.symm⟩
      exact (htaken.calm ((Calm.refl _).note rfl)).sendThen
    · exact hread.forwardCharger text frame
  · have hsent : Calm (s.note env.now (.readCharger text))
        ((s.note env.now (.readCharger text)).noteAll env.now
          ((MessageSink.sendRaw env.upstreamSink text).2.sent.map .toCentral)) :=
      (Calm.refl _).noteAll (List.forall_mem_map.mpr fun _ _ => rfl)
    split <;> exact hread.calm hsent

theorem calm_centralText (text : String) (s : Session) : Calm s (s.centralText cx env text).1 := by
  have hread : Calm s (s.note env.now (.readCentral text)) := (Calm.refl s).note rfl
  have hnoted (f : Forwarded WireSink) : Calm s (({ s.note env.now (.readCentral text) with
      forwarder := f.forwarder } : Session).noteAll env.now
        (f.sink.sent.map .toCharger ++ f.events.map .event)) := by
    refine Calm.noteAll (hread.same rfl rfl) fun e he => ?_
    rcases List.mem_append.mp he with he | he <;> obtain ⟨-, -, rfl⟩ := List.mem_map.mp he <;> rfl
  unfold centralText
  dsimp only
  split
  · split
    · exact (hnoted _).same rfl rfl
    · exact hnoted _
  · have hsent : Calm s ((s.note env.now (.readCentral text)).noteAll env.now
        ((MessageSink.sendRaw env.chargerSink text).2.sent.map .toCharger)) :=
      hread.noteAll (List.forall_mem_map.mpr fun _ _ => rfl)
    split <;> exact hsent

theorem Numbered.commandArm (hs : s.Numbered cx) (request : Option CommandRequest) :
    (s.commandArm cx env request).1.Numbered cx := by
  cases request with
  | none => exact hs.calm (.of_same rfl rfl)
  | some request =>
    rw [commandArm_some]
    have hpushed : Calm s { s with localCalls := (s.localCalls.push request).2 } :=
      calm_queue le_rfl (.inl rfl)
    refine (hs.calm (hpushed.noteAll fun e he => ?_)).sendThen
    simp only [receiptEntries, List.mem_cons, List.mem_map] at he
    obtain rfl | ⟨r, -, rfl⟩ := he <;> rfl

theorem Numbered.commandTickArm (hs : s.Numbered cx) :
    (s.commandTickArm cx env).1.Numbered cx := by
  have hexpire : (s.localCalls.expire env.now).2.2.sequence = s.localCalls.sequence ∧
      ((s.localCalls.expire env.now).2.2.inFlight = s.localCalls.inFlight ∨
        (s.localCalls.expire env.now).2.2.inFlight = none) := by
    unfold LocalCallQueue.expire
    dsimp only
    split
    · split
      · exact ⟨rfl, .inr rfl⟩
      · exact ⟨rfl, .inl rfl⟩
    · exact ⟨rfl, .inl rfl⟩
  rw [commandTickArm_eq]
  have hexpired := calm_queue hexpire.1.ge hexpire.2
  refine (hs.calm (hexpired.noteAll fun e he => ?_)).sendThen
  simp only [expiryEntries, List.mem_append, List.mem_map] at he
  obtain ⟨r, -, rfl⟩ | ⟨f, -, rfl⟩ := he <;> rfl

/-! ## The steps -/

theorem permits_numbered : Permits fun s t => s.Numbered cx → t.Numbered cx where
  trans h h' hs := h' (h hs)
  fields hlog hcalls _ hs := hs.calm (.of_same hlog hcalls)
  release _ hs := hs.calm ⟨.of_log rfl, le_rfl, .inr rfl⟩
  note _ _ e he hs := hs.calm ((Calm.refl _).note (by cases e <;> first | rfl | cases he))

theorem Numbered.step (hs : s.Numbered cx) {ev : Event} (h : Session.step cx s ev = some t) :
    t.Numbered cx :=
  permits_numbered.step (fun _ text hs => hs.chargerText text)
    (fun s text hs => hs.calm (calm_centralText text s)) (fun _ request hs => hs.commandArm request)
    (fun _ hs => hs.commandTickArm) h hs

theorem numbered_start (now : Time) (manager : ConnectionStateManager) :
    (start cx now manager).Numbered cx := by
  refine Numbered.calm (s := { start cx now manager with log := [] }) ?_ ⟨?_, le_rfl, .inl rfl⟩
  · have hidle : (start cx now manager).localCalls.inFlight = none := by
      have hcalls := congrArg LocalView.calls (@start_localView cx now manager [])
      exact (congrArg LocalCallQueue.inFlight hcalls).trans rfl
    refine ⟨⟨[], rfl, .nil, by simp⟩, [], [], ?_, .refl _, .nil⟩
    rw [hidle]
    rfl
  · obtain ⟨events, hlog⟩ := start_log cx now manager
    refine ⟨_, hlog, List.forall_mem_map.mpr fun _ _ => rfl⟩

theorem Numbered.nodup (hs : s.Numbered cx) :
    ((s.trace Entry.call?).map PreparedCall.uniqueId).Nodup := by
  obtain ⟨numbers, hids, hupward, -⟩ := hs.ids
  rw [hids]
  refine List.Pairwise.map _ (fun _ _ h => h) (List.Pairwise.imp ?_ (List.pairwise_map.mp hupward))
  intro m n hlt hsame
  exact hlt.ne (LocalCallQueue.uniqueIdAt_inj hsame)

end

end Session

namespace Process

section
variable {cx : ProxyContext} {config : ProxyConfig} {file : SnapshotMap}
  {events : List ProcessEvent} {x : Process}

theorem numbered_of_run (hrun : (step cx).run (start config file) events = some x) {n : Nat}
    {id : String} {s : Session} (hs : x.downstream.sessionOf n = some (id, s)) :
    s.Numbered (cx.session id) := by
  have hkept : x.Delivered ∧ ∀ n id s, x.downstream.sessionOf n = some (id, s) →
      s.Numbered (cx.session id) := by
    refine (step cx).invariant (P := fun x => x.Delivered ∧ ∀ n id s,
      x.downstream.sessionOf n = some (id, s) → s.Numbered (cx.session id)) ?_ hrun
      ⟨delivered_start, by simp [start, DownstreamState.new, DownstreamState.sessionOf]⟩
    rintro x ev y hstep ⟨hdelivered, hnumbered⟩
    obtain ⟨sent, hmove, -⟩ := downstreamMove_of_moved (moved_of_step hstep).2
    refine ⟨hdelivered.step hstep, DownstreamState.forall_sessions_of_move
      (P := fun id s => s.Numbered (cx.session id)) hdelivered.routed hmove
      (fun _ now manager => Session.numbered_start now manager) ?_ hnumbered⟩
    intro id s t manager ev hs hstep
    have hmanager : Session.Numbered (cx.session id) { s with manager } :=
      hs.calm (.of_same rfl rfl)
    exact hmanager.step hstep
  exact hkept.2 n id s hs

/-- In every run no session sends two Calls under one id, and the answers that it takes for its own
are, in the order in which they come, answers to some of these Calls, one each, all of them sent
before the one that is in flight. So an answer that comes twice is taken once. -/
theorem answers_matched_of_run (hrun : (step cx).run (start config file) events = some x) {n : Nat}
    {id : String} {s : Session} (hs : x.downstream.sessionOf n = some (id, s)) :
    ((s.trace Entry.call?).map PreparedCall.uniqueId).Nodup ∧
      ∃ answered, List.Forall₂ (IsAnswerTo cx.crates) s.answersTaken answered ∧
        (answered ++ s.localCalls.inFlight.toList.map InFlight.prepared).Sublist
          (s.trace Entry.call?) := by
  have hnumbered := numbered_of_run hrun hs
  obtain ⟨before, answered, hbefore, hsublist, hanswers⟩ := hnumbered.answers
  refine ⟨hnumbered.nodup, answered, hanswers, ?_⟩
  -- the Call in flight is the last one sent
  rw [hbefore]
  exact hsublist.append (.refl _)

end

theorem commandedEvents_takes :
    ((step commandedContext).run (start commandedConfig ∅) commandedEvents).bind (fun x =>
      (x.downstream.sessionOf 0).map fun session =>
        (session.1, session.2.answersTaken.length)) = some ("CP01", 1) := by
  decide +kernel

theorem answers_matched_of_run_commanded : ∃ x s answered,
    (step commandedContext).run (start commandedConfig ∅) commandedEvents = some x ∧
      x.downstream.sessionOf 0 = some ("CP01", s) ∧ s.answersTaken.length = 1 ∧
      List.Forall₂ (IsAnswerTo commandedContext.crates) s.answersTaken answered ∧
      (answered ++ s.localCalls.inFlight.toList.map InFlight.prepared).Sublist
        (s.trace Entry.call?) := by
  obtain ⟨x, hrun, hx⟩ := Option.bind_eq_some_iff.mp commandedEvents_takes
  obtain ⟨⟨id, s⟩, hs, hone⟩ := Option.map_eq_some_iff.mp hx
  obtain ⟨rfl, hlength⟩ := Prod.mk.inj hone
  obtain ⟨-, answered, hanswers, hsublist⟩ := answers_matched_of_run hrun hs
  exact ⟨x, s, answered, hrun, hs, hlength, hanswers, hsublist⟩

end Process

end OcppProxy

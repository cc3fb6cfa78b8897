import OcppProxy.CallSteps

/-!
# Commands inside a session

Every request the session reads gets exactly one result, and proxy Calls go out one at a time: the
log replays on a slot with one place.
-/

namespace OcppProxy

open Relation (ReflTransGen)

/-! ## Reading the log -/

namespace Entry

def received? : Entry → Option CommandRequest
  | received request => some request
  | _ => none

def answer? : Entry → Option (CommandRequest × CommandResult)
  | displaced _ request result | refused request result => some (request, result)
  | settled f result => some (f.request, result)
  | _ => none

theorem answer?_of_not_isLocal (e : Entry) (h : e.isLocal = false) : e.answer? = none := by
  cases e <;> first | rfl | cases h

theorem received?_of_not_isLocal (e : Entry) (h : e.isLocal = false) : e.received? = none := by
  cases e <;> first | rfl | cases h

end Entry

def CommandResult.IsFor (result : CommandResult) (request : CommandRequest) : Prop :=
  result.id = request.id ∧ result.command = request.command.toValue ∧
    result.source = request.source

theorem IsRefusal.isFor {crates : Crates} {request : CommandRequest} {result : CommandResult}
    (h : IsRefusal crates request result) : result.IsFor request := by
  obtain ⟨now, status, detail, -, rfl⟩ := h
  exact ⟨rfl, rfl, rfl⟩

theorem IsSettlement.isFor {crates : Crates} {timeout : Duration} {f : InFlight}
    {result : CommandResult} (h : IsSettlement crates timeout f result) :
    result.IsFor f.request := by
  cases h <;> exact ⟨rfl, rfl, rfl⟩

/-- The slot for the Call in flight: a Call needs it empty, a result of a sent Call empties it. -/
def callSlot : Machine (Option (CommandRequest × PreparedCall)) Entry
  | none, .call request prepared => some (some (request, prepared))
  | some _, .call _ _ => none
  | none, .settled _ _ => none
  | some sent, .settled f _ => if sent = (f.request, f.prepared) then some none else none
  | slot, _ => some slot

theorem callSlot_other (slot : Option (CommandRequest × PreparedCall)) {e : Entry}
    (hcall : ∀ r p, e ≠ .call r p) (hsettled : ∀ f result, e ≠ .settled f result) :
    callSlot slot e = some slot := by
  cases e with
  | call r p => exact absurd rfl (hcall r p)
  | settled f result => exact absurd rfl (hsettled f result)
  | _ => cases slot <;> rfl

/-! ## Along the moves -/

/-- The Call in flight, as `callSlot` keeps it. -/
def LocalCallQueue.sentCall (q : LocalCallQueue) : Option (CommandRequest × PreparedCall) :=
  q.inFlight.map fun f => (f.request, f.prepared)

structure LocalView.Accounted (cx : SessionContext) (requests : List CommandRequest)
    (v : LocalView) : Prop where
  timeout : v.calls.timeout = cx.config.charging.commandTimeout
  inbox : v.entries.filterMap Entry.received? ++ v.inbox = requests
  answered : (v.entries.filterMap Entry.received?).Perm
    ((v.entries.filterMap Entry.answer?).map Prod.fst ++ v.calls.held)
  isFor : ∀ a ∈ v.entries.filterMap Entry.answer?, CommandResult.IsFor a.2 a.1
  settlement : ∀ f result, .settled f result ∈ v.entries →
    IsSettlement cx.crates cx.config.charging.commandTimeout f result
  slot : callSlot.run none v.entries = some v.calls.sentCall

section
variable {cx : SessionContext} {requests : List CommandRequest} {v w : LocalView}

/-- The part of a log that is neither a Call nor a settled Call leaves the slot as it is. -/
theorem run_callSlot_append {es new : List Entry} {slot : Option (CommandRequest × PreparedCall)}
    (h : callSlot.run none es = some slot)
    (hnew : ∀ e ∈ new, (∀ r p, e ≠ .call r p) ∧ ∀ f result, e ≠ .settled f result) :
    callSlot.run none (es ++ new) = some slot := by
  refine (callSlot.run_append none slot es new).mpr ⟨slot, h, ?_⟩
  clear h
  induction new with
  | nil => rfl
  | cons e new ih =>
    obtain ⟨hcall, hsettled⟩ := hnew e (List.mem_cons_self ..)
    exact (callSlot.run_cons slot slot e new).mpr ⟨slot, callSlot_other slot hcall hsettled,
      ih fun e he => hnew e (List.mem_cons_of_mem _ he)⟩

/-- A move that logs refusals keeps the account if what it adds and takes away balances. -/
theorem LocalView.Accounted.append (hv : v.Accounted cx requests) (new : List Entry)
    (hentries : w.entries = v.entries ++ new) (htimeout : w.calls.timeout = v.calls.timeout)
    (hinbox : v.inbox = new.filterMap Entry.received? ++ w.inbox)
    (hcount : ∀ r, v.calls.held.count r + (new.filterMap Entry.received?).count r =
      ((new.filterMap Entry.answer?).map Prod.fst).count r + w.calls.held.count r)
    (hisFor : ∀ a ∈ new.filterMap Entry.answer?, CommandResult.IsFor a.2 a.1)
    (hsettlement : ∀ f result, .settled f result ∈ new →
      IsSettlement cx.crates v.calls.timeout f result)
    (hslot : callSlot.run none w.entries = some w.calls.sentCall) :
    w.Accounted cx requests where
  timeout := htimeout.trans hv.timeout
  inbox := by
    rw [hentries, List.filterMap_append, List.append_assoc, ← hinbox]
    exact hv.inbox
  answered := by
    refine List.perm_iff_count.mpr fun r => ?_
    have hbefore := hv.answered.count_eq r
    have hchange := hcount r
    simp only [hentries, List.filterMap_append, List.map_append, List.count_append] at hbefore ⊢
    omega
  isFor a ha := by
    rw [hentries, List.filterMap_append] at ha
    exact (List.mem_append.mp ha).elim (hv.isFor a) (hisFor a)
  settlement f result h := by
    rw [hentries] at h
    rcases List.mem_append.mp h with h | h
    · exact hv.settlement f result h
    · exact hv.timeout ▸ hsettlement f result h
  slot := hslot

theorem LocalView.Accounted.step (h : LocalStep cx v w)
    (hv : v.Accounted cx requests) : w.Accounted cx requests := by
  cases h with
  | @receive request inbox q es resultOf hresult =>
    obtain ⟨kept, hpush, -, hperm, -⟩ := q.push_spec request
    have hrecv : (Entry.received request :: (q.push request).1.map fun r =>
        Entry.displaced request r (resultOf r)).filterMap Entry.received? = [request] := by
      simp [Entry.received?, List.filterMap_map, Function.comp_def]
    have hans : (Entry.received request :: (q.push request).1.map fun r =>
        Entry.displaced request r (resultOf r)).filterMap Entry.answer? =
          (q.push request).1.map fun r => (r, resultOf r) := by
      simp [Entry.answer?, List.filterMap_cons, List.filterMap_map, Function.comp_def]
    refine hv.append _ rfl rfl (by rw [hrecv]; rfl) (fun r => ?_) (fun a ha => ?_) (by simp) ?_
    · have hdisplaced := hperm.count_eq r
      rw [hrecv, hans, hpush, List.map_map, Function.comp_def, List.map_id']
      simp only [LocalCallQueue.held, List.count_append] at hdisplaced ⊢
      omega
    · rw [hans] at ha
      obtain ⟨r, -, rfl⟩ := List.mem_map.mp ha
      exact (hresult r).isFor
    · have hsent : (q.push request).2.sentCall = q.sentCall := by
        simp [LocalCallQueue.sentCall, hpush]
      rw [hsent]
      refine run_callSlot_append hv.slot ?_
      simp
  | @drop inbox q es before request after result hq hresult =>
    refine hv.append [.refused request result] rfl rfl rfl (fun r => ?_) ?_ (by simp) ?_
    · simp only [LocalCallQueue.held, hq, Entry.received?, Entry.answer?, List.filterMap_cons,
        List.filterMap_nil, List.map_cons, List.map_nil, List.count_append, List.count_cons,
        List.count_nil]
      omega
    · simpa [Entry.answer?] using hresult.isFor
    · exact run_callSlot_append hv.slot (by simp)
  | renumber sequence => exact ⟨hv.timeout, hv.inbox, hv.answered, hv.isFor, hv.settlement, hv.slot⟩
  | @send inbox q es request rest uniqueId prepared now hidle hq hp =>
    refine hv.append [.call request prepared] rfl rfl rfl (fun r => ?_) (by simp [Entry.answer?])
      (by simp) ?_
    · simp [LocalCallQueue.held, LocalCallQueue.setInFlight, hidle, hq, Entry.received?,
        Entry.answer?, List.filterMap_cons]
    · refine (callSlot.run_append _ _ _ _).mpr ⟨_, hv.slot, ?_⟩
      simp [LocalCallQueue.sentCall, hidle, Machine.run, callSlot, LocalCallQueue.setInFlight]
  | @settle inbox q es f result hf hresult =>
    refine hv.append [.settled f result] rfl rfl rfl (fun r => ?_) ?_ ?_ ?_
    · simp only [LocalCallQueue.held, hf, Entry.received?, Entry.answer?, List.filterMap_cons,
        List.filterMap_nil, List.map_cons, List.map_nil, List.count_append, List.count_cons,
        List.count_nil, Option.toList_some, Option.toList_none]
      omega
    · simpa [Entry.answer?] using hresult.isFor
    · simpa using hresult
    · refine (callSlot.run_append _ _ _ _).mpr ⟨_, hv.slot, ?_⟩
      simp [LocalCallQueue.sentCall, hf, Machine.run, callSlot]
  | @late request inbox q es result hresult =>
    refine hv.append [.received request, .refused request result] rfl rfl rfl (fun r => ?_) ?_
      (by simp) ?_
    · simp [Entry.received?, Entry.answer?, List.filterMap_cons, Nat.add_comm]
    · simpa [Entry.answer?] using hresult.isFor
    · exact run_callSlot_append hv.slot (by simp)

theorem LocalView.Accounted.steps (h : LocalSteps cx v w)
    (hv : v.Accounted cx requests) : w.Accounted cx requests := by
  induction h with
  | refl => exact hv
  | tail _ hstep ih => exact ih.step hstep

end

/-- A move logs what it reads from the inbox. -/
theorem LocalStep.reads (h : LocalStep cx v w) : ∃ new, w.entries = v.entries ++ new ∧
    v.inbox = new.filterMap Entry.received? ++ w.inbox := by
  cases h with
  | receive =>
    exact ⟨_, rfl, by simp [Entry.received?, List.filterMap_map, Function.comp_def]⟩
  | renumber => exact ⟨[], (List.append_nil _).symm, rfl⟩
  | late => exact ⟨[_, _], rfl, rfl⟩
  | _ => exact ⟨[_], rfl, rfl⟩

/-- Along the moves what was read followed by what is unread stays the same. -/
theorem LocalSteps.received (h : LocalSteps cx v w) :
    w.entries.filterMap Entry.received? ++ w.inbox =
      v.entries.filterMap Entry.received? ++ v.inbox := by
  induction h with
  | refl => rfl
  | tail _ hstep ih =>
    obtain ⟨new, hentries, hinbox⟩ := hstep.reads
    rw [← ih, hentries, hinbox, List.filterMap_append, List.append_assoc]

/-! ## Along a run -/

namespace Session

section
variable {cx : SessionContext} {s t : Session} {events : List Event}

/-- A run is a chain of moves of the local calls, which read the requests of its events. -/
theorem localSteps_of_run (h : (step cx).run s events = some t) (rest : List CommandRequest) :
    LocalSteps cx (s.localView (events.flatMap Event.requests ++ rest)) (t.localView rest) := by
  induction events generalizing s with
  | nil =>
    obtain rfl : s = t := by simpa using h
    exact .refl
  | cons ev events ih =>
    obtain ⟨u, hstep, hrun⟩ := ((step cx).run_cons s t ev events).mp h
    rw [List.flatMap_cons, List.append_assoc]
    exact (localSteps_of_step hstep _).trans (ih hrun)

theorem drained_of_run (h : (step cx).run s events = some t) (hs : s.Drained) : t.Drained :=
  (step cx).invariant (fun _ _ _ hstep hs => (frameStep_of_step hstep []).drained hs) h hs

/-- A trace of local entries can be read off the local trace. -/
theorem filterMap_local {α : Type} {p : Entry → Option α}
    (hp : ∀ e : Entry, e.isLocal = false → p e = none) (s : Session) :
    (s.trace Entry.local?).filterMap p = s.trace p := by
  rw [trace, trace, List.filterMap_filterMap]
  congr 1
  funext e
  cases h : e.2.isLocal with
  | true => simp [Entry.local?, h]
  | false => simp [Entry.local?, h, hp e.2 h]

theorem enterConnecting_localView (s : Session) (now : Time) (inbox : List CommandRequest) :
    (s.enterConnecting cx now).localView inbox = s.localView inbox := by
  obtain ⟨manager, events, h⟩ := s.setUpstreamState_eq cx now .connecting
  have hview : (({ s with manager } : Session).noteAll now (events.map .event)).localView inbox =
      s.localView inbox :=
    localView_noteAll (s := { s with manager }) inbox _ (List.forall_mem_map.mpr fun _ _ => rfl)
  rw [← h] at hview
  exact hview

theorem start_localView (now : Time) (manager : ConnectionStateManager)
    (inbox : List CommandRequest) :
    (start cx now manager).localView inbox =
      ⟨inbox, .new cx.config.charging.commandTimeout commandChannelCapacity, []⟩ :=
  enterConnecting_localView _ now inbox

theorem start_accounted (now : Time) (manager : ConnectionStateManager)
    (requests : List CommandRequest) :
    ((start cx now manager).localView requests).Accounted cx requests := by
  rw [start_localView]
  exact ⟨rfl, rfl, .refl _, by simp, by simp, rfl⟩

theorem start_drained (now : Time) (manager : ConnectionStateManager) :
    (start cx now manager).Drained := by
  simp [Drained, start, enterConnecting, Phase.isEnding]

/-- The result is what the charger said to the Call in a text that was kept from the Central
System. -/
def AnsweredBy (cx : SessionContext) (s : Session) (now : Time) (f : InFlight)
    (result : CommandResult) : Prop :=
  ∃ text frame, (now, .readCharger text) ∈ s.log ∧ (now, .consumed text) ∈ s.log ∧
    OcppFrame.parse cx.crates now text = .ok frame ∧ frame.messageType.isCall = false ∧
    frame.uniqueId = f.prepared.uniqueId ∧
    result = .forInFlight cx.crates now f (interpretResponse cx.crates f.prepared.action frame).1
      (interpretResponse cx.crates f.prepared.action frame).2.1
      (interpretResponse cx.crates f.prepared.action frame).2.2

/-- Results other than timeouts are read off what the charger said. -/
def Heard (cx : SessionContext) (s : Session) : Prop :=
  ∀ now f result, (now, .settled f result) ∈ s.log → result.status ≠ .timeout →
    s.AnsweredBy cx now f result

theorem AnsweredBy.append {now : Time} {f : InFlight} {result : CommandResult}
    {es : List (Time × Entry)} (h : s.AnsweredBy cx now f result) (hlog : t.log = s.log ++ es) :
    t.AnsweredBy cx now f result := by
  obtain ⟨text, frame, hread, hconsumed, hrest⟩ := h
  exact ⟨text, frame, hlog ▸ List.mem_append_left _ hread, hlog ▸ List.mem_append_left _ hconsumed,
    hrest⟩

/-- A step that logs no answer. -/
theorem Heard.unanswered (hs : s.Heard cx) (h : Adds (!·.isAnswer) s t) : t.Heard cx := by
  obtain ⟨es, hlog, hes⟩ := h
  intro now f result hmem hstatus
  rw [hlog] at hmem
  rcases List.mem_append.mp hmem with hmem | hmem
  · exact (hs now f result hmem hstatus).append hlog
  · simpa [Entry.isAnswer, hstatus] using hes _ hmem

theorem Heard.step {ev : Event} (hs : s.Heard cx) (h : Session.step cx s ev = some t) :
    t.Heard cx := by
  obtain ⟨u, hu, hrest⟩ := answers_of_step h
  refine Heard.unanswered ?_ hrest
  cases hu with
  | unanswered h => exact hs.unanswered h
  | @answered text frame g hto hparse hlog =>
    intro now f result hmem hstatus
    rw [hlog] at hmem
    rcases List.mem_append.mp hmem with hmem | hmem
    · exact (hs now f result hmem hstatus).append hlog
    · simp only [List.mem_cons, Prod.mk.injEq, reduceCtorEq, and_false, false_or, List.not_mem_nil,
        or_false, Entry.settled.injEq] at hmem
      obtain ⟨rfl, rfl, rfl⟩ := hmem
      obtain ⟨-, hresponse, hid⟩ := answerTo_eq_some hto
      exact ⟨text, frame, by simp [hlog], by simp [hlog], hparse, hresponse, hid, rfl⟩

theorem heard_start (now : Time) (manager : ConnectionStateManager) :
    (start cx now manager).Heard cx := by
  intro now' f result hmem
  obtain ⟨events, hlog⟩ := start_log cx now manager
  rw [hlog] at hmem
  obtain ⟨event, -, heq⟩ := List.mem_map.mp hmem
  cases heq

/-- In every run each request the session reads has one result for it, or is still held and has
none. The Calls go out one at a time, each after the last one was answered by a text that was read,
timed out at its age, or ended with the session. When `run_session` has returned every request has
exactly one result. -/
theorem one_result_per_command {now : Time} {manager : ConnectionStateManager}
    (h : (step cx).run (start cx now manager) events = some t) :
    (events.flatMap Event.requests).Perm
        ((t.trace Entry.answer?).map Prod.fst ++ t.localCalls.held) ∧
      (∀ a ∈ t.trace Entry.answer?, a.2.IsFor a.1) ∧
      (t.phase = .ended →
        (events.flatMap Event.requests).Perm ((t.trace Entry.answer?).map Prod.fst)) ∧
      callSlot.run none (t.trace Entry.local?) = some t.localCalls.sentCall ∧
      (∀ f result, .settled f result ∈ t.trace Entry.local? →
        IsSettlement cx.crates cx.config.charging.commandTimeout f result) ∧
      t.Heard cx := by
  -- the moves of the local calls account for each request that the inbox gave
  have hview : (t.localView []).Accounted cx (events.flatMap Event.requests) := by
    have hstart := @start_accounted cx now manager (events.flatMap Event.requests)
    rw [← List.append_nil (events.flatMap Event.requests)] at hstart
    simpa using hstart.steps (localSteps_of_run h [])
  have hreceived := hview.inbox
  have hanswered := hview.answered
  simp only [localView, List.append_nil] at hreceived hanswered
  rw [hreceived, filterMap_local Entry.answer?_of_not_isLocal] at hanswered
  have hheard : t.Heard cx := (step cx).invariant (fun _ _ _ hstep hs => Heard.step hs hstep) h
    (heard_start now manager)
  refine ⟨hanswered, ?_, fun hended => ?_, hview.slot, hview.settlement, hheard⟩
  · have hisFor := hview.isFor
    rwa [localView, filterMap_local Entry.answer?_of_not_isLocal] at hisFor
  · -- a session that has returned holds nothing
    have hheld : t.localCalls.held = [] :=
      drained_of_run h (start_drained now manager) (by rw [hended]; rfl)
    rwa [hheld, List.append_nil] at hanswered

end

def acceptance : String × Json :=
  ("[3,\"proxy-1000-1\",\x7b\"status\":\"Accepted\"\x7d]",
    .array [.ofNat 3, .string "proxy-1000-1", .ofFields [("status", .string "Accepted")]])

/-- A clear that is answered, and one that the final drain reads. -/
def answeredAndDrained : List Event :=
  let clear (id : String) : CommandRequest := .new 0 id .clearCurrentLimit .mqtt
  [.at 1 .connected, .at 1 (.command (some (clear "a"))), .at 2 (.charger (.text acceptance.1)),
    .at 3 .cancelled, .at 3 (.tryRecv (some (clear "b"))), .at 3 (.tryRecv none), .at 4 .closed]

theorem one_result_per_command_answeredAndDrained :
    ∃ t, runOfTable [acceptance] answeredAndDrained = some t ∧
      (answeredAndDrained.flatMap Event.requests).Perm ((t.trace Entry.answer?).map Prod.fst) := by
  have hended : (runOfTable [acceptance] answeredAndDrained).map Session.phase = some .ended := by
    decide +kernel
  obtain ⟨t, hrun, hphase⟩ := Option.map_eq_some_iff.mp hended
  exact ⟨t, hrun, (one_result_per_command hrun).2.2.1 hphase⟩

end Session

end OcppProxy

import OcppProxy.CallSteps
import OcppProxy.LimitOrder
import OcppProxy.SessionCommands

/-!
# What the charger said to the limit commands

The log of a session says which Call an accepted limit result is for and what the charger answered.
An answer without a status counts as accepted, whatever the command; where every answer to a limit
command has one, the charger said that it accepted, or that it had nothing to clear.
-/

namespace OcppProxy

def responseStatus (crates : Crates) (text : String) : Option String :=
  (((crates.fromStr text).toOption.bind (·.at? 2)).bind (·.get "status")).bind Json.asStr

/-- The answers that a limit command is accepted with. -/
def acceptedStatuses (action : String) : List String :=
  if action = "ClearChargingProfile" then ["Accepted", "Unknown"] else ["Accepted"]

/-- A Call that defines the standing limit. -/
def InFlight.isLimit (f : InFlight) : Bool :=
  f.prepared.action == "SetChargingProfile" || f.prepared.action == "ClearChargingProfile"

def Entry.refusal? : Entry → Option CommandResult
  | displaced _ _ result | refused _ result => some result
  | _ => none

/-- The Call was sent, then the charger answered it with this status, then the result was
reported. -/
def WasAnswered (crates : Crates) (log : List (Time × Entry)) (f : InFlight)
    (result : CommandResult) (status : String) : Prop :=
  ∃ before after now text frame, log = before ++ (now, .readCharger text) :: after ∧
    (∃ sentAt, (sentAt, .call f.request f.prepared) ∈ before) ∧
    (now, .settled f result) ∈ after ∧
    OcppFrame.parse crates now text = .ok frame ∧ frame.messageType = .callResult ∧
    frame.uniqueId = f.prepared.uniqueId ∧ responseStatus crates text = some status

def InFlight.IsPrepared (cx : SessionContext) (f : InFlight) : Prop :=
  ∃ uniqueId now,
    prepareCall cx.crates cx.config.charging f.request uniqueId now = .ok f.prepared

/-- Whether the answer that the event brings for a limit Call in flight has a status. -/
def Session.statusGiven (cx : SessionContext) (s : Session) (ev : Event) : Bool :=
  (s.answerTo cx ev).all fun (f, frame) =>
    !f.isLimit || frame.messageType != .callResult || (responseStatus cx.crates frame.raw).isSome

structure LocalView.Sourced (cx : SessionContext) (v : LocalView) : Prop where
  refused : ∀ e ∈ v.entries, ∀ result ∈ e.refusal?, result.status ≠ .accepted
  sent : ∀ f, v.calls.inFlight = some f → .call f.request f.prepared ∈ v.entries ∧ f.IsPrepared cx
  settled : ∀ f result, .settled f result ∈ v.entries →
    (∃ timeout, IsSettlement cx.crates timeout f result) ∧ f.IsPrepared cx

/-- The accepted limit results of the session are what the charger said. -/
structure Session.Genuine (cx : SessionContext) (s : Session) : Prop where
  sourced : (s.localView []).Sourced cx
  answered : ∀ now f result, (now, .settled f result) ∈ s.log → result.status = .accepted →
    f.isLimit = true → ∃ status ∈ acceptedStatuses f.prepared.action,
      WasAnswered cx.crates s.log f result status

section
variable {crates : Crates} {cx : SessionContext} {v w : LocalView} {s t : Session} {f : InFlight}
  {result : CommandResult} {status : String} {log : List (Time × Entry)}

/-! ## Reading an answer -/

theorem WasAnswered.append (h : WasAnswered crates log f result status)
    (es : List (Time × Entry)) : WasAnswered crates (log ++ es) f result status := by
  obtain ⟨before, after, now, text, frame, rfl, hcall, hsettled, hframe⟩ := h
  exact ⟨before, after ++ es, now, text, frame, by simp, hcall, List.mem_append_left _ hsettled,
    hframe⟩

/-- A limit command is accepted by a CallResult, with one of its statuses or without any. -/
theorem mem_acceptedStatuses {action : String} {frame : OcppFrame}
    (hlimit : action = "SetChargingProfile" ∨ action = "ClearChargingProfile")
    (haccepted : (interpretResponse crates action frame).1 = .accepted) :
    frame.messageType = .callResult ∧
      ∀ status, responseStatus crates frame.raw = some status →
        status ∈ acceptedStatuses action := by
  unfold interpretResponse at haccepted
  dsimp only at haccepted
  cases hmessage : frame.messageType with
  | call c =>
    rw [hmessage] at haccepted
    cases haccepted
  | callError =>
    rw [hmessage] at haccepted
    cases haccepted
  | callResult =>
    refine ⟨rfl, fun status hstatus => ?_⟩
    simp only [responseStatus, Option.bind_eq_some_iff] at hstatus
    obtain ⟨value, ⟨payload, ⟨parsed, hparsed, hpayload⟩, hvalue⟩, htext⟩ := hstatus
    cases hread : crates.fromStr frame.raw with
    | error e =>
      rw [hread] at hparsed
      cases hparsed
    | ok parsed' =>
      rw [hread] at hparsed
      obtain rfl : parsed' = parsed := Option.some.inj hparsed
      simp only [hmessage, hread, hpayload, Option.getD_some, hvalue, Option.bind_some, htext]
        at haccepted
      rcases hlimit with rfl | rfl
      · split at haccepted <;> simp_all [acceptedStatuses]
      · split at haccepted <;> simp_all [acceptedStatuses]

/-- What a Set command applies is known when its Call is sent. -/
theorem InFlight.IsPrepared.appliedLimitA (h : f.IsPrepared cx)
    (haction : f.prepared.action = "SetChargingProfile") :
    ∃ limitA, f.prepared.appliedLimitA = some limitA := by
  obtain ⟨uniqueId, now, hprepare⟩ := h
  rw [prepareCall_action hprepare] at haction
  unfold prepareCall preparePayload at hprepare
  cases hcommand : f.request.command with
  | setCurrentLimit limitA =>
    rw [hcommand] at hprepare
    dsimp only at hprepare
    cases hresolve : resolveLimit cx.config.charging limitA with
    | error e =>
      rw [hresolve] at hprepare
      cases hprepare
    | ok resolved =>
      rw [hresolve] at hprepare
      have hprepared := Except.ok.inj hprepare
      exact ⟨resolved.appliedA, by rw [← hprepared]⟩
  | _ => simp [hcommand, ProxyCommand.action] at haction

/-! ## Along the moves -/

/-- A move that keeps the Call in flight, or gives it up. -/
theorem LocalView.Sourced.append (hv : v.Sourced cx) {new : List Entry}
    (hentries : w.entries = v.entries ++ new)
    (hflight : w.calls.inFlight = v.calls.inFlight ∨ w.calls.inFlight = none)
    (hrefused : ∀ e ∈ new, ∀ result ∈ e.refusal?, result.status ≠ .accepted)
    (hsettled : ∀ f result, .settled f result ∈ new →
      (∃ timeout, IsSettlement cx.crates timeout f result) ∧ v.calls.inFlight = some f) :
    w.Sourced cx := by
  constructor
  · intro e he
    rw [hentries] at he
    exact (List.mem_append.mp he).elim (hv.refused e) (hrefused e)
  · intro f hf
    rcases hflight with hsame | hnone
    · obtain ⟨hcall, hprepared⟩ := hv.sent f (hsame ▸ hf)
      exact ⟨hentries ▸ List.mem_append_left _ hcall, hprepared⟩
    · cases hnone.symm.trans hf
  · intro f result he
    rw [hentries] at he
    rcases List.mem_append.mp he with he | he
    · exact hv.settled f result he
    · obtain ⟨hsettlement, hf⟩ := hsettled f result he
      exact ⟨hsettlement, (hv.sent f hf).2⟩

theorem LocalView.Sourced.step (h : LocalStep cx v w) (hv : v.Sourced cx) : w.Sourced cx := by
  cases h with
  | @receive request inbox q es resultOf hrefusal =>
    refine hv.append rfl (.inl rfl) ?_ (by simp)
    intro e he result hresult
    rcases List.mem_cons.mp he with rfl | he
    · cases hresult
    · obtain ⟨r, -, rfl⟩ := List.mem_map.mp he
      cases hresult
      exact (hrefusal r).status_ne
  | drop hq hrefusal =>
    refine hv.append rfl (.inl rfl) ?_ (by simp)
    simpa [Entry.refusal?] using hrefusal.status_ne
  | renumber sequence =>
    exact ⟨hv.refused, hv.sent, hv.settled⟩
  | @send inbox q es request rest uniqueId prepared now hidle hq hp =>
    constructor
    · intro e he
      rcases List.mem_append.mp he with he | he
      · exact hv.refused e he
      · obtain rfl := List.mem_singleton.mp he
        simp [Entry.refusal?]
    · intro f hf
      obtain rfl : _ = f := Option.some.inj hf
      exact ⟨List.mem_append_right _ (List.mem_singleton.mpr rfl), uniqueId, now, hp⟩
    · intro f result he
      rcases List.mem_append.mp he with he | he
      · exact hv.settled f result he
      · cases List.mem_singleton.mp he
  | @settle inbox q es f result hf hsettlement =>
    refine hv.append rfl (.inr rfl) (by simp [Entry.refusal?]) ?_
    intro g r he
    obtain ⟨rfl, rfl⟩ := Entry.settled.inj (List.mem_singleton.mp he)
    exact ⟨⟨_, hsettlement⟩, hf⟩
  | late hrefusal =>
    refine hv.append rfl (.inl rfl) ?_ (by simp)
    simpa [Entry.refusal?] using hrefusal.status_ne

theorem LocalView.Sourced.steps (h : LocalSteps cx v w) (hv : v.Sourced cx) : w.Sourced cx := by
  induction h with
  | refl => exact hv
  | tail _ hstep ih => exact ih.step hstep

/-! ## Along a run -/

namespace Session

theorem mem_log_of_mem_trace {e : Entry} (h : e ∈ s.trace Entry.local?) :
    ∃ now, (now, e) ∈ s.log := by
  obtain ⟨⟨now, e'⟩, hmem, hlocal⟩ := List.mem_filterMap.mp h
  obtain ⟨-, rfl⟩ : e'.isLocal = true ∧ e' = e := by simpa [Entry.local?] using hlocal
  exact ⟨now, hmem⟩

theorem mem_trace_of_mem_log {now : Time} {e : Entry} (h : (now, e) ∈ s.log)
    (hlocal : e.isLocal = true) : e ∈ s.trace Entry.local? :=
  List.mem_filterMap.mpr ⟨(now, e), h, by simp [Entry.local?, hlocal]⟩

theorem Genuine.step {ev : Event} (h : Session.step cx s ev = some t)
    (hgiven : s.statusGiven cx ev = true) (hs : s.Genuine cx) : t.Genuine cx := by
  have hsourced : (t.localView []).Sourced cx :=
    LocalView.Sourced.steps (localSteps_of_step h [])
      ⟨hs.sourced.refused, hs.sourced.sent, hs.sourced.settled⟩
  refine ⟨hsourced, fun now f result hmem haccepted hlimit => ?_⟩
  have hkept (before : (now, .settled f result) ∈ s.log) (es : List (Time × Entry)) :
      ∃ status ∈ acceptedStatuses f.prepared.action,
        WasAnswered cx.crates (s.log ++ es) f result status := by
    obtain ⟨status, hstatus, hanswered⟩ := hs.answered now f result before haccepted hlimit
    exact ⟨status, hstatus, hanswered.append es⟩
  have hanswer : Entry.isAnswer (.settled f result) = true := by simp [Entry.isAnswer, haccepted]
  obtain ⟨u, hu, es, hlog, hes⟩ := answers_of_step h
  have hmem : (now, .settled f result) ∈ u.log := by
    rw [hlog] at hmem
    refine (List.mem_append.mp hmem).resolve_right fun hnew => ?_
    simpa [hanswer] using hes _ hnew
  cases hu with
  | unanswered hother =>
    obtain ⟨es', hlog', hes'⟩ := hother
    have hbefore : (now, .settled f result) ∈ s.log := by
      rw [hlog'] at hmem
      refine (List.mem_append.mp hmem).resolve_right fun hnew => ?_
      simpa [hanswer] using hes' _ hnew
    rw [hlog, hlog', List.append_assoc]
    exact hkept hbefore _
  | @answered text frame g hto hparse hlog' =>
    rw [hlog'] at hmem
    rcases List.mem_append.mp hmem with hbefore | hnew
    · rw [hlog, hlog', List.append_assoc]
      exact hkept hbefore _
    · simp only [List.mem_cons, Prod.mk.injEq, reduceCtorEq, and_false, false_or, List.not_mem_nil,
        or_false, Entry.settled.injEq] at hnew
      obtain ⟨rfl, rfl, rfl⟩ := hnew
      obtain ⟨hf, hresponse, hid⟩ := answerTo_eq_some hto
      have hraw : frame.raw = text := (OcppFrame.parse_eq_ok.mp hparse).2.1
      obtain ⟨hmessage, hstatuses⟩ := mem_acceptedStatuses (by simpa [InFlight.isLimit] using hlimit)
        haccepted
      obtain ⟨status, hstatus⟩ : ∃ status, responseStatus cx.crates frame.raw = some status := by
        have hsome := hgiven
        simp only [statusGiven, hto, Option.all_some, hlimit, hmessage] at hsome
        exact Option.isSome_iff_exists.mp (by simpa using hsome)
      obtain ⟨sentAt, hcall⟩ := mem_log_of_mem_trace (hs.sourced.sent f hf).1
      refine ⟨status, hstatuses status hstatus, ?_⟩
      rw [hlog, hlog', List.append_assoc]
      exact ⟨s.log, _, ev.env.now, text, frame, rfl, ⟨sentAt, hcall⟩, by simp, hparse, hmessage, hid,
        hraw ▸ hstatus⟩

theorem genuine_start (now : Time) (manager : ConnectionStateManager) :
    (start cx now manager).Genuine cx := by
  constructor
  · rw [start_localView]
    exact ⟨by simp, by simp [LocalCallQueue.new], by simp⟩
  · intro now' f result hmem
    obtain ⟨events, hlog⟩ := start_log cx now manager
    rw [hlog] at hmem
    obtain ⟨event, -, heq⟩ := List.mem_map.mp hmem
    cases heq

/-- What an accepted limit result of the session is about. -/
theorem Genuine.accepted (hs : s.Genuine cx) {now : Time} {e : Entry} {id : String}
    (hmem : (now, e) ∈ s.log) (hlocal : e.isLocal = true)
    (hevent : e.mqttEvent? id = some (.commandResult id result))
    (haccepted : result.status = .accepted) (hlimit : result.isLimitResult = true) :
    ∃ f status, f.IsPrepared cx ∧ result.action = some f.prepared.action ∧
      result.appliedLimitA = f.prepared.appliedLimitA ∧
      status ∈ acceptedStatuses f.prepared.action ∧
      WasAnswered cx.crates s.log f result status := by
  have htrace := mem_trace_of_mem_log hmem hlocal
  have hrefused (hrefusal : e.refusal? = some result) : False :=
    hs.sourced.refused e htrace result hrefusal haccepted
  cases e with
  | displaced newer request r =>
    cases hevent
    exact (hrefused rfl).elim
  | refused request r =>
    cases hevent
    exact (hrefused rfl).elim
  | settled f r =>
    cases hevent
    obtain ⟨⟨timeout, hsettlement⟩, hprepared⟩ := hs.sourced.settled f result htrace
    obtain ⟨haction, happlied, -⟩ := hsettlement.fields
    have hf : f.isLimit = true := by
      simpa [CommandResult.isLimitResult, InFlight.isLimit, haction] using hlimit
    obtain ⟨status, hstatus, hanswered⟩ := hs.answered now f result hmem haccepted hf
    exact ⟨f, status, hprepared, haction, happlied, hstatus, hanswered⟩
  | event event => cases hlocal
  | _ => cases hevent

end Session

end

end OcppProxy

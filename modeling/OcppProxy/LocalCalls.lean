import OcppProxy.SessionTrace

/-!
# A session seen through its local calls

The local view of a session is its inbox, its queue and the log entries about proxy commands. Seven
moves say all that a session can do to it; every step of the session is a chain of such moves.
-/

namespace OcppProxy

open Relation (ReflTransGen)

/-- What a session's commands are at: not yet read, queued or in flight, and what was logged. -/
structure LocalView where
  inbox : List CommandRequest
  calls : LocalCallQueue
  entries : List Entry

def IsRefusal (crates : Crates) (request : CommandRequest) (result : CommandResult) : Prop :=
  ∃ now status detail, status ≠ CommandStatus.accepted ∧
    result = .forRequest crates now request status detail

/-- A result for a Call that was sent: what an answer with its id was read as, a timeout once it is
that old, or one for the end of its session. -/
inductive IsSettlement (crates : Crates) (timeout : Duration) (f : InFlight) :
    CommandResult → Prop where
  | answered {now received : Time} {frame : OcppFrame}
      (hparse : OcppFrame.parse crates received frame.raw = .ok frame)
      (hresponse : frame.messageType.isCall = false) (hid : frame.uniqueId = f.prepared.uniqueId) :
      IsSettlement crates timeout f (.forInFlight crates now f
        (interpretResponse crates f.prepared.action frame).1
        (interpretResponse crates f.prepared.action frame).2.1
        (interpretResponse crates f.prepared.action frame).2.2)
  | expired {now : Time} {detail : Option String} (hage : (timeout : Int) ≤ now - f.sentAt) :
      IsSettlement crates timeout f (.forInFlight crates now f .timeout none detail)
  | ended {now : Time} :
      IsSettlement crates timeout f (.forInFlight crates now f .timeout none
        (some "charger session ended before it answered"))

inductive LocalStep (cx : SessionContext) : LocalView → LocalView → Prop
  /-- A request is read and queued; the displaced ones are answered for. -/
  | receive {request inbox q es} {resultOf : CommandRequest → CommandResult}
      (h : ∀ r, IsRefusal cx.crates r (resultOf r)) :
      LocalStep cx ⟨request :: inbox, q, es⟩ ⟨inbox, (q.push request).2,
        es ++ .received request ::
          (q.push request).1.map fun r => .displaced request r (resultOf r)⟩
  /-- A queued request is given up. -/
  | drop {inbox q es before request after result} (hq : q.queued = before ++ request :: after)
      (h : IsRefusal cx.crates request result) :
      LocalStep cx ⟨inbox, q, es⟩
        ⟨inbox, { q with queued := before ++ after }, es ++ [.refused request result]⟩
  /-- A unique id is used up. -/
  | renumber {inbox q es} (sequence : Nat) :
      LocalStep cx ⟨inbox, q, es⟩ ⟨inbox, { q with sequence }, es⟩
  /-- The oldest queued request is sent while nothing is in flight. -/
  | send {inbox q es request rest uniqueId prepared now} (hidle : q.inFlight = none)
      (hq : q.queued = request :: rest)
      (hp : prepareCall cx.crates cx.config.charging request uniqueId now = .ok prepared) :
      LocalStep cx ⟨inbox, q, es⟩
        ⟨inbox, { q with queued := rest }.setInFlight request prepared now,
          es ++ [.call request prepared]⟩
  /-- The Call in flight is answered or given up. -/
  | settle {inbox q es f result} (hf : q.inFlight = some f)
      (h : IsSettlement cx.crates q.timeout f result) :
      LocalStep cx ⟨inbox, q, es⟩
        ⟨inbox, { q with inFlight := none }, es ++ [.settled f result]⟩
  /-- A request is read by the final drain and answered for at once. -/
  | late {request inbox q es result} (h : IsRefusal cx.crates request result) :
      LocalStep cx ⟨request :: inbox, q, es⟩
        ⟨inbox, q, es ++ [.received request, .refused request result]⟩

abbrev LocalSteps (cx : SessionContext) : LocalView → LocalView → Prop :=
  ReflTransGen (LocalStep cx)

theorem IsRefusal.forRequest {crates : Crates} {now : Time} {request : CommandRequest}
    {status : CommandStatus} {detail : Option String} (h : status ≠ .accepted) :
    IsRefusal crates request (.forRequest crates now request status detail) :=
  ⟨now, status, detail, h, rfl⟩

theorem displacedStatus_ne_accepted (request : CommandRequest) :
    (Session.displacedStatus request).1 ≠ .accepted := by
  unfold Session.displacedStatus
  split <;> simp

namespace Session

/-- The local view, with `inbox` as the requests still to be read. -/
def localView (s : Session) (inbox : List CommandRequest) : LocalView :=
  ⟨inbox, s.localCalls, s.trace Entry.local?⟩

section
variable {cx : SessionContext} {s t : Session} {now : Time} (inbox : List CommandRequest)

theorem localView_congr (hcalls : t.localCalls = s.localCalls)
    (htrace : t.trace Entry.local? = s.trace Entry.local?) :
    t.localView inbox = s.localView inbox := by
  simp only [localView, hcalls, htrace]

theorem localView_noteAll (es : List Entry) (h : ∀ e ∈ es, Entry.isLocal e = false) :
    (s.noteAll now es).localView inbox = s.localView inbox := by
  refine localView_congr inbox rfl ?_
  rw [trace_noteAll, List.filterMap_eq_nil_iff.mpr fun e he => by simp [Entry.local?, h e he],
    List.append_nil]

theorem localView_noteAll_local {es : List Entry} (h : ∀ e ∈ es, Entry.isLocal e = true) :
    (s.noteAll now es).localView inbox =
      ⟨inbox, s.localCalls, s.trace Entry.local? ++ es⟩ := by
  have hes : es.filterMap Entry.local? = es := by
    rw [List.filterMap_congr (g := some) fun e he => by simp [Entry.local?, h e he],
      List.filterMap_some]
  simp only [localView, trace_noteAll, hes, noteAll_localCalls]

/-! ## Chains of moves -/

/-- Giving up queued requests one by one, from the front of what is left. -/
theorem localSteps_drop_all {resultOf : CommandRequest → CommandResult}
    (h : ∀ r, IsRefusal cx.crates r (resultOf r)) (p : CommandRequest → Bool)
    (q : LocalCallQueue) (es : List Entry) (kept rest : List CommandRequest)
    (hq : q.queued = kept ++ rest) :
    LocalSteps cx ⟨inbox, q, es⟩ ⟨inbox, { q with queued := kept ++ rest.filter (!p ·) },
      es ++ (rest.filter p).map fun r => .refused r (resultOf r)⟩ := by
  induction rest generalizing q es kept with
  | nil =>
    obtain rfl : q.queued = kept := by simpa using hq
    rw [List.filter_nil, List.filter_nil, List.map_nil, List.append_nil, List.append_nil]
  | cons r rest ih =>
    by_cases hp : p r
    · have hstep := @LocalStep.drop cx inbox q es _ _ _ _ hq (h r)
      have hrest := ih { q with queued := kept ++ rest } (es ++ [.refused r (resultOf r)]) kept rfl
      simpa [hp] using (ReflTransGen.single hstep).trans hrest
    · have hrest := ih q es (kept ++ [r]) (by simpa using hq)
      simpa [hp] using hrest

/-- Giving up the whole queue. -/
theorem localSteps_drop_queued {resultOf : CommandRequest → CommandResult}
    (h : ∀ r, IsRefusal cx.crates r (resultOf r)) (q : LocalCallQueue) (es : List Entry) :
    LocalSteps cx ⟨inbox, q, es⟩ ⟨inbox, { q with queued := [] },
      es ++ q.queued.map fun r => .refused r (resultOf r)⟩ := by
  simpa using localSteps_drop_all inbox h (fun _ => true) q es [] q.queued rfl

/-- The head of the queue is given up once a unique id was made for it. -/
theorem localSteps_drop_head {q : LocalCallQueue} {es : List Entry} {request : CommandRequest}
    {rest : List CommandRequest} {result : CommandResult} (hq : q.queued = request :: rest)
    (h : IsRefusal cx.crates request result) (sequence : Nat) :
    LocalSteps cx ⟨inbox, q, es⟩
      ⟨inbox, { q with queued := rest, sequence }, es ++ [.refused request result]⟩ :=
  (ReflTransGen.single (.renumber sequence)).tail
    (@LocalStep.drop cx inbox { q with sequence } es [] _ _ _ hq h)

theorem localStep_receive (request : CommandRequest) (s : Session) :
    LocalStep cx (s.localView (request :: inbox)) ⟨inbox, (s.localCalls.push request).2,
      s.trace Entry.local? ++ s.receiptEntries cx now request⟩ :=
  .receive fun r => .forRequest (displacedStatus_ne_accepted r)

/-- The answers of a command tick: stale requests are refused, a stale Call is settled. -/
theorem localSteps_expire (s : Session) :
    LocalSteps cx (s.localView inbox) ⟨inbox, (s.localCalls.expire now).2.2,
      s.trace Entry.local? ++ s.expiryEntries cx now⟩ := by
  let timeoutS := cx.config.charging.commandTimeoutSeconds
  let refusal (r : CommandRequest) : CommandResult := .forRequest cx.crates now r .timeout
    (some (s!"not sent within {timeoutS} s (the charger was busy answering the " ++
      "Central System, or the line was down)"))
  have hdrop := @localSteps_drop_all cx inbox refusal (fun r => .forRequest (by decide))
    (s.localCalls.isStale now) s.localCalls (s.trace Entry.local?) [] s.localCalls.queued rfl
  obtain ⟨slot, hcalls, hexpired, hslot⟩ := s.localCalls.expire_spec now
  rw [hcalls]
  simp only [expiryEntries, hexpired]
  rcases hslot with ⟨hnone, rfl⟩ | ⟨⟨f, hsome, hf, hage⟩, rfl⟩
  · rw [hnone, Option.toList_none, List.map_nil, List.append_nil]
    exact hdrop
  · rw [hsome, Option.toList_some, List.map_singleton, ← List.append_assoc]
    refine hdrop.tail (LocalStep.settle ?_ (.expired hage))
    exact hf

/-- The answers of the teardown: the queue is refused, then the Call in flight is settled. -/
theorem localSteps_teardown (s : Session) :
    LocalSteps cx (s.localView inbox) ⟨inbox, { s.localCalls with queued := [], inFlight := none },
      s.trace Entry.local? ++ s.teardownEntries cx now⟩ := by
  let refusal (r : CommandRequest) : CommandResult := .forRequest cx.crates now r .notConnected
    (some "charger session ended before the command was sent")
  have hdrop := @localSteps_drop_queued cx inbox refusal (fun r => .forRequest (by decide))
    s.localCalls (s.trace Entry.local?)
  cases hf : s.localCalls.inFlight with
  | none =>
    simp only [teardownEntries, hf, Option.toList_none, List.map_nil, List.append_nil]
    simp only [hf] at hdrop
    exact hdrop
  | some f =>
    have hsettle := @LocalStep.settle cx inbox { s.localCalls with queued := [] }
      (s.trace Entry.local? ++ s.localCalls.queued.map fun r => .refused r (refusal r)) _ _ hf
      (@IsSettlement.ended cx.crates _ f now)
    simp only [teardownEntries, hf, Option.toList_some, List.map_cons, List.map_nil,
      ← List.append_assoc]
    exact hdrop.tail hsettle

end

end Session

end OcppProxy

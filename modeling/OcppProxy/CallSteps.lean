import OcppProxy.SessionSteps

/-!
# When a session sends its Calls

Three arms of the forwarding loop come to `send_local_calls`. `CallStep` says with which queue and
which line they do, and that nothing else a step does sends a Call or displaces a request; what is
sent then is the first request of that queue a frame can be built for.
-/

namespace OcppProxy

namespace Entry

def isDeparture : Entry → Bool
  | call .. | displaced .. => true
  | _ => false

def isAnswer : Entry → Bool
  | settled _ result => decide (result.status ≠ .timeout)
  | _ => false

def isSilent (e : Entry) : Bool := !e.isDeparture && !e.isAnswer

def displaced? : Entry → Option (CommandRequest × CommandRequest × CommandResult)
  | displaced newer request result => some (newer, request, result)
  | _ => none

theorem not_isDeparture_of_isSilent {e : Entry} (h : e.isSilent = true) :
    e.isDeparture = false := by
  simpa using (Bool.and_eq_true_iff.mp h).1

theorem not_isAnswer_of_isSilent {e : Entry} (h : e.isSilent = true) : e.isAnswer = false := by
  simpa using (Bool.and_eq_true_iff.mp h).2

theorem displaced?_of_not_isDeparture {e : Entry} (h : e.isDeparture = false) :
    e.displaced? = none := by
  cases e <;> first | rfl | cases h

end Entry

/-- A request that a Call was sent for, and when. -/
def sentRequest? : Time × Entry → Option (Time × CommandRequest)
  | (sentAt, .call request _) => some (sentAt, request)
  | _ => none

theorem sentRequest?_of_not_isDeparture {e : Time × Entry} (h : e.2.isDeparture = false) :
    sentRequest? e = none := by
  obtain ⟨sentAt, e⟩ := e
  cases e <;> first | rfl | cases h

def CommandRequest.isSendable (cx : SessionContext) (now : Time) (request : CommandRequest) : Bool :=
  (preparePayload cx.crates cx.config.charging request.command now).isOk

namespace Session

def sentRequests (s : Session) : List (Time × CommandRequest) := s.log.filterMap sentRequest?

def Adds (p : Entry → Bool) (s t : Session) : Prop :=
  ∃ es, t.log = s.log ++ es ∧ ∀ e ∈ es, p e.2 = true

/-- Neither a Call nor a displaced request nor an answer is logged. -/
abbrev Silent (s t : Session) : Prop := Adds Entry.isSilent s t

/-- The queue and the line that an arm of the loop comes to `send_local_calls` with, if it does. -/
def comesToSend (cx : SessionContext) (s : Session) (ev : Event) :
    Option (LocalCallQueue × MessageForwarder) :=
  match s.phase, ev.input with
  | .forwarding, .command (some request) => some ((s.localCalls.push request).2, s.forwarder)
  | .forwarding, .commandTick => some ((s.localCalls.expire ev.env.now).2.2, s.forwarder)
  | .forwarding, .charger (.text text) =>
    match OcppFrame.parse cx.crates ev.env.now text with
    | .ok frame =>
      if !frame.messageType.isCall && s.localCalls.isOurs frame.uniqueId then
        some ({ s.localCalls with inFlight := none }, s.forwarder)
      else if ev.env.upstreamRoom = some 0 then none
      else some (s.localCalls, (s.forwarder.resolveAction ev.env.now frame .chargerToCentral).2)
    | .error _ => none
  | _, _ => none

def toSend (cx : SessionContext) (env : Env) (calls : LocalCallQueue) (line : MessageForwarder) :
    Option CommandRequest :=
  if calls.inFlight.isNone && !line.hasRecentPendingCall env.now .centralToCharger centralCallGrace &&
      env.chargerUp then
    calls.queued.find? (CommandRequest.isSendable cx env.now)
  else none

/-- The Call in flight and the frame that answers it, where the event brings one. -/
def answerTo (cx : SessionContext) (s : Session) (ev : Event) : Option (InFlight × OcppFrame) :=
  match s.phase, ev.input with
  | .forwarding, .charger (.text text) =>
    match OcppFrame.parse cx.crates ev.env.now text with
    | .ok frame =>
      if !frame.messageType.isCall && s.localCalls.isOurs frame.uniqueId then
        s.localCalls.inFlight.map fun f => (f, frame)
      else none
    | .error _ => none
  | _, _ => none

/-- The requests that the request an event brings displaces. -/
def displacements (cx : SessionContext) (s : Session) (ev : Event) :
    List (CommandRequest × CommandRequest × CommandResult) :=
  match s.phase, ev.input with
  | .forwarding, .command (some request) =>
    (s.localCalls.push request).1.map fun r => (request, r, .forRequest cx.crates ev.env.now r
      (displacedStatus r).1 (some (displacedStatus r).2))
  | _, _ => []

/-- What is logged of an answer before the next Call: none, or what the charger said to the Call in
flight. -/
inductive AnswerStep (cx : SessionContext) (ev : Event) (s u : Session) : Prop
  | unanswered (h : Adds (!·.isAnswer) s u)
  | answered {text : String} {frame : OcppFrame} {f : InFlight}
      (hanswer : s.answerTo cx ev = some (f, frame))
      (hparse : OcppFrame.parse cx.crates ev.env.now text = .ok frame)
      (hlog : u.log = s.log ++ [(ev.env.now, .readCharger text), (ev.env.now, .consumed text),
        (ev.env.now, .settled f (.forInFlight cx.crates ev.env.now f
          (interpretResponse cx.crates f.prepared.action frame).1
          (interpretResponse cx.crates f.prepared.action frame).2.1
          (interpretResponse cx.crates f.prepared.action frame).2.2))])

inductive CallStep (cx : SessionContext) (ev : Event) (s t : Session) : Prop
  | silent (hready : s.comesToSend cx ev = none) (hdisplaced : s.displacements cx ev = [])
      (h : Silent s t)
  | sending {u : Session} (hready : s.comesToSend cx ev = some (u.localCalls, u.forwarder))
      (hsent : u.sentRequests = s.sentRequests)
      (hdisplaced : u.trace Entry.displaced? = s.trace Entry.displaced? ++ s.displacements cx ev)
      (hanswer : AnswerStep cx ev s u) (h : Silent (u.sendThen cx ev.env).1 t)

section
variable {cx : SessionContext} {env : Env} {now : Time} {s t u : Session}

/-! ## Silent handlers -/

theorem Adds.of_log {p : Entry → Bool} (h : t.log = s.log) : Adds p s t :=
  ⟨[], by simp [h], by simp⟩

theorem Adds.refl {p : Entry → Bool} (s : Session) : Adds p s s := .of_log rfl

theorem Adds.trans {p : Entry → Bool} (h : Adds p s t) (h' : Adds p t u) : Adds p s u := by
  obtain ⟨es, hlog, hes⟩ := h
  obtain ⟨es', hlog', hes'⟩ := h'
  refine ⟨es ++ es', by rw [hlog', hlog, List.append_assoc], fun e he => ?_⟩
  exact (List.mem_append.mp he).elim (hes e) (hes' e)

theorem Adds.mono {p q : Entry → Bool} (h : Adds p s t) (hpq : ∀ e, p e = true → q e = true) :
    Adds q s t := by
  obtain ⟨es, hlog, hes⟩ := h
  exact ⟨es, hlog, fun e he => hpq e.2 (hes e he)⟩

theorem Adds.noteAll {p : Entry → Bool} (h : Adds p s t) {es : List Entry}
    (hes : ∀ e ∈ es, p e = true) : Adds p s (t.noteAll now es) :=
  h.trans ⟨es.map fun e => (now, e), rfl, List.forall_mem_map.mpr hes⟩

theorem Adds.note {p : Entry → Bool} (h : Adds p s t) {e : Entry} (he : p e = true) :
    Adds p s (t.note now e) :=
  h.trans ⟨[(now, e)], rfl, by simpa using he⟩

theorem Adds.fields {p : Entry → Bool} (h : Adds p s t) (hlog : u.log = t.log) : Adds p s u :=
  h.trans (.of_log hlog)

theorem Adds.sentRequests (h : Adds (!·.isDeparture) s t) : t.sentRequests = s.sentRequests := by
  obtain ⟨es, hlog, hes⟩ := h
  have hnone : es.filterMap sentRequest? = [] := by
    refine List.filterMap_eq_nil_iff.mpr fun e he => ?_
    exact sentRequest?_of_not_isDeparture (by simpa using hes e he)
  rw [Session.sentRequests, Session.sentRequests, hlog, List.filterMap_append, hnone,
    List.append_nil]

theorem Adds.displaced (h : Adds (!·.isDeparture) s t) :
    t.trace Entry.displaced? = s.trace Entry.displaced? := by
  obtain ⟨es, hlog, hes⟩ := h
  rw [trace_append _ hlog, List.filterMap_eq_nil_iff.mpr, List.append_nil]
  intro e he
  exact Entry.displaced?_of_not_isDeparture (by simpa using hes e he)

/-- Silent entries are no departures. -/
theorem Adds.staying (h : Silent s t) : Adds (!·.isDeparture) s t :=
  h.mono fun e he => by rw [Entry.not_isDeparture_of_isSilent he]; rfl

/-- And no answers. -/
theorem Adds.unanswered (h : Silent s t) : Adds (!·.isAnswer) s t :=
  h.mono fun e he => by rw [Entry.not_isAnswer_of_isSilent he]; rfl

theorem Adds.set (h : Silent s t) (newState : ConnectionState) :
    Silent s (t.setUpstreamState cx now newState) := by
  obtain ⟨manager, events, heq⟩ := t.setUpstreamState_eq cx now newState
  rw [heq]
  exact (h.fields rfl).noteAll (List.forall_mem_map.mpr fun _ _ => rfl)

theorem Adds.enterConnecting (h : Silent s t) : Silent s (t.enterConnecting cx now) :=
  (h.set .connecting).fields rfl

theorem Adds.beginTeardown (h : Silent s t) : Silent s (t.beginTeardown cx now) := by
  rw [beginTeardown_eq]
  refine (h.fields rfl).noteAll fun e he => ?_
  simp only [teardownEntries, List.mem_append, List.mem_map] at he
  obtain ⟨r, -, rfl⟩ | ⟨f, -, rfl⟩ := he <;> rfl

theorem Adds.onUpstreamLost (h : Silent s t) : Silent s (t.onUpstreamLost cx now) := by
  have hdiscard : Silent s { t with forwarder := t.forwarder.discardDownstreamBuffer } :=
    h.fields rfl
  have hset : Silent s (({ t with
      forwarder := t.forwarder.discardDownstreamBuffer } : Session).setUpstreamState cx now
        .reconnecting) := hdiscard.set .reconnecting
  exact hset.fields rfl

theorem silent_finishArm (arm : Arm) : Silent arm.1 (finishArm cx now arm) := by
  rcases arm with ⟨s, _ | _ | _ | _⟩
  · exact .refl s
  · exact (Adds.refl s).beginTeardown
  · exact (Adds.refl s).onUpstreamLost
  · exact (Adds.refl s).beginTeardown

/-! ## Sending -/

theorem isSendable_iff {request : CommandRequest} {uniqueId : String} :
    request.isSendable cx now = true ↔
      ∃ prepared, prepareCall cx.crates cx.config.charging request uniqueId now = .ok prepared := by
  unfold CommandRequest.isSendable prepareCall
  cases preparePayload cx.crates cx.config.charging request.command now with
  | error e => simp [Except.isOk, Except.toBool, Except.map]
  | ok p => simp [Except.isOk, Except.toBool, Except.map]

theorem sentRequests_note (e : Entry) :
    (s.note now e).sentRequests = s.sentRequests ++ (sentRequest? (now, e)).toList := by
  simp only [sentRequests, note_log, List.filterMap_append]
  cases h : sentRequest? (now, e) <;> simp [h]

/-- What the loop of `send_local_calls` sends, with nothing in flight. -/
theorem sentRequests_sendLoop (fuel : Nat) (s : Session) (hidle : s.localCalls.inFlight = none)
    (hfuel : s.localCalls.queued.length ≤ fuel) :
    (sent (sendLoop cx env fuel s)).sentRequests = s.sentRequests ++
      ((if env.chargerUp then s.localCalls.queued.find? (CommandRequest.isSendable cx env.now)
        else none).map fun r => (env.now, r)).toList := by
  induction fuel generalizing s with
  | zero =>
    have hempty : s.localCalls.queued = [] := List.length_eq_zero_iff.mp (Nat.le_zero.mp hfuel)
    simp [sendLoop, sent, hempty]
  | succ fuel ih =>
    unfold sendLoop
    split
    · rename_i hpop
      have hempty : s.localCalls.queued = [] := by
        cases hq : s.localCalls.queued with
        | nil => rfl
        | cons r rest => simp [LocalCallQueue.popNext, hidle, hq] at hpop
      simp [sent, hempty]
    · rename_i request calls hpop
      obtain ⟨-, rest, hq, rfl⟩ := s.localCalls.popNext_eq_some.mp hpop
      have hlength : rest.length ≤ fuel := by
        rw [hq, List.length_cons] at hfuel
        omega
      dsimp only [LocalCallQueue.nextUniqueId]
      split
      · rename_i reason hp
        have hunsendable : request.isSendable cx env.now = false := by
          rw [Bool.eq_false_iff, Ne, isSendable_iff]
          rintro ⟨prepared, hok⟩
          rw [hp] at hok
          cases hok
        refine Eq.trans (ih _ ?_ ?_) ?_
        · exact hidle
        · exact hlength
        rw [refuse, sentRequests_note, hq, List.find?_cons, hunsendable]
        simp [sentRequest?, sentRequests]
      · rename_i prepared hp
        have hsendable : request.isSendable cx env.now = true := isSendable_iff.mpr ⟨prepared, hp⟩
        rw [hq, List.find?_cons, hsendable]
        cases hup : env.chargerUp with
        | true =>
          have hsend := @WireSink.sendRaw_of_room env.chargerSink (by simp [Env.chargerSink, hup])
            prepared.raw
          simp only [hsend, sent, sentRequests_note, if_true]
          simp [sentRequest?, sentRequests]
        | false =>
          have hsend := @WireSink.sendRaw_of_room_zero env.chargerSink
            (by simp [Env.chargerSink, hup]) prepared.raw
          simp only [hsend, sent, refuse, sentRequests_note]
          simp [sentRequest?, sentRequests]

theorem displaced_sendLoop (fuel : Nat) (s : Session) :
    (sent (sendLoop cx env fuel s)).trace Entry.displaced? = s.trace Entry.displaced? := by
  induction fuel generalizing s with
  | zero => rfl
  | succ fuel ih =>
    unfold sendLoop
    split
    · rfl
    · dsimp only
      split
      · refine Eq.trans (ih _) ?_
        rw [refuse, trace_note]
        exact List.append_nil _
      · split
        · rw [sent, refuse, trace_note]
          exact List.append_nil _
        · rw [sent, trace_note]
          exact List.append_nil _

theorem displaced_sendThen (s : Session) :
    (s.sendThen cx env).1.trace Entry.displaced? = s.trace Entry.displaced? := by
  rw [sendThen_fst]
  unfold sendLocalCalls
  split
  · rfl
  · split
    · rfl
    · exact displaced_sendLoop _ s

theorem sentRequests_sendThen (s : Session) :
    (s.sendThen cx env).1.sentRequests = s.sentRequests ++
      ((toSend cx env s.localCalls s.forwarder).map fun r => (env.now, r)).toList := by
  rw [sendThen_fst]
  unfold sendLocalCalls toSend
  cases hf : s.localCalls.inFlight with
  | some f => simp [LocalCallQueue.hasInFlight, hf, sent]
  | none =>
    cases hline : s.forwarder.hasRecentPendingCall env.now .centralToCharger centralCallGrace with
    | true =>
      split <;> simp [sent]
    | false =>
      split
      · rename_i hempty
        have hq : s.localCalls.queued = [] := by
          simpa [LocalCallQueue.hasInFlight, LocalCallQueue.isEmpty, hf] using hempty
        simp [sent, hq]
      · simp only [Bool.false_eq_true, if_false, Option.isNone_none, Bool.not_false, Bool.true_and]
        exact sentRequests_sendLoop _ s hf le_rfl

/-! ## The steps -/

theorem CallStep.finishArm {ev : Event} {arm : Arm} (h : CallStep cx ev s arm.1) :
    CallStep cx ev s (finishArm cx now arm) := by
  cases h with
  | silent hready hdisplaced h => exact .silent hready hdisplaced (h.trans (silent_finishArm arm))
  | sending hready hsent hdisplaced hanswer h =>
    exact .sending hready hsent hdisplaced hanswer (h.trans (silent_finishArm arm))

/-- The entries of the loop's own work before it sends. -/
theorem sentRequests_of_log {es : List Entry} (hlog : t.log = s.log ++ es.map fun e => (now, e))
    (hes : ∀ e ∈ es, e.call? = none) : t.sentRequests = s.sentRequests := by
  have hnone : (es.map fun e => (now, e)).filterMap sentRequest? = [] := by
    refine List.filterMap_eq_nil_iff.mpr (List.forall_mem_map.mpr fun e he => ?_)
    have hcall := hes e he
    cases e <;> first | rfl | cases hcall
  simp only [sentRequests, hlog, List.filterMap_append, hnone, List.append_nil]

theorem callStep_commandArm {request : Option CommandRequest} (hphase : s.phase = .forwarding) :
    CallStep cx ⟨env, .command request⟩ s (s.commandArm cx env request).1 := by
  cases request with
  | none => exact .silent (by simp [comesToSend]) (by simp [displacements]) (.of_log rfl)
  | some request =>
    rw [commandArm_some]
    refine .sending (by simp [comesToSend, hphase]) ?_ ?_ (.unanswered ?_) (.refl _)
    · refine sentRequests_of_log (noteAll_log ..) ?_
      simp [receiptEntries, Entry.call?]
    · rw [trace_noteAll]
      simp only [displacements, hphase, receiptEntries, List.filterMap_cons, Entry.displaced?,
        List.filterMap_map]
      congr 1
      rw [← List.filterMap_eq_map]
      rfl
    · have hpushed : Adds (!·.isAnswer) s { s with localCalls := (s.localCalls.push request).2 } :=
        .of_log rfl
      exact hpushed.noteAll (by simp [receiptEntries, Entry.isAnswer])

theorem callStep_commandTickArm (hphase : s.phase = .forwarding) :
    CallStep cx ⟨env, .commandTick⟩ s (s.commandTickArm cx env).1 := by
  rw [commandTickArm_eq]
  have hentries : ∀ e ∈ s.expiryEntries cx env.now, e.isSilent = true := by
    intro e he
    simp only [expiryEntries, List.mem_append, List.mem_map] at he
    obtain ⟨r, -, rfl⟩ | ⟨f, -, rfl⟩ := he <;> rfl
  have hlogged : Silent s (({ s with localCalls := (s.localCalls.expire env.now).2.2 } :
      Session).noteAll env.now (s.expiryEntries cx env.now)) :=
    Adds.noteAll (.of_log rfl) hentries
  refine .sending (by simp [comesToSend, hphase]) hlogged.staying.sentRequests ?_
    (.unanswered hlogged.unanswered) (.refl _)
  rw [hlogged.staying.displaced]
  simp [displacements]

/-- An arm that sends only while it has requests. -/
theorem callStep_sendIf {text : String}
    (hready : s.comesToSend cx ⟨env, .charger (.text text)⟩ = some (u.localCalls, u.forwarder))
    (h : Silent s u) :
    CallStep cx ⟨env, .charger (.text text)⟩ s
      (if !u.localCalls.isEmpty then u.sendThen cx env else (u, none)).1 := by
  have hsend : (if !u.localCalls.isEmpty then u.sendThen cx env else (u, none)).1 =
      (u.sendThen cx env).1 := by
    cases hempty : u.localCalls.isEmpty with
    | false => rfl
    | true => simp [sendThen, sendLocalCalls, hempty]
  rw [hsend]
  refine .sending hready h.staying.sentRequests ?_ (.unanswered h.unanswered) (.refl _)
  rw [h.staying.displaced]
  simp [displacements]

theorem callStep_forwardCharger {text : String} {frame : OcppFrame} (hphase : s.phase = .forwarding)
    (hparse : OcppFrame.parse cx.crates env.now text = .ok frame)
    (hours : (!frame.messageType.isCall && s.localCalls.isOurs frame.uniqueId) = false) :
    CallStep cx ⟨env, .charger (.text text)⟩ s
      ((s.note env.now (.readCharger text)).forwardCharger cx env text frame).1 := by
  have hread : Silent s (s.note env.now (.readCharger text)) := (Adds.refl s).note rfl
  unfold forwardCharger
  simp only [note_forwarder, MessageForwarder.forwardUpstream]
  rcases s.forwarder.forwardMessage_cases env.now frame env.upstreamSink .chargerToCentral with
    ⟨hroom, hf⟩ | ⟨hroom, action, hf⟩
  · have hroom : env.upstreamRoom = some 0 := hroom
    rw [hf]
    simp only [hparse]
    refine .silent (by simp [comesToSend, hphase, hparse, hours, hroom]) (by simp [displacements]) ?_
    refine Adds.noteAll (Adds.fields (Adds.noteAll (hread.fields rfl) ?_) rfl) ?_
    · simp [Env.upstreamSink]
    · simp [Entry.isSilent, Entry.isDeparture, Entry.isAnswer]
  · have hroom : env.upstreamRoom ≠ some 0 := hroom
    rw [hf]
    dsimp only
    let v : Session := ({ s.note env.now (.readCharger text) with
        forwarder := (s.forwarder.resolveAction env.now frame .chargerToCentral).2 } :
          Session).noteAll env.now ((env.upstreamSink.sent ++ [frame.raw]).map .toCentral ++
            [MqttEvent.messageForwarded s.forwarder.chargePointId frame .chargerToCentral
              action].map .event)
    have hlogged : Silent s v := by
      refine Adds.noteAll (hread.fields rfl) ?_
      simp [Env.upstreamSink, Entry.isSilent, Entry.isDeparture, Entry.isAnswer]
    have hready : s.comesToSend cx ⟨env, .charger (.text text)⟩ =
        some (v.localCalls, v.forwarder) := by
      simp [comesToSend, hphase, hparse, hours, hroom, v]
    exact callStep_sendIf
      (u := { v with manager := v.manager.recordForwarded .chargerToCentral }) hready
      (hlogged.fields rfl)

theorem callStep_chargerText (text : String) (hphase : s.phase = .forwarding) :
    CallStep cx ⟨env, .charger (.text text)⟩ s (s.chargerText cx env text).1 := by
  have hread : Silent s (s.note env.now (.readCharger text)) := (Adds.refl s).note rfl
  unfold chargerText
  dsimp only
  split
  · rename_i frame hparse
    split
    · rename_i inFlight localCalls htake
      obtain ⟨hresponse, hf, hid, rfl⟩ := s.localCalls.ours_eq_some.mp htake
      have hours : s.localCalls.isOurs frame.uniqueId = true :=
        s.localCalls.isOurs_of_inFlight hf hid
      have hsettled : Adds (!·.isDeparture) s ((({ s.note env.now (.readCharger text) with
          localCalls := { s.localCalls with inFlight := none } } : Session).note env.now
            (.consumed text)).completeLocalCall cx env.now inFlight frame) :=
        ((hread.staying.fields rfl).note rfl).note rfl
      refine .sending ?_ hsettled.sentRequests ?_ (.answered (f := inFlight) ?_ hparse ?_) (.refl _)
      · simp [comesToSend, hphase, hparse, hresponse, hours, completeLocalCall, settle]
      · rw [hsettled.displaced]
        simp [displacements]
      · simp [answerTo, hphase, hparse, hresponse, hours, hf]
      · simp [completeLocalCall, settle]
    · rename_i htake
      refine callStep_forwardCharger hphase hparse ?_
      rcases s.localCalls.ours_eq_none.mp htake with hcall | hours
      · rw [hcall]
        rfl
      · rw [hours, Bool.and_false]
  · rename_i e hparse
    have hsent : Silent s ((s.note env.now (.readCharger text)).noteAll env.now
        ((MessageSink.sendRaw env.upstreamSink text).2.sent.map .toCentral)) :=
      hread.noteAll (List.forall_mem_map.mpr fun _ _ => rfl)
    split <;> exact .silent (by simp [comesToSend, hphase, hparse]) (by simp [displacements]) hsent

theorem silent_centralText (text : String) (s : Session) :
    Silent s (s.centralText cx env text).1 := by
  have hread : Silent s (s.note env.now (.readCentral text)) := (Adds.refl s).note rfl
  unfold centralText
  dsimp only
  split
  · have hforwarded (f : Forwarded WireSink) :
        Silent s (({ s.note env.now (.readCentral text) with forwarder := f.forwarder } :
          Session).noteAll env.now (f.sink.sent.map .toCharger ++ f.events.map .event)) := by
      refine Adds.noteAll (hread.fields rfl) fun e he => ?_
      simp only [List.mem_append, List.mem_map] at he
      obtain ⟨raw, -, rfl⟩ | ⟨event, -, rfl⟩ := he <;> rfl
    split
    · exact (hforwarded _).fields rfl
    · exact hforwarded _
  · have hsent : Silent s ((s.note env.now (.readCentral text)).noteAll env.now
        ((MessageSink.sendRaw env.chargerSink text).2.sent.map .toCharger)) :=
      hread.noteAll (List.forall_mem_map.mpr fun _ _ => rfl)
    split <;> exact hsent

theorem silent_onConnectFailed (s : Session) : Silent s (s.onConnectFailed cx now) := by
  have hstarted : Silent s { s with reconnectingSince := some (s.reconnectingSince.getD now) } :=
    .of_log rfl
  unfold onConnectFailed
  dsimp only
  split
  · have hgone : Silent s { s with
        reconnectingSince := some (s.reconnectingSince.getD now)
        closeCode := closeGoingAway } := .of_log rfl
    exact hgone.beginTeardown
  · exact (hstarted.set .reconnecting).fields rfl

theorem silent_onConnected (s : Session) : Silent s (s.onConnected cx env) := by
  have hset : Silent s (({ s with backoff := s.backoff.reset, reconnectingSince := none } :
      Session).setUpstreamState cx env.now .connected) :=
    Adds.set (.of_log rfl) .connected
  unfold onConnected
  dsimp only
  generalize setUpstreamState cx env.now .connected _ = u at hset ⊢
  have hflushed : Silent s (({ u with
      forwarder := (u.forwarder.flushUpstream env.upstreamSink).2.1 } : Session).noteAll env.now
        ((u.forwarder.flushUpstream env.upstreamSink).2.2.sent.map .toCentral)) :=
    (hset.fields rfl).noteAll (List.forall_mem_map.mpr fun _ _ => rfl)
  split
  · exact hflushed.fields rfl
  · exact hflushed.enterConnecting

theorem silent_onChargerWhileBackingOff (message : ChargerMessage) (s : Session) :
    Silent s (s.onChargerWhileBackingOff cx now message) := by
  have hsame : Silent s s := .refl s
  cases message with
  | text text => exact (hsame.note rfl).enterConnecting
  | binary => exact hsame.enterConnecting
  | other => exact hsame.enterConnecting
  | _ => exact hsame.beginTeardown

theorem silent_onTryRecv (request : Option CommandRequest) (s : Session) :
    Silent s (s.onTryRecv cx now request) := by
  have hsame : Silent s s := .refl s
  cases request with
  | some request => exact (hsame.note rfl).note rfl
  | none => exact (hsame.fields rfl).note rfl

theorem callStep_of_silent {input : Input} (hphase : s.phase ≠ .forwarding) (h : Silent s t) :
    CallStep cx ⟨env, input⟩ s t := by
  refine .silent ?_ ?_ h
  · unfold comesToSend
    split <;> first | rfl | contradiction
  · unfold displacements
    split <;> first | rfl | contradiction

theorem callStep_of_handle {input : Input} (h : s.handle cx env input = some t) :
    CallStep cx ⟨env, input⟩ s t := by
  have hout {phase : Phase} (hphase : s.phase = phase) (hne : phase ≠ .forwarding)
      (h : Silent s t) : CallStep cx ⟨env, input⟩ s t :=
    callStep_of_silent (hphase ▸ hne) h
  have hasleep {deadline : Time}
      (hphase : s.phase = .backingOff deadline ∨ s.phase = .upstreamLost deadline)
      (h : Silent s t) : CallStep cx ⟨env, input⟩ s t :=
    hphase.elim (hout · nofun h) (hout · nofun h)
  have hsame : Silent s s := .refl s
  cases handled_of_handle h with
  | manager => exact .silent (by simp [comesToSend]) (by simp [displacements]) (.of_log rfl)
  | connectFailed hphase => exact hout hphase nofun (silent_onConnectFailed s)
  | connected hphase => exact hout hphase nofun (silent_onConnected s)
  | slept hphase => exact hasleep hphase hsame.enterConnecting
  | cancelledAsleep hphase => exact hasleep hphase hsame.beginTeardown
  | chargerAsleep message hphase =>
    exact hout hphase nofun (silent_onChargerWhileBackingOff message s)
  | charger message hphase =>
    refine CallStep.finishArm ?_
    cases message with
    | text text => exact callStep_chargerText text hphase
    | _ => exact .silent (by simp [comesToSend]) (by simp [displacements]) hsame
  | central message =>
    refine CallStep.finishArm (.silent (by simp [comesToSend]) (by simp [displacements]) ?_)
    cases message with
    | text text => exact silent_centralText text s
    | _ => exact hsame
  | command request hphase => exact CallStep.finishArm (callStep_commandArm hphase)
  | commandTick hphase => exact CallStep.finishArm (callStep_commandTickArm hphase)
  | housekeeping =>
    refine .silent (by simp [comesToSend]) (by simp [displacements]) ?_
    obtain ⟨forwarder, heq, -⟩ := s.housekeepingArm_eq env
    rw [heq]
    exact Adds.noteAll (.of_log rfl) (List.forall_mem_map.mpr fun _ _ => rfl)
  | cancelled =>
    exact CallStep.finishArm (.silent (by simp [comesToSend]) (by simp [displacements]) hsame)
  | tryRecv request hphase => exact hout hphase nofun (silent_onTryRecv request s)
  | closed hphase => exact hout hphase nofun ((hsame.set .disconnected).fields rfl)

end

/-! ## What a step sends and displaces -/

section
variable {cx : SessionContext} {s t : Session} {ev : Event}

theorem answerTo_eq_some {f : InFlight} {frame : OcppFrame}
    (h : s.answerTo cx ev = some (f, frame)) : s.localCalls.inFlight = some f ∧
      frame.messageType.isCall = false ∧ frame.uniqueId = f.prepared.uniqueId := by
  unfold Session.answerTo at h
  split at h
  · split at h
    · split at h
      · rename_i hours
        obtain ⟨g, hg, heq⟩ := Option.map_eq_some_iff.mp h
        obtain ⟨rfl, rfl⟩ := Prod.mk.inj heq
        simp [LocalCallQueue.isOurs, hg] at hours
        exact ⟨hg, hours.1, hours.2.symm⟩
      · cases h
    · cases h
  · cases h

/-- Every step of a session is one of the call steps. -/
theorem callStep_of_step (h : step cx s ev = some t) :
    CallStep cx ev { s with clock := ev.env.now } t :=
  callStep_of_handle (step_eq_some.mp h).2

theorem sentRequests_of_step (h : step cx s ev = some t) :
    t.sentRequests = s.sentRequests ++ (((s.comesToSend cx ev).bind fun (calls, line) =>
      toSend cx ev.env calls line).map fun r => (ev.env.now, r)).toList := by
  cases callStep_of_step h with
  | silent hready _ hsilent =>
    have hready : s.comesToSend cx ev = none := hready
    rw [hsilent.staying.sentRequests, hready]
    exact (List.append_nil _).symm
  | sending hready hsent _ _ hsilent =>
    have hready : s.comesToSend cx ev = some _ := hready
    rw [hsilent.staying.sentRequests, sentRequests_sendThen, hsent, hready]
    rfl

theorem displaced_of_step (h : step cx s ev = some t) :
    t.trace Entry.displaced? = s.trace Entry.displaced? ++ s.displacements cx ev := by
  cases callStep_of_step h with
  | silent _ hdisplaced hsilent =>
    have hdisplaced : s.displacements cx ev = [] := hdisplaced
    rw [hsilent.staying.displaced, hdisplaced]
    exact (List.append_nil _).symm
  | sending _ _ hdisplaced _ hsilent =>
    rw [hsilent.staying.displaced, displaced_sendThen, hdisplaced]
    rfl

/-- Neither a Call nor what is refused with it is an answer. -/
theorem unanswered_sendLoop (fuel : Nat) (s : Session) :
    Adds (!·.isAnswer) s (sent (sendLoop cx ev.env fuel s)) := by
  induction fuel generalizing s with
  | zero => exact .refl s
  | succ fuel ih =>
    unfold sendLoop
    split
    · exact .refl s
    · rename_i request calls hpop
      have hnumbered : Adds (!·.isAnswer) s
          { s with localCalls := (calls.nextUniqueId ev.env.now).2 } := .of_log rfl
      dsimp only
      split
      · exact (hnumbered.note rfl).trans (ih _)
      · split
        · exact hnumbered.note rfl
        · exact (hnumbered.fields rfl).note rfl

theorem unanswered_sendThen (s : Session) :
    Adds (!·.isAnswer) s (s.sendThen cx ev.env).1 := by
  rw [sendThen_fst]
  unfold sendLocalCalls
  split
  · exact .refl s
  · split
    · exact .refl s
    · exact unanswered_sendLoop _ s

/-- What a step logs of an answer comes before anything else it logs. -/
theorem answers_of_step (h : step cx s ev = some t) :
    ∃ u, AnswerStep cx ev s u ∧ Adds (!·.isAnswer) u t := by
  cases callStep_of_step h with
  | silent _ _ hsilent => exact ⟨t, .unanswered hsilent.unanswered, .refl t⟩
  | @sending u _ _ _ hanswer hsilent =>
    refine ⟨u, ?_, (unanswered_sendThen u).trans hsilent.unanswered⟩
    cases hanswer with
    | unanswered h => exact .unanswered h
    | answered hanswer hparse hlog => exact .answered hanswer hparse hlog

end

end Session

end OcppProxy

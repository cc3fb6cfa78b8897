import OcppProxy.LocalCalls
import OcppProxy.StandingLimit

/-!
# The order of limit commands

A session's limit commands come over MQTT or re-apply a standing limit. A limit is the newest while
no Call of an MQTT limit command has followed it. The invariant says that a re-apply waits with the
newest limit and behind no MQTT limit command, and that the results yet to be folded end with it.
-/

namespace OcppProxy

open Relation (ReflTransGen)

def CommandRequest.isMqttLimit (request : CommandRequest) : Bool :=
  request.command.isLimitCommand && decide (request.source = .mqtt)

namespace Entry

def mqttLimitCall? : Entry → Option CommandRequest
  | call request _ => if request.isMqttLimit then some request else none
  | _ => none

def limitResult? : Entry → Option CommandResult
  | displaced _ _ result | refused _ result | settled _ result =>
    if result.isLimitResult then some result else none
  | _ => none

def losesMqttLimit : Entry → Bool
  | refused request _ => request.isMqttLimit
  | displaced newer request _ => request.isMqttLimit && !newer.command.isLimitCommand
  | _ => false

end Entry

def CommandResult.limitLeft (result : CommandResult) : Option F64 :=
  if result.action = some "SetChargingProfile" then result.appliedLimitA else none

/-- No Call of an MQTT limit command was sent after the Call that applied the limit, or none was
sent at all. -/
def Newest (entries : List Entry) (limit : Option F64) : Prop :=
  entries.filterMap Entry.mqttLimitCall? = [] ∨
    ∃ before request prepared after, entries = before ++ .call request prepared :: after ∧
      request.command.isLimitCommand = true ∧ prepared.appliedLimitA = limit ∧
      after.filterMap Entry.mqttLimitCall? = []

/-- What never happens to MQTT limit commands: a re-apply displaces none, and it is sent only with
the newest limit. -/
structure NeverOverridden (entries : List Entry) : Prop where
  displaced : ∀ newer older result, .displaced newer older result ∈ entries →
    newer.source = .reapply → older.isMqttLimit = false
  resent : ∀ before request prepared after, entries = before ++ .call request prepared :: after →
    request.source = .reapply →
      ∃ limitA, request.command = .setCurrentLimit limitA ∧ Newest before (some limitA)

namespace LocalView

/-- The requests that are not sent yet, in the order of their dispatch. -/
def waiting (v : LocalView) : List CommandRequest := v.calls.queued ++ v.inbox

end LocalView

/-- `limit` and `status` are the snapshot's, `pending` the limit results not folded into it yet and
`accepted` all requests the inbox has taken. -/
structure LimitOrder (limit : Option F64) (status : Option String) (pending : List CommandResult)
    (accepted : List CommandRequest) (v : LocalView) : Prop where
  ordered : v.waiting.Pairwise fun r r' => r.isMqttLimit = true → r'.source ≠ .reapply
  waiting : ∀ r ∈ v.waiting, r.source = .reapply →
    ∃ limitA, r.command = .setCurrentLimit limitA ∧ Newest v.entries (some limitA)
  flying : ∀ f ∈ v.calls.inFlight, f.prepared.action = f.request.command.action ∧
    (f.request.command.isLimitCommand = true → Newest v.entries f.prepared.appliedLimitA ∧
      (f.prepared.action ≠ "SetChargingProfile" → f.prepared.appliedLimitA = none))
  standing : (∀ f ∈ v.calls.inFlight, f.request.isMqttLimit = false) →
    ∀ folded unread, pending = folded ++ unread → (∀ r ∈ unread, r.source ≠ .mqtt) →
      lastStatus status folded = some CommandStatus.accepted.asStr →
        Newest v.entries (standingLimit limit folded)
  never : NeverOverridden v.entries
  last : (∀ e ∈ v.entries, e.losesMqttLimit = false) →
    (accepted.filter (·.isMqttLimit)).getLast? =
      (v.waiting.filter (·.isMqttLimit)).getLast?.or
        (v.entries.filterMap Entry.mqttLimitCall?).getLast?

section
variable {cx : SessionContext} {limit : Option F64} {status : Option String}
  {pending : List CommandResult} {accepted : List CommandRequest} {v w : LocalView}
  {entries new : List Entry}

theorem Newest.append (h : Newest entries limit)
    (hnew : new.filterMap Entry.mqttLimitCall? = []) : Newest (entries ++ new) limit := by
  rcases h with h | ⟨before, request, prepared, after, rfl, hlimit, hprepared, hafter⟩
  · exact .inl (by rw [List.filterMap_append, h, hnew, List.append_nil])
  · refine .inr ⟨before, request, prepared, after ++ new, by simp, hlimit, hprepared, ?_⟩
    rw [List.filterMap_append, hafter, hnew, List.append_nil]

theorem newest_call {request : CommandRequest} {prepared : PreparedCall}
    (h : request.command.isLimitCommand = true) :
    Newest (entries ++ [.call request prepared]) prepared.appliedLimitA :=
  .inr ⟨entries, request, prepared, [], rfl, h, rfl, rfl⟩

theorem mqttLimitCall?_of_not_isCall (hnew : ∀ e ∈ new, e.call? = none) :
    new.filterMap Entry.mqttLimitCall? = [] := by
  refine List.filterMap_eq_nil_iff.mpr fun e he => ?_
  have hcall := hnew e he
  cases e <;> first | rfl | cases hcall

/-- Entries other than Calls, of which no re-apply displaces an MQTT limit command. -/
theorem NeverOverridden.append (h : NeverOverridden entries) (hnew : ∀ e ∈ new, e.call? = none)
    (hdisplaced : ∀ newer older result, .displaced newer older result ∈ new →
      newer.source = .reapply → older.isMqttLimit = false) : NeverOverridden (entries ++ new) where
  displaced newer older result hmem hsource := by
    rcases List.mem_append.mp hmem with hmem | hmem
    · exact h.displaced newer older result hmem hsource
    · exact hdisplaced newer older result hmem hsource
  resent before request prepared after heq hsource := by
    rcases split_append heq with ⟨after', hentries⟩ | ⟨before', -, hcall⟩
    · exact h.resent before request prepared after' hentries hsource
    · have hnone := hnew (.call request prepared) (by simp [hcall])
      cases hnone

/-- A Call, of a re-apply with the newest limit only. -/
theorem NeverOverridden.call (h : NeverOverridden entries) {request : CommandRequest}
    {prepared : PreparedCall} (hresent : request.source = .reapply →
      ∃ limitA, request.command = .setCurrentLimit limitA ∧ Newest entries (some limitA)) :
    NeverOverridden (entries ++ [.call request prepared]) where
  displaced newer older result hmem hsource := by
    have hmem : .displaced newer older result ∈ entries := by simpa using hmem
    exact h.displaced newer older result hmem hsource
  resent before request' prepared' after heq hsource := by
    rcases split_append heq with ⟨after', hentries⟩ | ⟨before', rfl, hcall⟩
    · exact h.resent before request' prepared' after' hentries hsource
    · cases before' with
      | nil =>
        obtain ⟨heq, -⟩ := List.cons.inj hcall
        cases heq
        simpa using hresent hsource
      | cons e before' => simp at hcall

/-! ## Results not folded yet -/

theorem standingLimit_append (limit : Option F64) (rs rs' : List CommandResult) :
    standingLimit limit (rs ++ rs') = standingLimit (standingLimit limit rs) rs' := by
  unfold standingLimit
  rw [List.filter_append, List.getLast?_append]
  cases (rs'.filter fun r => decide (r.status = .accepted)).getLast? <;> rfl

theorem lastStatus_append (status : Option String) (rs rs' : List CommandResult) :
    lastStatus status (rs ++ rs') = lastStatus (lastStatus status rs) rs' := by
  unfold lastStatus
  rw [List.getLast?_append]
  cases rs'.getLast? <;> rfl

/-- What results leave that end with an accepted one. -/
theorem standingLimit_of_accepted {r : CommandResult} (rs : List CommandResult)
    (h : r.status = .accepted) : standingLimit limit (rs ++ [r]) = r.limitLeft := by
  rw [standingLimit_concat, if_pos h]
  rfl

/-- More results that leave the newest limit where they are accepted. -/
theorem standing_append {results : List CommandResult}
    (hold : ∀ folded unread, pending = folded ++ unread →
      (∀ r ∈ unread ++ results, r.source ≠ .mqtt) →
      lastStatus status folded = some CommandStatus.accepted.asStr →
        Newest entries (standingLimit limit folded))
    (hnew : ∀ r ∈ results, r.status = .accepted → Newest entries r.limitLeft)
    (folded unread : List CommandResult) (heq : pending ++ results = folded ++ unread)
    (hunread : ∀ r ∈ unread, r.source ≠ .mqtt)
    (hstatus : lastStatus status folded = some CommandStatus.accepted.asStr) :
    Newest entries (standingLimit limit folded) := by
  rcases List.append_eq_append_iff.mp heq with ⟨first, rfl, hresults⟩ | ⟨rest, rfl, hrest⟩
  · rcases List.eq_nil_or_concat first with rfl | ⟨init, r, rfl⟩
    · have hresults : results = unread := by simpa using hresults
      rw [List.append_nil] at hstatus ⊢
      exact hold pending [] (by simp) (by simpa [hresults] using hunread) hstatus
    · rw [List.concat_eq_append, ← List.append_assoc] at hstatus ⊢
      have haccepted : r.status = .accepted := by
        rw [lastStatus_concat, Option.some.injEq] at hstatus
        exact (CommandStatus.asStr_eq_accepted _).mp hstatus
      rw [standingLimit_of_accepted _ haccepted]
      exact hnew r (by simp [hresults]) haccepted
  · exact hold folded rest rfl (hrest ▸ hunread) hstatus

/-! ## The moves of the session -/

theorem IsRefusal.status_ne {crates : Crates} {request : CommandRequest} {result : CommandResult}
    (h : IsRefusal crates request result) : result.status ≠ .accepted := by
  obtain ⟨now, status, detail, hstatus, rfl⟩ := h
  exact hstatus

/-- A settlement has the action, the applied limit and the source of its Call. -/
theorem IsSettlement.fields {crates : Crates} {timeout : Duration} {f : InFlight}
    {result : CommandResult} (h : IsSettlement crates timeout f result) :
    result.action = some f.prepared.action ∧
      result.appliedLimitA = f.prepared.appliedLimitA ∧ result.source = f.request.source := by
  cases h <;> exact ⟨rfl, rfl, rfl⟩

/-- Only a `SetChargingProfile` applies a limit. -/
theorem prepareCall_appliedLimitA {crates : Crates} {config : ChargingConfig}
    {request : CommandRequest} {uniqueId : String} {now : Time} {prepared : PreparedCall}
    (h : prepareCall crates config request uniqueId now = .ok prepared)
    (haction : prepared.action ≠ "SetChargingProfile") : prepared.appliedLimitA = none := by
  rw [prepareCall_action h] at haction
  unfold prepareCall preparePayload at h
  cases hcommand : request.command with
  | setCurrentLimit limitA => simp [hcommand, ProxyCommand.action] at haction
  | changeConfiguration key value =>
    simp only [hcommand] at h
    split at h <;> cases h
    rfl
  | triggerMessage requestedMessage connectorId =>
    simp only [hcommand] at h
    split at h <;> cases h
    rfl
  | _ =>
    simp only [hcommand] at h
    cases h
    rfl

theorem isLimitCommand_iff (command : ProxyCommand) : command.isLimitCommand = true ↔
    command.action = "SetChargingProfile" ∨ command.action = "ClearChargingProfile" := by
  cases command <;> simp [ProxyCommand.isLimitCommand, ProxyCommand.action]

theorem isLimitResult_iff {result : CommandResult} {command : ProxyCommand}
    (h : result.action = some command.action) :
    result.isLimitResult = true ↔ command.isLimitCommand = true := by
  rw [isLimitCommand_iff]
  simp [CommandResult.isLimitResult, h]

theorem mem_limitResults {entries : List Entry} {r : CommandResult} :
    r ∈ entries.filterMap Entry.limitResult? ↔ ∃ e ∈ entries, e.limitResult? = some r :=
  List.mem_filterMap

/-- Requests leave the queue, or are put behind all others, and results other than accepted ones
are logged. -/
theorem LimitOrder.shuffle (h : LimitOrder limit status pending accepted v)
    (hwaiting : w.waiting.Sublist v.waiting) (hflight : w.calls.inFlight = v.calls.inFlight)
    (hentries : w.entries = v.entries ++ new) (hcall : ∀ e ∈ new, e.call? = none)
    (hresults : ∀ r ∈ new.filterMap Entry.limitResult?, r.status ≠ .accepted)
    (hdisplaced : ∀ newer older result, .displaced newer older result ∈ new →
      newer.source = .reapply → older.isMqttLimit = false)
    (hlast : (∀ e ∈ new, e.losesMqttLimit = false) →
      (w.waiting.filter (·.isMqttLimit)).getLast? = (v.waiting.filter (·.isMqttLimit)).getLast?) :
    LimitOrder limit status (pending ++ new.filterMap Entry.limitResult?) accepted w := by
  have hnew := mqttLimitCall?_of_not_isCall hcall
  refine ⟨h.ordered.sublist hwaiting, fun r hr hsource => ?_, fun f hf => ?_,
    fun hquiet => standing_append (fun folded unread heq hunread hstatus => ?_) fun r hr haccepted =>
      absurd haccepted (hresults r hr), ?_, fun hkept => ?_⟩
  · obtain ⟨limitA, hcommand, hnewest⟩ := h.waiting r (hwaiting.subset hr) hsource
    exact ⟨limitA, hcommand, hentries ▸ hnewest.append hnew⟩
  · obtain ⟨haction, hlimit⟩ := h.flying f (hflight ▸ hf)
    refine ⟨haction, fun hcommand => ⟨?_, (hlimit hcommand).2⟩⟩
    exact hentries ▸ (hlimit hcommand).1.append hnew
  · rw [hflight] at hquiet
    rw [hentries]
    exact (h.standing hquiet folded unread heq
      (fun r hr => hunread r (List.mem_append_left _ hr)) hstatus).append hnew
  · rw [hentries]
    exact h.never.append hcall hdisplaced
  · rw [hentries] at hkept ⊢
    rw [hlast fun e he => hkept e (List.mem_append_right _ he), List.filterMap_append, hnew,
      List.append_nil]
    exact h.last fun e he => hkept e (List.mem_append_left _ he)

theorem eq_mqtt_of_ne {source : CommandSource} (h : source ≠ .reapply) : source = .mqtt := by
  cases source
  · rfl
  · exact absurd rfl h

/-- The last MQTT limit command waiting is the same after a request was queued, unless one was
pushed out by another command. -/
theorem getLast?_receive {request : CommandRequest} {inbox : List CommandRequest}
    {q : LocalCallQueue}
    (hordered : (q.queued ++ request :: inbox).Pairwise fun r r' =>
      r.isMqttLimit = true → r'.source ≠ .reapply)
    (hkept : ∀ r ∈ (q.push request).1, r.isMqttLimit = true →
      request.command.isLimitCommand = true) :
    (((q.push request).2.queued ++ inbox).filter (·.isMqttLimit)).getLast? =
      ((q.queued ++ request :: inbox).filter (·.isMqttLimit)).getLast? := by
  obtain ⟨kept, hpush, hsublist, hperm, -⟩ := q.push_spec request
  have hqueued : (q.push request).2.queued = kept ++ [request] := by rw [hpush]
  rw [hqueued, List.append_assoc, List.singleton_append]
  by_cases hrequest : request.isMqttLimit = true
  · simp only [List.filter_append, List.filter_cons_of_pos hrequest, List.getLast?_append]
    simp only [List.getLast?_cons, Option.some_or]
  · -- then what was displaced was no MQTT limit command
    have hnone : (q.push request).1.filter (·.isMqttLimit) = [] := by
      refine List.filter_eq_nil_iff.mpr fun r hr hmqtt => hrequest ?_
      have hsource := (List.pairwise_append.mp hordered).2.2 r (q.mem_queued_of_mem_push request hr)
        request (List.mem_cons_self ..) hmqtt
      simp [CommandRequest.isMqttLimit, hkept r hr hmqtt, eq_mqtt_of_ne hsource]
    have hlength := (hperm.filter (·.isMqttLimit)).length_eq
    rw [List.filter_append, hnone, List.nil_append] at hlength
    have hsame := (hsublist.filter (·.isMqttLimit)).eq_of_length hlength
    rw [List.filter_append, List.filter_append, hsame]

theorem LimitOrder.receive {request : CommandRequest} {inbox : List CommandRequest}
    {q : LocalCallQueue} {resultOf : CommandRequest → CommandResult}
    (h : LimitOrder limit status pending accepted ⟨request :: inbox, q, entries⟩)
    (hrefusal : ∀ r, IsRefusal cx.crates r (resultOf r))
    (hnew : new = .received request ::
      (q.push request).1.map fun r => .displaced request r (resultOf r)) :
    LimitOrder limit status (pending ++ new.filterMap Entry.limitResult?) accepted
      ⟨inbox, (q.push request).2, entries ++ new⟩ := by
  have hordered : (q.queued ++ request :: inbox).Pairwise fun r r' =>
      r.isMqttLimit = true → r'.source ≠ .reapply := h.ordered
  have hentry (e : Entry) (he : e ∈ new) : e = .received request ∨
      ∃ r ∈ (q.push request).1, e = .displaced request r (resultOf r) := by
    rw [hnew] at he
    rcases List.mem_cons.mp he with rfl | he
    · exact .inl rfl
    · obtain ⟨r, hr, rfl⟩ := List.mem_map.mp he
      exact .inr ⟨r, hr, rfl⟩
  refine h.shuffle ?_ ?_ rfl (fun e he => ?_) (fun r hr => ?_) (fun newer older result he hsource => ?_)
    fun hkept => ?_
  · obtain ⟨kept, hpush, hsublist, -, -⟩ := q.push_spec request
    simp only [LocalView.waiting, hpush, List.append_assoc, List.singleton_append]
    exact hsublist.append (List.Sublist.refl _)
  · obtain ⟨kept, hpush, -⟩ := q.push_spec request
    simp only [hpush]
  · rcases hentry e he with rfl | ⟨r, -, rfl⟩ <;> rfl
  · obtain ⟨e, he, hresult⟩ := mem_limitResults.mp hr
    rcases hentry e he with rfl | ⟨r', -, rfl⟩
    · cases hresult
    · simp only [Entry.limitResult?] at hresult
      split at hresult
      · cases hresult
        exact (hrefusal r').status_ne
      · cases hresult
  · rcases hentry _ he with he | ⟨r, hr, he⟩
    · cases he
    · cases he
      by_contra hmqtt
      exact (List.pairwise_append.mp hordered).2.2 older (q.mem_queued_of_mem_push request hr)
        request (List.mem_cons_self ..) (by simpa using hmqtt) hsource
  · refine getLast?_receive hordered fun r hr hmqtt => ?_
    have hloses := hkept (.displaced request r (resultOf r))
      (by rw [hnew]; exact List.mem_cons_of_mem _ (List.mem_map_of_mem hr))
    simpa [Entry.losesMqttLimit, hmqtt] using hloses

/-- A request is given up. -/
theorem LimitOrder.refuse {request : CommandRequest} {before after : List CommandRequest}
    {result : CommandResult} (h : LimitOrder limit status pending accepted v)
    (hwaiting : v.waiting = before ++ request :: after) (hwaiting' : w.waiting = before ++ after)
    (hflight : w.calls.inFlight = v.calls.inFlight)
    (hrefusal : IsRefusal cx.crates request result)
    (hnew : new = [.refused request result] ∨ new = [.received request, .refused request result])
    (hentries : w.entries = v.entries ++ new) :
    LimitOrder limit status (pending ++ new.filterMap Entry.limitResult?) accepted w := by
  have hentry (e : Entry) (he : e ∈ new) : e = .received request ∨ e = .refused request result := by
    rcases hnew with rfl | rfl
    · exact .inr (by simpa using he)
    · simpa using he
  have hrefused : .refused request result ∈ new := by rcases hnew with rfl | rfl <;> simp
  refine h.shuffle ?_ hflight hentries (fun e he => ?_) (fun r hr => ?_)
    (fun newer older result he => ?_) fun hkept => ?_
  · rw [hwaiting, hwaiting']
    exact (List.Sublist.refl _).append (List.sublist_cons_self _ _)
  · rcases hentry e he with rfl | rfl <;> rfl
  · obtain ⟨e, he, hresult⟩ := mem_limitResults.mp hr
    rcases hentry e he with rfl | rfl
    · cases hresult
    · simp only [Entry.limitResult?] at hresult
      split at hresult
      · cases hresult
        exact hrefusal.status_ne
      · cases hresult
  · rcases hentry _ he with he | he <;> cases he
  · have hmqtt : request.isMqttLimit = false := hkept _ hrefused
    rw [hwaiting, hwaiting']
    simp [List.filter_append, hmqtt]

theorem LimitOrder.send {request : CommandRequest} {inbox rest : List CommandRequest}
    {q : LocalCallQueue} {uniqueId : String} {prepared : PreparedCall} {now : Time}
    (h : LimitOrder limit status pending accepted ⟨inbox, q, entries⟩) (hidle : q.inFlight = none)
    (hq : q.queued = request :: rest)
    (hp : prepareCall cx.crates cx.config.charging request uniqueId now = .ok prepared) :
    LimitOrder limit status (pending ++ [Entry.call request prepared].filterMap Entry.limitResult?)
      accepted ⟨inbox, { q with queued := rest }.setInFlight request prepared now,
        entries ++ [.call request prepared]⟩ := by
  have hwaiting : LocalView.waiting ⟨inbox, q, entries⟩ = request :: (rest ++ inbox) := by
    simp [LocalView.waiting, hq]
  have hordered := hwaiting ▸ h.ordered
  have hmem : request ∈ LocalView.waiting ⟨inbox, q, entries⟩ := by simp [hwaiting]
  have hmqtt (hmqtt : request.isMqttLimit = false) :
      [Entry.call request prepared].filterMap Entry.mqttLimitCall? = [] := by
    simp [Entry.mqttLimitCall?, hmqtt]
  refine ⟨(List.pairwise_cons.mp hordered).2, fun r hr hsource => ?_, fun f hf => ?_,
    fun hquiet folded unread heq hunread hstatus => ?_, ?_, fun hkept => ?_⟩
  · -- behind an MQTT limit command there is no re-apply
    obtain ⟨limitA, hcommand, hnewest⟩ := h.waiting r (by rw [hwaiting]; exact .tail _ hr) hsource
    refine ⟨limitA, hcommand, hnewest.append (hmqtt ?_)⟩
    by_contra hlimit
    exact (List.pairwise_cons.mp hordered).1 r hr (by simpa using hlimit) hsource
  · obtain rfl : { request, prepared, sentAt := now } = f := by
      simpa [LocalCallQueue.setInFlight] using hf
    exact ⟨prepareCall_action hp, fun hlimit => ⟨newest_call hlimit, prepareCall_appliedLimitA hp⟩⟩
  · have hrequest : request.isMqttLimit = false :=
      hquiet { request, prepared, sentAt := now } rfl
    have hnone : [Entry.call request prepared].filterMap Entry.limitResult? = [] := rfl
    rw [hnone, List.append_nil] at heq
    exact (h.standing (by simp [hidle]) folded unread heq hunread hstatus).append (hmqtt hrequest)
  · exact h.never.call (h.waiting request hmem)
  · have hlast := h.last fun e he => hkept e (List.mem_append_left _ he)
    rw [hlast, hwaiting]
    have hafter : LocalView.waiting ⟨inbox, { q with queued := rest }.setInFlight request prepared
        now, entries ++ [.call request prepared]⟩ = rest ++ inbox := rfl
    rw [hafter, List.filterMap_append]
    cases hrequest : request.isMqttLimit with
    | true =>
      simp [Entry.mqttLimitCall?, hrequest, List.getLast?_cons]
    | false => simp [Entry.mqttLimitCall?, hrequest]

theorem LimitOrder.settle {inbox : List CommandRequest} {q : LocalCallQueue} {f : InFlight}
    {result : CommandResult} (h : LimitOrder limit status pending accepted ⟨inbox, q, entries⟩)
    (hf : q.inFlight = some f) (hsettled : IsSettlement cx.crates q.timeout f result) :
    LimitOrder limit status (pending ++ [Entry.settled f result].filterMap Entry.limitResult?)
      accepted ⟨inbox, { q with inFlight := none }, entries ++ [.settled f result]⟩ := by
  obtain ⟨haction, happlied, hsource⟩ := hsettled.fields
  obtain ⟨haction', hnewest⟩ := h.flying f hf
  have hkind := isLimitResult_iff (haction.trans (congrArg some haction'))
  have hresult (r : CommandResult)
      (hr : r ∈ [Entry.settled f result].filterMap Entry.limitResult?) :
      r = result ∧ f.request.command.isLimitCommand = true := by
    cases hlimit : result.isLimitResult with
    | true => exact ⟨by simpa [Entry.limitResult?, hlimit] using hr, hkind.mp hlimit⟩
    | false => simp [Entry.limitResult?, hlimit] at hr
  refine ⟨h.ordered, fun r hr hreapply => ?_, fun f' hf' => ?_, fun _ => ?_, ?_, fun hkept => ?_⟩
  · obtain ⟨limitA, hcommand, hnew⟩ := h.waiting r hr hreapply
    exact ⟨limitA, hcommand, hnew.append rfl⟩
  · cases hf'
  · refine standing_append (fun folded unread heq hunread hstatus => ?_) fun r hr haccepted => ?_
    · -- the result of an MQTT limit command is not among those left out
      have hother : ∀ f' ∈ q.inFlight, f'.request.isMqttLimit = false := by
        intro f' hf'
        obtain rfl : f = f' := Option.some.inj (hf.symm.trans hf')
        by_contra hmqtt
        have hmqtt : f.request.isMqttLimit = true := by simpa using hmqtt
        simp only [CommandRequest.isMqttLimit, Bool.and_eq_true, decide_eq_true_eq] at hmqtt
        refine hunread result (List.mem_append_right _ ?_) (hsource.trans hmqtt.2)
        simp [Entry.limitResult?, hkind.mpr hmqtt.1]
      exact (h.standing hother folded unread heq
        (fun r hr => hunread r (List.mem_append_left _ hr)) hstatus).append rfl
    · obtain ⟨rfl, hcommand⟩ := hresult r hr
      obtain ⟨hnew, hnone⟩ := hnewest hcommand
      have hleft : r.limitLeft = f.prepared.appliedLimitA := by
        unfold CommandResult.limitLeft
        rw [haction, happlied]
        split
        · rfl
        · rename_i hne
          exact (hnone (by simpa using hne)).symm
      rw [hleft]
      exact hnew.append rfl
  · exact h.never.append (by simp [Entry.call?]) (by simp)
  · have hlast := h.last fun e he => hkept e (List.mem_append_left _ he)
    rw [hlast, List.filterMap_append]
    simp [Entry.mqttLimitCall?, LocalView.waiting]

/-- What one move keeps. -/
theorem LimitOrder.step (h : LimitOrder limit status pending accepted v)
    (hstep : LocalStep cx v w) : ∃ new, w.entries = v.entries ++ new ∧
      LimitOrder limit status (pending ++ new.filterMap Entry.limitResult?) accepted w := by
  cases hstep with
  | receive hrefusal => exact ⟨_, rfl, h.receive hrefusal rfl⟩
  | @drop inbox q es before request after result hq hrefusal =>
    have hwaiting : LocalView.waiting ⟨inbox, q, es⟩ = before ++ request :: (after ++ inbox) := by
      simp [LocalView.waiting, hq]
    exact ⟨_, rfl, h.refuse hwaiting (List.append_assoc ..) rfl hrefusal (.inl rfl) rfl⟩
  | renumber sequence =>
    refine ⟨[], (List.append_nil _).symm, ?_⟩
    rw [List.filterMap_nil, List.append_nil]
    exact ⟨h.ordered, h.waiting, h.flying, h.standing, h.never, h.last⟩
  | send hidle hq hp => exact ⟨_, rfl, h.send hidle hq hp⟩
  | settle hf hsettled => exact ⟨_, rfl, h.settle hf hsettled⟩
  | @late request inbox q es result hrefusal =>
    have hwaiting : LocalView.waiting ⟨request :: inbox, q, es⟩ = q.queued ++ request :: inbox :=
      rfl
    exact ⟨_, rfl, h.refuse hwaiting rfl rfl hrefusal (.inr rfl) rfl⟩

/-- What a chain of moves keeps. -/
theorem LimitOrder.steps (h : LimitOrder limit status pending accepted v)
    (hsteps : LocalSteps cx v w) : ∃ new, w.entries = v.entries ++ new ∧
      LimitOrder limit status (pending ++ new.filterMap Entry.limitResult?) accepted w := by
  induction hsteps with
  | refl => exact ⟨[], (List.append_nil _).symm, by simpa using h⟩
  | tail _ hstep ih =>
    obtain ⟨new, hentries, hmiddle⟩ := ih
    obtain ⟨new', hentries', hlast⟩ := hmiddle.step hstep
    refine ⟨new ++ new', by rw [hentries', hentries, List.append_assoc], ?_⟩
    rw [List.filterMap_append, ← List.append_assoc]
    exact hlast

/-! ## The moves of the publisher -/

/-- The first pending result is folded into the snapshot. -/
theorem LimitOrder.fold {result : CommandResult}
    (h : LimitOrder limit status (result :: pending) accepted v) :
    LimitOrder (standingLimit limit [result]) (lastStatus status [result]) pending accepted v := by
  refine ⟨h.ordered, h.waiting, h.flying, fun hquiet folded unread heq hunread hstatus => ?_,
    h.never, h.last⟩
  rw [← lastStatus_append] at hstatus
  rw [← standingLimit_append]
  exact h.standing hquiet _ unread (by simp [heq]) hunread hstatus

/-- A refusal of the publisher's own is folded. -/
theorem LimitOrder.foldRefusal {status' : CommandStatus}
    (h : LimitOrder limit status pending accepted v) (hne : status' ≠ .accepted) :
    LimitOrder limit (some status'.asStr) pending accepted v := by
  refine ⟨h.ordered, h.waiting, h.flying, fun hquiet folded unread heq hunread hstatus => ?_,
    h.never, h.last⟩
  rcases List.eq_nil_or_concat folded with rfl | ⟨init, r, rfl⟩
  · have hstatus : some status'.asStr = some CommandStatus.accepted.asStr := hstatus
    rw [Option.some.injEq] at hstatus
    exact absurd ((CommandStatus.asStr_eq_accepted _).mp hstatus) hne
  · refine h.standing hquiet _ unread heq hunread ?_
    rw [List.concat_eq_append, lastStatus_concat] at hstatus ⊢
    exact hstatus

/-- A request is put into the inbox: a re-apply only with the newest limit and while no MQTT limit
command waits. -/
theorem LimitOrder.put {inbox : List CommandRequest} {q : LocalCallQueue} {request : CommandRequest}
    (h : LimitOrder limit status pending accepted ⟨inbox, q, entries⟩)
    (hreapply : request.source = .reapply →
      (∀ r ∈ LocalView.waiting ⟨inbox, q, entries⟩, r.isMqttLimit = false) ∧
      ∃ limitA, request.command = .setCurrentLimit limitA ∧ Newest entries (some limitA)) :
    LimitOrder limit status pending (accepted ++ [request]) ⟨inbox ++ [request], q, entries⟩ := by
  have hwaiting : LocalView.waiting ⟨inbox ++ [request], q, entries⟩ =
      LocalView.waiting ⟨inbox, q, entries⟩ ++ [request] := by
    simp [LocalView.waiting, List.append_assoc]
  refine ⟨?_, fun r hr hsource => ?_, h.flying, h.standing, h.never, fun hkept => ?_⟩
  · rw [hwaiting]
    refine List.pairwise_append.mpr ⟨h.ordered, List.pairwise_singleton _ _, ?_⟩
    intro r hr r' hr' hmqtt hsource
    obtain rfl : r' = request := by simpa using hr'
    rw [(hreapply hsource).1 r hr] at hmqtt
    cases hmqtt
  · rw [hwaiting] at hr
    rcases List.mem_append.mp hr with hr | hr
    · exact h.waiting r hr hsource
    · obtain rfl : r = request := by simpa using hr
      exact (hreapply hsource).2
  · rw [hwaiting, List.filter_append, List.filter_append]
    by_cases hmqtt : request.isMqttLimit = true
    · simp [hmqtt]
    · simpa [hmqtt] using h.last hkept

/-- Where nothing of an MQTT limit command is outstanding, the limit that stands is the newest. -/
theorem LimitOrder.newest (h : LimitOrder limit status pending accepted v)
    (hflight : ∀ f ∈ v.calls.inFlight, f.request.isMqttLimit = false)
    (hpending : ∀ r ∈ pending, r.source ≠ .mqtt)
    (hstatus : status = some CommandStatus.accepted.asStr) : Newest v.entries limit :=
  h.standing hflight [] pending rfl hpending hstatus

end

end OcppProxy

import OcppProxy.SessionCommands

/-!
# What the Central System and the charger see

While no send fails the forwarding loop is transparent, proxy commands or not. A reply to a proxy
Call stays hidden from the Central System as long as it comes while its Call is in flight.
-/

namespace OcppProxy

namespace Session

section
variable (cx : SessionContext) (s : Session) (ev : Event)

def answersInFlight (text : String) : Bool :=
  s.localCalls.inFlight.any fun f => OcppFrame.responseId cx.crates text == some f.prepared.uniqueId

/-- What an event brings for the Central System: the charger's text, unless it answers the Call in
flight. -/
def upstreamTexts : List String := ev.input.chargerText.toList.filter (!s.answersInFlight cx ·)

/-- The forwarding loop runs and both sockets take what is sent. -/
def NoSendFails : Prop :=
  s.phase = .forwarding ∧ ev.env.upstreamRoom ≠ some 0 ∧ ev.env.chargerUp = true

instance : Decidable (NoSendFails s ev) := inferInstanceAs (Decidable (_ ∧ _))

/-- What is left of an event without the proxy's commands: no request, no tick for them, and no
answer to the Call in flight. -/
def background : List Event :=
  match ev.input with
  | .command _ | .commandTick => []
  | .charger (.text text) => if s.answersInFlight cx text then [] else [ev]
  | _ => [ev]

end

section
variable {cx : SessionContext} {s t : Session} {ev : Event}

theorem answersInFlight_of_parse {text : String} {frame : OcppFrame} {now : Time}
    (hparse : OcppFrame.parse cx.crates now text = .ok frame) :
    s.answersInFlight cx text = (!frame.messageType.isCall && s.localCalls.isOurs frame.uniqueId) := by
  unfold answersInFlight LocalCallQueue.isOurs
  rw [OcppFrame.responseId_of_parse hparse]
  cases frame.messageType.isCall <;> cases s.localCalls.inFlight <;> simp [eq_comm]

theorem answersInFlight_of_parse_error {text : String} {e : ProxyError} {now : Time}
    (hparse : OcppFrame.parse cx.crates now text = .error e) :
    s.answersInFlight cx text = false := by
  unfold answersInFlight
  rw [OcppFrame.responseId_of_parse_error hparse]
  cases s.localCalls.inFlight <;> simp

/-- One step of the loop sends on what it reads. -/
theorem transparent_step (h : step cx s ev = some t) (hok : NoSendFails s ev) :
    t.trace Entry.toCentral? = s.trace Entry.toCentral? ++ s.upstreamTexts cx ev ∧
      t.trace Entry.toCharger? = s.trace Entry.toCharger? ++ ev.input.centralText.toList := by
  obtain ⟨hphase, hroom, hup⟩ := hok
  have hcentral (e : Entry) (he : e.isFrame = false) : e.toCentral? = none := by
    cases e <;> first | rfl | cases he
  have hcharger (e : Entry) (he : e.isFrame = false) : e.toCharger? = none := by
    cases e <;> first | rfl | cases he
  unfold upstreamTexts
  cases frameStep_of_step h [] with
  | quiet hnone hnone' hq =>
    rw [hnone, hnone', hq.trace_eq hcentral, hq.trace_eq hcharger]
    simp [trace]
  | dropped hinput hbacking => simp [hphase] at hbacking
  | @consumed text frame f hinput _ hparse hresponse hf hid hq =>
    have hours : s.answersInFlight cx text = true := by
      rw [answersInFlight_of_parse hparse, hresponse, LocalCallQueue.isOurs]
      simp only [show s.localCalls.inFlight = some f from hf, Option.any_some, hid]
      simp
    rw [hinput, hq.trace_noteAll rfl hcentral, hq.trace_noteAll rfl hcharger]
    simp [trace, Input.chargerText, Input.centralText, hours, List.filterMap_cons,
      Entry.toCentral?, Entry.toCharger?]
  | @forwarded text frame hinput _ hparse hours _ hq =>
    have hnot : s.answersInFlight cx text = false := by
      rw [answersInFlight_of_parse hparse]
      rcases hours with hcall | hother
      · simp [hcall]
      · simp [show s.localCalls.isOurs frame.uniqueId = false from hother]
    rw [hinput, hq.trace_noteAll rfl hcentral, hq.trace_noteAll rfl hcharger]
    simp [trace, Input.chargerText, Input.centralText, hnot, List.filterMap_cons,
      Entry.toCentral?, Entry.toCharger?]
  | buffered _ _ _ _ hfull => exact absurd hfull hroom
  | relayed hinput _ hparse _ hq =>
    rw [hinput, hq.trace_noteAll rfl hcentral, hq.trace_noteAll rfl hcharger]
    simp [trace, Input.chargerText, Input.centralText, answersInFlight_of_parse_error hparse,
      List.filterMap_cons, Entry.toCentral?, Entry.toCharger?]
  | lost _ _ _ hfull => exact absurd hfull hroom
  | delivered hinput _ hparse _ hq =>
    rw [hinput, hq.trace_noteAll rfl hcentral, hq.trace_noteAll rfl hcharger]
    simp [trace, Input.chargerText, Input.centralText, List.filterMap_cons, Entry.toCentral?,
      Entry.toCharger?]
  | passed hinput _ hparse _ hq =>
    rw [hinput, hq.trace_noteAll rfl hcentral, hq.trace_noteAll rfl hcharger]
    simp [trace, Input.chargerText, Input.centralText, List.filterMap_cons, Entry.toCentral?,
      Entry.toCharger?]
  | undelivered _ _ hdown => simp [hup] at hdown
  | swept hinput _ _ hq =>
    rw [hq, hinput, trace_housekeepingArm, trace_housekeepingArm]
    simp [trace, Input.chargerText, Input.centralText, Entry.toCentral?, Entry.toCharger?]
  | flushed _ hconnecting => simp [hphase] at hconnecting

/-- What an event brings for either side depends on its background only. -/
theorem upstreamTexts_background (cx : SessionContext) (s : Session) (ev : Event) :
    (s.background cx ev).flatMap (fun ev => ev.input.chargerText.toList) =
      s.upstreamTexts cx ev := by
  unfold upstreamTexts background
  split
  · next h => simp [h, Input.chargerText]
  · next h => simp [h, Input.chargerText]
  · next text h =>
    cases hours : s.answersInFlight cx text <;> simp [h, hours, Input.chargerText]
  · next hcommand htick htext =>
    cases hinput : ev.input.chargerText with
    | none => simp [hinput]
    | some text =>
      rcases ev with ⟨env, input⟩
      cases input <;> simp_all [Input.chargerText]

theorem centralText_background (cx : SessionContext) (s : Session) (ev : Event) :
    (s.background cx ev).flatMap (fun ev => ev.input.centralText.toList) =
      ev.input.centralText.toList := by
  unfold background
  split
  · next h => simp [h, Input.centralText]
  · next h => simp [h, Input.centralText]
  · next text h => split <;> simp [h, Input.centralText]
  · simp

/-- In every run of the forwarding loop in which no send fails, the Central System gets the
charger's texts in order without the answers to the Call in flight, and the charger gets the Central
System's; two runs with the same background give both of them the same texts. -/
theorem forwarding_transparent {events : List Event} (hrun : (step cx).run s events = some t)
    (hok : (step cx).Meets NoSendFails s events) :
    t.trace Entry.toCentral? =
        s.trace Entry.toCentral? ++ (step cx).outputs (upstreamTexts cx) s events ∧
      t.trace Entry.toCharger? =
        s.trace Entry.toCharger? ++ events.flatMap (fun ev => ev.input.centralText.toList) ∧
      ∀ s' t' events', (step cx).run s' events' = some t' →
        (step cx).Meets NoSendFails s' events' →
        (step cx).outputs (background cx) s events = (step cx).outputs (background cx) s' events' →
        ∃ upstream downstream,
          t.trace Entry.toCentral? = s.trace Entry.toCentral? ++ upstream ∧
          t'.trace Entry.toCentral? = s'.trace Entry.toCentral? ++ upstream ∧
          t.trace Entry.toCharger? = s.trace Entry.toCharger? ++ downstream ∧
          t'.trace Entry.toCharger? = s'.trace Entry.toCharger? ++ downstream := by
  have hup {s t : Session} {events : List Event} (hrun : (step cx).run s events = some t)
      (hok : (step cx).Meets NoSendFails s events) : t.trace Entry.toCentral? =
        s.trace Entry.toCentral? ++ (step cx).outputs (upstreamTexts cx) s events :=
    (step cx).outputs_eq _ (fun _ _ _ hC hstep => (transparent_step hstep hC).1) hrun hok
  have hdown {s t : Session} {events : List Event} (hrun : (step cx).run s events = some t)
      (hok : (step cx).Meets NoSendFails s events) : t.trace Entry.toCharger? =
        s.trace Entry.toCharger? ++
          (step cx).outputs (fun _ ev => ev.input.centralText.toList) s events :=
    (step cx).outputs_eq _ (fun _ _ _ hC hstep => (transparent_step hstep hC).2) hrun hok
  -- either side is a function of the background alone
  have hbackground (s : Session) (events : List Event) :
      (step cx).outputs (upstreamTexts cx) s events =
        ((step cx).outputs (background cx) s events).flatMap
          (fun ev => ev.input.chargerText.toList) ∧
      (step cx).outputs (fun _ ev => ev.input.centralText.toList) s events =
        ((step cx).outputs (background cx) s events).flatMap
          (fun ev => ev.input.centralText.toList) := by
    constructor
    · simp only [Machine.outputs_flatMap, upstreamTexts_background]
    · simp only [Machine.outputs_flatMap, centralText_background]
  refine ⟨hup hrun hok, ?_, fun s' t' events' hrun' hok' heq => ?_⟩
  · rw [hdown hrun hok, (step cx).outputs_of_run _ hrun]
  · refine ⟨_, _, hup hrun hok, ?_, hdown hrun hok, ?_⟩
    · rw [hup hrun' hok', (hbackground s events).1, heq, (hbackground s' events').1]
    · rw [hdown hrun' hok', (hbackground s events).2, heq, (hbackground s' events').2]

end

def heartbeat : String × Json :=
  ("[2,\"h1\",\"Heartbeat\",\x7b\x7d]",
    .array [.ofNat 2, .string "h1", .string "Heartbeat", .ofFields []])

def heartbeatAnswer : String × Json :=
  ("[3,\"h1\",\x7b\x7d]", .array [.ofNat 3, .string "h1", .ofFields []])

abbrev commandTable : List (String × Json) := [acceptance, heartbeat, heartbeatAnswer]

def forwardingSession : Session :=
  { start (.ofTable commandTable) 0 {} with phase := .forwarding }

/-- A clear, a heartbeat, the answer to the clear, and a frame of the Central System. -/
def clearedHeartbeat : List Event :=
  [.at 1 (.command (some (.new 0 "a" .clearCurrentLimit .mqtt))),
    .at 2 (.charger (.text heartbeat.1)), .at 3 (.charger (.text acceptance.1)),
    .at 4 (.central (.text heartbeatAnswer.1))]

theorem forwarding_transparent_clearedHeartbeat :
    ∃ t t', (step (.ofTable commandTable)).run forwardingSession clearedHeartbeat = some t ∧
      (step (.ofTable commandTable)).run forwardingSession [.at 2 (.charger (.text heartbeat.1)),
        .at 4 (.central (.text heartbeatAnswer.1))] = some t' ∧
      t.trace Entry.toCentral? = t'.trace Entry.toCentral? := by
  obtain ⟨t, hrun⟩ := Option.isSome_iff_exists.mp (show ((step (.ofTable commandTable)).run
    forwardingSession clearedHeartbeat).isSome = true by decide +kernel)
  obtain ⟨t', hrun'⟩ := Option.isSome_iff_exists.mp (show ((step (.ofTable commandTable)).run
    forwardingSession [.at 2 (.charger (.text heartbeat.1)),
      .at 4 (.central (.text heartbeatAnswer.1))]).isSome = true by decide +kernel)
  obtain ⟨upstream, -, hup, hup', -⟩ := (forwarding_transparent hrun (by decide +kernel)).2.2 _ _ _
    hrun' (by decide +kernel) (by decide +kernel)
  exact ⟨t, t', hrun, hrun', hup.trans hup'.symm⟩

/-! ## Replies to proxy Calls -/

section
variable (cx : SessionContext) (s : Session)

/-- No text sent upstream is a response with the id of a Call sent before it. -/
def RepliesHidden : Prop :=
  s.log.Pairwise fun earlier later => ∀ prepared ∈ earlier.2.call?, ∀ text ∈ later.2.toCentral?,
    OcppFrame.responseId cx.crates text ≠ some prepared.uniqueId

instance : Decidable (s.RepliesHidden cx) := by
  unfold RepliesHidden
  infer_instance

/-- A charger response with the id of a Call that was sent is read while that Call is in flight. -/
def RepliesInTime (ev : Event) : Prop :=
  s.phase = .forwarding → ∀ text ∈ ev.input.chargerText,
    ∀ id ∈ OcppFrame.responseId cx.crates text, (∃ p ∈ s.trace Entry.call?, p.uniqueId = id) →
      s.localCalls.isOurs id = true

instance (ev : Event) : Decidable (s.RepliesInTime cx ev) := by
  unfold RepliesInTime
  infer_instance

/-- With what is sent, what is buffered keeps the replies hidden. -/
structure RepliesKept : Prop where
  hidden : s.RepliesHidden cx
  replayed : s.Replayed
  buffered : ∀ frame ∈ s.forwarder.upstreamBuffer, ∀ p ∈ s.trace Entry.call?,
    OcppFrame.responseId cx.crates frame.raw ≠ some p.uniqueId

end

section
variable {cx : SessionContext} {s t u : Session} {ev : Event}
  {now : Time} {inbox inbox' : List CommandRequest}

/-- A step keeps the replies hidden if the texts it sends answer no Call sent before. -/
theorem RepliesHidden.append (h : s.RepliesHidden cx) (es : List Entry)
    (hq : Quiet cx now inbox inbox' (u.noteAll now es) t) (hlog : u.log = s.log)
    (hcall : ∀ e ∈ es, e.call? = none)
    (hnew : ∀ text, .toCentral text ∈ es → ∀ p ∈ s.trace Entry.call?,
      OcppFrame.responseId cx.crates text ≠ some p.uniqueId) : t.RepliesHidden cx := by
  obtain ⟨es', hlog', hframe, -⟩ := hq.entries
  have hquiet : ∀ e ∈ es', e.toCentral? = none := by
    intro e he
    have hf := hframe e he
    cases e <;> first | rfl | cases hf
  unfold RepliesHidden
  rw [hlog', noteAll_log, hlog, List.append_assoc, ← List.map_append]
  refine List.pairwise_append.mpr ⟨h, ?_, ?_⟩
  · -- the texts of the step come before its Calls
    refine List.pairwise_map.mpr (List.pairwise_append.mpr ⟨?_, ?_, ?_⟩)
    · refine List.pairwise_of_forall_mem_list fun a ha b _ prepared hp => ?_
      simp [hcall a ha] at hp
    · refine List.pairwise_of_forall_mem_list fun a _ b hb prepared _ text ht => ?_
      simp [hquiet b hb] at ht
    · intro a ha b _ prepared hp
      simp [hcall a ha] at hp
  · intro a ha b hb prepared hp text ht
    obtain ⟨e, he, rfl⟩ := List.mem_map.mp hb
    have hsent : prepared ∈ s.trace Entry.call? := List.mem_filterMap.mpr ⟨a, ha, hp⟩
    rcases List.mem_append.mp he with he | he
    · cases e with
      | toCentral text' =>
        obtain rfl : text' = text := by simpa [Entry.toCentral?] using ht
        exact hnew _ he prepared hsent
      | _ => cases ht
    · simp [hquiet e he] at ht

/-- A text that the loop does not recognise as an answer is no late reply either. -/
theorem not_reply_of_inTime {text : String} {frame : OcppFrame}
    (hok : s.RepliesInTime cx ev) (hinput : ev.input = .charger (.text text))
    (hphase : s.phase = .forwarding)
    (hparse : OcppFrame.parse cx.crates ev.env.now text = .ok frame)
    (hours : frame.messageType.isCall = true ∨ s.localCalls.isOurs frame.uniqueId = false) :
    ∀ p ∈ s.trace Entry.call?, OcppFrame.responseId cx.crates text ≠ some p.uniqueId := by
  intro p hp hid
  have hbusy := hok hphase text (by simp [hinput, Input.chargerText]) p.uniqueId hid ⟨p, hp, rfl⟩
  rw [OcppFrame.responseId_of_parse hparse] at hid
  rcases hours with hcall | hother
  · simp [hcall] at hid
  · split at hid
    · cases hid
    · simp [Option.some.inj hid ▸ hother] at hbusy

theorem call?_of_isFrame {e : Entry} (he : e.isFrame = true) : e.call? = none := by
  cases e <;> first | rfl | cases he

/-- Quiet moves after entries that bring nothing upstream keep what is kept. -/
theorem RepliesKept.quiet (hs : s.RepliesKept cx) (es : List Entry)
    (hq : Quiet cx now inbox inbox' (u.noteAll now es) t) (hlog : u.log = s.log)
    (hphase : u.phase = s.phase) (hbuffer : u.forwarder.upstreamBuffer = s.forwarder.upstreamBuffer)
    (hes : ∀ e ∈ es, e.isFrame = true)
    (hnew : ∀ text, .toCentral text ∈ es → ∀ p ∈ s.trace Entry.call?,
      OcppFrame.responseId cx.crates text ≠ some p.uniqueId) : t.RepliesKept cx where
  hidden := hs.hidden.append _ hq hlog (fun e he => call?_of_isFrame (hes e he)) hnew
  replayed := hq.replayed hs.replayed hphase hbuffer
  buffered frame hframe p hp := by
    rw [hq.upstreamBuffer, noteAll_forwarder, hbuffer] at hframe
    by_cases hforwarding : s.phase = .forwarding
    · simp [hs.replayed hforwarding] at hframe
    · rw [hq.trace_call (by simpa [hphase] using hforwarding), trace_noteAll, trace_congr _ hlog,
        List.filterMap_eq_nil_iff.mpr fun e he => call?_of_isFrame (hes e he),
        List.append_nil] at hp
      exact hs.buffered frame hframe p hp

theorem RepliesKept.step (h : Session.step cx s ev = some t) (hok : s.RepliesInTime cx ev)
    (hs : s.RepliesKept cx) : t.RepliesKept cx := by
  have hclock : RepliesKept cx { s with clock := ev.env.now } :=
    ⟨hs.hidden, hs.replayed, hs.buffered⟩
  have hframe := frameStep_of_step h []
  have hreplayed : t.Replayed := hframe.replayed hs.replayed
  cases hframe with
  | quiet _ _ hq =>
    rw [← noteAll_nil { s with clock := ev.env.now } ev.env.now] at hq
    exact hclock.quiet _ hq rfl rfl rfl (by simp) (by simp)
  | dropped _ _ hq => exact hclock.quiet [_] hq rfl rfl rfl (by simp [Entry.isFrame]) (by simp)
  | consumed _ _ _ _ _ _ hq => exact hclock.quiet _ hq rfl rfl rfl (by simp [Entry.isFrame]) (by simp)
  | forwarded hinput hphase hparse hours _ hq =>
    refine hclock.quiet _ hq rfl rfl (MessageForwarder.resolveAction_upstreamBuffer ..)
      (by simp [Entry.isFrame]) fun text htext => ?_
    obtain rfl : text = _ := by simpa using htext
    exact not_reply_of_inTime hok hinput hphase hparse hours
  | @buffered text frame hinput hphase hparse hours _ _ hq hcalls =>
    refine ⟨hclock.hidden.append _ hq rfl ?_ (by simp), hreplayed, fun buffered hmem p hp => ?_⟩
    · simp [Entry.call?]
    · -- the buffer was empty, so it holds this frame at most
      rw [hq.upstreamBuffer] at hmem
      rw [hcalls] at hp
      rcases s.forwarder.mem_bufferUpstream frame hmem with hold | rfl
      · simp [hs.replayed hphase] at hold
      · rw [OcppFrame.parse_raw hparse]
        exact not_reply_of_inTime hok hinput hphase hparse hours p hp
  | relayed _ _ hparse _ hq =>
    refine hclock.quiet _ hq rfl rfl rfl (by simp [Entry.isFrame]) fun text htext p _ => ?_
    obtain rfl : text = _ := by simpa using htext
    simp [OcppFrame.responseId_of_parse_error hparse]
  | lost _ _ _ _ _ hq => exact hclock.quiet [_] hq rfl rfl rfl (by simp [Entry.isFrame]) (by simp)
  | delivered _ _ _ _ hq =>
    exact hclock.quiet _ hq rfl rfl (MessageForwarder.resolveAction_upstreamBuffer ..)
      (by simp [Entry.isFrame]) (by simp)
  | passed _ _ _ _ hq => exact hclock.quiet _ hq rfl rfl rfl (by simp [Entry.isFrame]) (by simp)
  | undelivered _ _ _ _ hq => exact hclock.quiet [_] hq rfl rfl rfl (by simp [Entry.isFrame]) (by simp)
  | swept _ hphase _ ht =>
    obtain ⟨forwarder, heq, hbuffer, -⟩ := housekeepingArm_eq { s with clock := ev.env.now } ev.env
    have hempty : forwarder.upstreamBuffer = s.forwarder.upstreamBuffer := by
      simp [hbuffer, hs.replayed hphase]
    rw [ht, heq]
    refine hclock.quiet _ (@Quiet.refl cx ev.env.now [] _) rfl rfl hempty ?_ (by simp)
    exact List.forall_mem_map.mpr fun _ _ => rfl
  | @flushed s' done rest _ hphase hbefore hbuffer _ hq hcalls =>
    have hs' : RepliesKept cx s' := by
      rw [← noteAll_nil { s with clock := ev.env.now } ev.env.now] at hbefore
      exact hclock.quiet _ hbefore rfl rfl rfl (by simp) (by simp)
    have hmem (frame : OcppFrame) (hframe : frame ∈ done ++ rest) : ∀ p ∈ s'.trace Entry.call?,
        OcppFrame.responseId cx.crates frame.raw ≠ some p.uniqueId :=
      hs'.buffered frame (hbuffer ▸ hframe)
    refine ⟨hs'.hidden.append _ hq rfl ?_ ?_, hreplayed, fun frame hframe p hp => ?_⟩
    · exact List.forall_mem_map.mpr fun _ _ => rfl
    · intro text htext
      obtain ⟨frame, hframe, heq⟩ := List.mem_map.mp htext
      obtain rfl : frame.raw = text := by simpa using heq
      exact hmem frame (List.mem_append_left _ hframe)
    · rw [hq.upstreamBuffer] at hframe
      rw [hcalls, ← hbefore.trace_call fun hf => by cases hphase.symm.trans hf] at hp
      exact hmem frame (List.mem_append_right _ hframe) p hp

/-- As long as every reply to a proxy Call is read while its Call is in flight, the Central System
sees none of them. -/
theorem replies_hidden_of_inTime {now : Time} {manager : ConnectionStateManager}
    {events : List Event} (hrun : (Session.step cx).run (start cx now manager) events = some t)
    (hok : (Session.step cx).Meets (RepliesInTime cx) (start cx now manager) events) :
    t.RepliesHidden cx := by
  -- what is buffered counts too: it is sent later
  have hstart : (start cx now manager).RepliesKept cx := by
    refine ⟨?_, start_replayed now manager, fun frame hframe => ?_⟩
    · obtain ⟨events, hlog⟩ := start_log cx now manager
      unfold RepliesHidden
      rw [hlog]
      refine List.pairwise_map.mpr (List.pairwise_of_forall_mem_list fun e _ e' _ prepared hp => ?_)
      cases hp
    · rw [start_forwarder] at hframe
      cases hframe
  exact ((Session.step cx).invariant_of_meets (fun _ _ _ hC hstep hs => hs.step hstep hC) hrun hok
    hstart).hidden

theorem replies_hidden_of_inTime_clearedHeartbeat :
    ∃ t, runOfTable commandTable (.at 1 .connected :: clearedHeartbeat) = some t ∧
      t.RepliesHidden (.ofTable commandTable) := by
  obtain ⟨t, hrun⟩ := Option.isSome_iff_exists.mp (show (runOfTable commandTable
    (.at 1 .connected :: clearedHeartbeat)).isSome = true by decide +kernel)
  exact ⟨t, hrun, replies_hidden_of_inTime hrun (by decide +kernel)⟩

/-- An answer that comes after the tick that gave its Call up reaches the Central System. -/
theorem late_reply_not_hidden :
    ∃ t, runOfTable commandTable
        [.at 1 .connected, .at 1 (.command (some (.new 0 "a" .clearCurrentLimit .mqtt))),
          .at 40 .commandTick, .at 41 (.charger (.text acceptance.1))] = some t ∧
      ¬ t.RepliesHidden (.ofTable commandTable) := by
  have hseen : (runOfTable commandTable
      [.at 1 .connected, .at 1 (.command (some (.new 0 "a" .clearCurrentLimit .mqtt))),
        .at 40 .commandTick, .at 41 (.charger (.text acceptance.1))]).map
      (fun t => decide (t.RepliesHidden (.ofTable commandTable))) = some false := by
    decide +kernel
  obtain ⟨t, hrun, ht⟩ := Option.map_eq_some_iff.mp hseen
  exact ⟨t, hrun, by simpa using ht⟩

end

end Session

end OcppProxy

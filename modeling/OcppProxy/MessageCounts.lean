import OcppProxy.FrameAccount
import OcppProxy.SessionManager

/-!
# The message counters

What the counters say at the end of a session against what its log says. They differ exactly by the
texts that `uncounted` lists: those that are no OCPP message are passed on without being counted,
and a text that is lost is not counted as dropped.
-/

namespace OcppProxy

namespace Session

/-- The counters agree with the log: every text sent on is counted once, and every text of the
charger that was neither sent nor kept as an answer is counted as dropped. -/
structure CountersBalance (s : Session) : Prop where
  chargerToCentralForwarded :
    s.manager.metrics.chargerToCentralForwarded = (s.trace Entry.toCentral?).length
  chargerToCentralDropped : (s.trace Entry.readCharger?).length =
    (s.trace Entry.toCentral?).length + (s.trace Entry.consumed?).length +
      s.manager.metrics.chargerToCentralDropped
  centralToChargerForwarded :
    s.manager.metrics.centralToChargerForwarded = (s.trace Entry.toCharger?).length

section
variable (cx : SessionContext) (s : Session) (ev : Event)

def relayedTexts : List String :=
  match s.phase with
  | .forwarding => ev.input.chargerText.toList.filter fun text =>
      ev.env.upstreamRoom ≠ some 0 && !(OcppFrame.readText cx.crates text).isOk
  | _ => []

def passedTexts : List String :=
  match s.phase with
  | .forwarding => ev.input.centralText.toList.filter fun text =>
      ev.env.chargerUp && !(OcppFrame.readText cx.crates text).isOk
  | _ => []

/-- The texts of a step that no counter moves for. -/
def uncountedTexts : List String :=
  s.relayedTexts cx ev ++ (s.passedTexts cx ev ++ s.lostTexts cx ev)

/-- No other session counts on the same manager. -/
def CountsAlone : Prop :=
  ∀ manager, ev.input = .manager manager → manager.metrics = s.manager.metrics

end

section
variable {cx : SessionContext} {s t : Session} {ev : Event}

/-! ## What a step counts -/

/-- The counters after a step. -/
theorem counters_of_step (h : step cx s ev = some t) (halone : s.CountsAlone ev) :
    t.manager.metrics.chargerToCentralForwarded =
        s.manager.metrics.chargerToCentralForwarded + s.countsUp cx ev.env ev.input ∧
      t.manager.metrics.centralToChargerForwarded =
        s.manager.metrics.centralToChargerForwarded + s.countsDown cx ev.env ev.input ∧
      t.manager.metrics.chargerToCentralDropped + s.leftBehind =
        s.manager.metrics.chargerToCentralDropped + t.leftBehind := by
  by_cases hinput : ∃ manager, ev.input = .manager manager
  · obtain ⟨manager, hinput⟩ := hinput
    have hmetrics := halone manager hinput
    have ht := (step_eq_some.mp h).2
    rw [hinput] at ht
    simp only [handle, Option.some.injEq] at ht
    subst ht
    have hup : s.countsUp cx ev.env ev.input = 0 := by simp [countsUp, hinput]
    have hdown : s.countsDown cx ev.env ev.input = 0 := by simp [countsDown, hinput]
    rw [hup, hdown]
    dsimp only
    rw [hmetrics]
    exact ⟨rfl, rfl, rfl⟩
  · have htally := tally_of_step h fun manager hm => hinput ⟨manager, hm⟩
    exact ⟨htally.forwardedUp, htally.forwardedDown, htally.dropped⟩

theorem countsUp_of_no_text (hinput : ev.input.chargerText = none)
    (hconnected : ev.input ≠ .connected) : s.countsUp cx ev.env ev.input = 0 := by
  unfold countsUp
  split
  · rename_i message _ hmessage
    rw [hmessage] at hinput
    cases message with
    | text text => cases hinput
    | _ => rfl
  · exact absurd ‹_› hconnected
  · rfl

theorem countsUp_text {text : String} (hphase : s.phase = .forwarding)
    (hinput : ev.input = .charger (.text text)) :
    s.countsUp cx ev.env ev.input = if s.sendsOn cx ev.env text then 1 else 0 := by
  simp only [countsUp, hphase, hinput]
  rfl

theorem countsDown_of_no_text (hinput : ev.input.centralText = none) :
    s.countsDown cx ev.env ev.input = 0 := by
  unfold countsDown
  split
  · rename_i message _ hmessage
    rw [hmessage] at hinput
    cases message with
    | text text => cases hinput
    | _ => rfl
  · rfl

theorem countsDown_text {text : String} (hphase : s.phase = .forwarding)
    (hinput : ev.input = .central (.text text)) :
    s.countsDown cx ev.env ev.input = if handsOver cx ev.env text then 1 else 0 := by
  simp only [countsDown, hphase, hinput]
  rfl

theorem relayedTexts_of_no_text (h : ev.input.chargerText = none) : s.relayedTexts cx ev = [] := by
  unfold relayedTexts
  split <;> simp [h]

theorem relayedTexts_text {text : String} (hphase : s.phase = .forwarding)
    (hinput : ev.input = .charger (.text text)) :
    s.relayedTexts cx ev = if ev.env.upstreamRoom ≠ some 0 ∧
      (OcppFrame.readText cx.crates text).isOk = false then [text] else [] := by
  by_cases hroom : ev.env.upstreamRoom = some 0 <;>
    cases hread : (OcppFrame.readText cx.crates text).isOk <;>
      simp [relayedTexts, hphase, hinput, Input.chargerText, hroom, hread]

theorem passedTexts_of_no_text (h : ev.input.centralText = none) : s.passedTexts cx ev = [] := by
  unfold passedTexts
  split <;> simp [h]

theorem passedTexts_text {text : String} (hphase : s.phase = .forwarding)
    (hinput : ev.input = .central (.text text)) :
    s.passedTexts cx ev = if ev.env.chargerUp = true ∧
      (OcppFrame.readText cx.crates text).isOk = false then [text] else [] := by
  cases hup : ev.env.chargerUp <;>
    cases hread : (OcppFrame.readText cx.crates text).isOk <;>
      simp [passedTexts, hphase, hinput, Input.centralText, hup, hread]

/-! ## What a session keeps -/

/-- At most one frame waits for the Central System, none was ever evicted, and what is counted as
dropped is what the end of the loop left behind. -/
structure Slim (s : Session) : Prop where
  replayed : s.Replayed
  buffered : s.forwarder.upstreamBuffer.length ≤ 1
  evicted : s.trace Entry.evicted? = []
  dropped : s.manager.metrics.chargerToCentralDropped = s.leftBehind

theorem evicted?_of_not_isFrame (e : Entry) (h : e.isFrame = false) : e.evicted? = none :=
  ofFate_of_not_isFrame .evicted e h

theorem toCentral?_of_not_isFrame (e : Entry) (h : e.isFrame = false) : e.toCentral? = none :=
  ofFate_of_not_isFrame .sent e h

/-- The buffer is empty while the loop reads, so it never holds more than the frame whose send
failed. -/
theorem buffered_of_frameStep {env : Env} {input : Input} {inbox inbox' : List CommandRequest}
    (h : FrameStep cx env input inbox inbox' s t) (hreplayed : s.Replayed)
    (hs : s.forwarder.upstreamBuffer.length ≤ 1 ∧ s.trace Entry.evicted? = []) :
    t.forwarder.upstreamBuffer.length ≤ 1 ∧ t.trace Entry.evicted? = [] := by
  obtain ⟨hbuffered, hevicted⟩ := hs
  have hkeep {u : Session} (es : List Entry)
      (hq : Quiet cx env.now inbox inbox' (u.noteAll env.now es) t) (hlog : u.log = s.log)
      (hbuffer : u.forwarder.upstreamBuffer.length ≤ 1)
      (hes : es.filterMap Entry.evicted? = []) :
      t.forwarder.upstreamBuffer.length ≤ 1 ∧ t.trace Entry.evicted? = [] := by
    rw [hq.upstreamBuffer, hq.trace_noteAll hlog evicted?_of_not_isFrame, hevicted, hes]
    exact ⟨hbuffer, rfl⟩
  cases h with
  | quiet _ _ h =>
    rw [← noteAll_nil s env.now] at h
    exact hkeep _ h rfl hbuffered rfl
  | dropped _ _ h => exact hkeep [_] h rfl hbuffered rfl
  | consumed _ _ _ _ _ _ h => exact hkeep _ h rfl hbuffered rfl
  | forwarded _ _ _ _ _ h =>
    refine hkeep _ h rfl ?_ rfl
    rw [MessageForwarder.resolveAction_upstreamBuffer]
    exact hbuffered
  | buffered _ hphase _ _ _ _ h _ =>
    rename_i frame _ _ _ _ _ _
    obtain ⟨hnone, hone⟩ := s.forwarder.bufferUpstream_of_empty frame (hreplayed hphase)
    refine hkeep _ h rfl (by rw [hone]; exact le_rfl) ?_
    rw [hnone]
    rfl
  | relayed _ _ _ _ h => exact hkeep _ h rfl hbuffered rfl
  | lost _ _ _ _ _ h => exact hkeep [_] h rfl hbuffered rfl
  | delivered _ _ _ _ h =>
    refine hkeep _ h rfl ?_ rfl
    rw [MessageForwarder.resolveAction_upstreamBuffer]
    exact hbuffered
  | passed _ _ _ _ h => exact hkeep _ h rfl hbuffered rfl
  | undelivered _ _ _ _ h => exact hkeep [_] h rfl hbuffered rfl
  | swept _ hphase _ ht =>
    obtain ⟨forwarder, heq, hbuffer, -⟩ := s.housekeepingArm_eq env
    rw [ht, trace_housekeepingArm, hevicted, staleFrames, hreplayed hphase, heq]
    simp [hbuffer, hreplayed hphase]
  | @flushed s' done rest _ _ hbefore hbuffer _ h _ =>
    have hlength := congrArg List.length (hbuffer.symm.trans hbefore.upstreamBuffer)
    rw [List.length_append] at hlength
    rw [h.upstreamBuffer, h.trace_noteAll (u := s') rfl evicted?_of_not_isFrame,
      hbefore.trace_eq evicted?_of_not_isFrame, hevicted]
    refine ⟨?_, by simp [Entry.evicted?, List.filterMap_map, Function.comp_def]⟩
    simp only [noteAll_forwarder]
    omega

theorem Slim.step (hs : s.Slim) (h : step cx s ev = some t) (halone : s.CountsAlone ev) :
    t.Slim := by
  have hframe := frameStep_of_step h []
  obtain ⟨hbuffered, hevicted⟩ :=
    buffered_of_frameStep hframe hs.replayed ⟨hs.buffered, hs.evicted⟩
  refine ⟨hframe.replayed hs.replayed, hbuffered, hevicted, ?_⟩
  have hdropped := (counters_of_step h halone).2.2
  have hbefore := hs.dropped
  omega

/-! ## What a step sends -/

/-- A connection is made only while one is awaited. -/
theorem phase_of_connected (h : step cx s ev = some t) (hinput : ev.input = .connected) :
    s.phase = .connecting ∧ t = ({ s with clock := ev.env.now } : Session).onConnected cx ev.env := by
  have ht := handled_of_handle (step_eq_some.mp h).2
  rw [hinput] at ht
  cases ht with
  | connected hphase => exact ⟨hphase, rfl⟩

/-- A replay sends the buffer up to the first failure, and counts it if there was none. -/
theorem onConnected_sent (hs : s.phase = .connecting) {env : Env} :
    ∃ done rest, s.forwarder.upstreamBuffer = done ++ rest ∧
      (MessageForwarder.flush s.forwarder.upstreamBuffer env.upstreamSink).2.1 = rest ∧
      (s.onConnected cx env).trace Entry.toCentral? =
        s.trace Entry.toCentral? ++ done.map OcppFrame.raw ∧
      s.countsUp cx env .connected = if rest = [] then s.forwarder.upstreamBuffer.length else 0 := by
  obtain ⟨done, rest, hbuffer, hrest, hsent, hok⟩ :=
    MessageForwarder.flush_spec env.upstreamSink s.forwarder.upstreamBuffer
  have hup : s.countsUp cx env .connected =
      if (MessageForwarder.flush s.forwarder.upstreamBuffer env.upstreamSink).1.isOk then
        s.forwarder.upstreamBuffer.length
      else 0 := by
    simp only [countsUp, hs]
  obtain ⟨u, hu⟩ : ∃ u : Session, u = ({ s with
    backoff := s.backoff.reset
    reconnectingSince := none } : Session).setUpstreamState cx env.now .connected := ⟨_, rfl⟩
  have hforwarder : u.forwarder = s.forwarder := by
    obtain ⟨manager, events, hset⟩ := setUpstreamState_eq ({ s with
      backoff := s.backoff.reset
      reconnectingSince := none } : Session) cx env.now .connected
    rw [hu, hset]
    rfl
  have htrace : u.trace Entry.toCentral? = s.trace Entry.toCentral? := by
    rw [hu]
    exact trace_setUpstreamState _ cx env.now _ .connected fun _ => rfl
  -- what the replay logs, whatever comes of it
  have hnoted (v : Session) (hv : v.log = u.log) :
      (v.noteAll env.now ((env.upstreamSink.sent ++ done.map OcppFrame.raw).map .toCentral)).trace
        Entry.toCentral? = s.trace Entry.toCentral? ++ done.map OcppFrame.raw := by
    rw [trace_noteAll, trace_congr _ hv, htrace]
    simp [Env.upstreamSink, List.filterMap_map, Function.comp_def, Entry.toCentral?]
  refine ⟨done, rest, hbuffer, hrest, ?_, ?_⟩
  · unfold onConnected
    simp only [← hu, hforwarder, MessageForwarder.flushUpstream, hsent]
    cases hflush : (MessageForwarder.flush s.forwarder.upstreamBuffer env.upstreamSink).1 with
    | ok => exact hnoted _ rfl
    | error e =>
      refine Eq.trans ?_ (hnoted _ rfl)
      exact trace_setUpstreamState _ cx env.now _ .connecting fun _ => rfl
  · rw [hup]
    cases hflush : (MessageForwarder.flush s.forwarder.upstreamBuffer env.upstreamSink).1 with
    | ok =>
      rw [if_pos (hok.mp hflush)]
      rfl
    | error e =>
      have hrest : rest ≠ [] := fun h => by simp [hok.mpr h] at hflush
      rw [if_neg hrest]
      rfl

/-- What a step sends to the Central System is what it counts and what it relays. -/
theorem toCentral_of_step_buffered (h : step cx s ev = some t)
    (hbuffered : s.forwarder.upstreamBuffer.length ≤ 1) :
    (t.trace Entry.toCentral?).length = (s.trace Entry.toCentral?).length +
      s.countsUp cx ev.env ev.input + (s.relayedTexts cx ev).length := by
  have hkeep {u : Session} (es : List Entry)
      (hq : Quiet cx ev.env.now (ev.requests ++ []) [] (u.noteAll ev.env.now es) t)
      (hlog : u.log = s.log) :
      (t.trace Entry.toCentral?).length = (s.trace Entry.toCentral?).length +
        (es.filterMap Entry.toCentral?).length := by
    rw [hq.trace_noteAll hlog toCentral?_of_not_isFrame, List.length_append]
  -- a step that brings no text of the charger
  have hother {u : Session} (es : List Entry)
      (hq : Quiet cx ev.env.now (ev.requests ++ []) [] (u.noteAll ev.env.now es) t)
      (hlog : u.log = s.log) (hes : es.filterMap Entry.toCentral? = [])
      (hnone : ev.input.chargerText = none) (hconnected : ev.input ≠ .connected) :
      (t.trace Entry.toCentral?).length = (s.trace Entry.toCentral?).length +
        s.countsUp cx ev.env ev.input + (s.relayedTexts cx ev).length := by
    rw [hkeep es hq hlog, hes, countsUp_of_no_text hnone hconnected, relayedTexts_of_no_text hnone]
    rfl
  by_cases hconnected : ev.input = .connected
  · obtain ⟨hphase, ht⟩ := phase_of_connected h hconnected
    obtain ⟨done, rest, hbuffer, -, hsent, hcounts⟩ :=
      @onConnected_sent cx { s with clock := ev.env.now } hphase ev.env
    have hlength : s.forwarder.upstreamBuffer.length = done.length + rest.length := by
      rw [← List.length_append]
      exact congrArg List.length hbuffer
    have hup : s.countsUp cx ev.env ev.input = done.length := by
      rw [hconnected]
      refine hcounts.trans ?_
      cases rest with
      | nil =>
        rw [if_pos rfl]
        exact hlength
      | cons frame rest =>
        -- of the one frame in the buffer nothing was sent
        simp only [List.length_cons] at hlength
        rw [if_neg (List.cons_ne_nil _ _)]
        omega
    rw [ht, hsent, hup, relayedTexts_of_no_text (by rw [hconnected]; rfl), List.length_append,
      List.length_map]
    rfl
  have hframe := frameStep_of_step h []
  cases hframe with
  | quiet hnone _ hq =>
    rw [← noteAll_nil { s with clock := ev.env.now } ev.env.now] at hq
    exact hother _ hq rfl rfl hnone hconnected
  | dropped hinput hphase hq =>
    have hphase : s.phase = _ := hphase
    rw [hkeep [_] hq rfl]
    simp [countsUp, relayedTexts, hphase, Entry.toCentral?]
  | @consumed text frame f hinput hphase hparse hresponse hf hid hq =>
    have hphase : s.phase = .forwarding := hphase
    have hf : s.localCalls.inFlight = _ := hf
    have hours : s.sendsOn cx ev.env text = false := by
      simp [sendsOn, hparse, hresponse, LocalCallQueue.isOurs, hf, hid]
    rw [hkeep _ hq rfl, countsUp_text hphase hinput, hours, relayedTexts_text hphase hinput,
      readText_isOk_of_parse hparse]
    simp [List.filterMap_cons, Entry.toCentral?]
  | @forwarded text frame hinput hphase hparse hours hroom hq =>
    have hphase : s.phase = .forwarding := hphase
    have hours : s.sendsOn cx ev.env text = true := by
      simpa [sendsOn, hparse, hroom] using hours
    rw [hkeep _ hq rfl, countsUp_text hphase hinput, hours, relayedTexts_text hphase hinput,
      readText_isOk_of_parse hparse]
    simp [List.filterMap_cons, Entry.toCentral?]
  | @buffered text frame hinput hphase hparse hours hroom _ hq _ =>
    have hphase : s.phase = .forwarding := hphase
    have hsends : s.sendsOn cx ev.env text = false := by
      simp [sendsOn, hparse, hroom]
    rw [hkeep _ hq rfl, countsUp_text hphase hinput, hsends, relayedTexts_text hphase hinput]
    simp [hroom, List.filterMap_cons, Entry.toCentral?, List.filterMap_map, Function.comp_def]
  | @relayed text e hinput hphase hparse hroom hq =>
    have hphase : s.phase = .forwarding := hphase
    have hsends : s.sendsOn cx ev.env text = false := by
      simp [sendsOn, hparse]
    rw [hkeep _ hq rfl, countsUp_text hphase hinput, hsends, relayedTexts_text hphase hinput,
      readText_isOk_of_parse_error hparse]
    simp [hroom, List.filterMap_cons, Entry.toCentral?]
  | @lost text e hinput hphase hparse hroom _ hq =>
    have hphase : s.phase = .forwarding := hphase
    have hsends : s.sendsOn cx ev.env text = false := by
      simp [sendsOn, hparse]
    rw [hkeep [_] hq rfl, countsUp_text hphase hinput, hsends, relayedTexts_text hphase hinput]
    simp [hroom, List.filterMap_cons, Entry.toCentral?]
  | delivered hinput _ _ _ hq => exact hother _ hq rfl rfl (by rw [hinput]; rfl) hconnected
  | passed hinput _ _ _ hq => exact hother _ hq rfl rfl (by rw [hinput]; rfl) hconnected
  | undelivered hinput _ _ _ hq => exact hother [_] hq rfl rfl (by rw [hinput]; rfl) hconnected
  | swept hinput _ _ ht =>
    have hnone : ev.input.chargerText = none := by rw [hinput]; rfl
    rw [ht, trace_housekeepingArm, countsUp_of_no_text hnone hconnected,
      relayedTexts_of_no_text hnone]
    simp [Entry.toCentral?, trace_congr (s := s) (t := { s with clock := ev.env.now }) _ rfl]
  | flushed hinput => exact absurd hinput hconnected

theorem toCentral_of_step (h : step cx s ev = some t) (hs : s.Slim) :
    (t.trace Entry.toCentral?).length = (s.trace Entry.toCentral?).length +
      s.countsUp cx ev.env ev.input + (s.relayedTexts cx ev).length :=
  toCentral_of_step_buffered h hs.buffered

theorem toCharger?_of_not_isFrame (e : Entry) (h : e.isFrame = false) : e.toCharger? = none := by
  cases e <;> first | rfl | cases h

/-- What a step hands to the charger is what it counts and what it passes on. -/
theorem toCharger_of_step (h : step cx s ev = some t) :
    (t.trace Entry.toCharger?).length = (s.trace Entry.toCharger?).length +
      s.countsDown cx ev.env ev.input + (s.passedTexts cx ev).length := by
  have hkeep {u : Session} (es : List Entry)
      (hq : Quiet cx ev.env.now (ev.requests ++ []) [] (u.noteAll ev.env.now es) t)
      (hlog : u.trace Entry.toCharger? = s.trace Entry.toCharger?) :
      (t.trace Entry.toCharger?).length = (s.trace Entry.toCharger?).length +
        (es.filterMap Entry.toCharger?).length := by
    rw [hq.trace_eq toCharger?_of_not_isFrame, trace_noteAll, hlog, List.length_append]
  -- a step that brings no text of the Central System
  have hother {u : Session} (es : List Entry)
      (hq : Quiet cx ev.env.now (ev.requests ++ []) [] (u.noteAll ev.env.now es) t)
      (hlog : u.trace Entry.toCharger? = s.trace Entry.toCharger?)
      (hes : es.filterMap Entry.toCharger? = []) (hnone : ev.input.centralText = none) :
      (t.trace Entry.toCharger?).length = (s.trace Entry.toCharger?).length +
        s.countsDown cx ev.env ev.input + (s.passedTexts cx ev).length := by
    rw [hkeep es hq hlog, hes, countsDown_of_no_text hnone, passedTexts_of_no_text hnone]
    rfl
  have hframe := frameStep_of_step h []
  cases hframe with
  | quiet _ hnone hq =>
    rw [← noteAll_nil { s with clock := ev.env.now } ev.env.now] at hq
    exact hother _ hq rfl rfl hnone
  | dropped hinput _ hq => exact hother [_] hq rfl rfl (by rw [hinput]; rfl)
  | consumed hinput _ _ _ _ _ hq => exact hother _ hq rfl rfl (by rw [hinput]; rfl)
  | forwarded hinput _ _ _ _ hq => exact hother _ hq rfl rfl (by rw [hinput]; rfl)
  | buffered hinput _ _ _ _ _ hq _ =>
    refine hother _ hq rfl ?_ (by rw [hinput]; rfl)
    simp [List.filterMap_cons, Entry.toCharger?, List.filterMap_map, Function.comp_def]
  | relayed hinput _ _ _ hq => exact hother _ hq rfl rfl (by rw [hinput]; rfl)
  | lost hinput _ _ _ _ hq => exact hother [_] hq rfl rfl (by rw [hinput]; rfl)
  | @delivered text frame hinput hphase hparse hup hq =>
    have hphase : s.phase = .forwarding := hphase
    have hhands : handsOver cx ev.env text = true := by
      simp [handsOver, hparse, hup, Except.isOk, Except.toBool]
    rw [hkeep _ hq rfl, countsDown_text hphase hinput, hhands, passedTexts_text hphase hinput,
      readText_isOk_of_parse hparse]
    simp [List.filterMap_cons, Entry.toCharger?]
  | @passed text e hinput hphase hparse hup hq =>
    have hphase : s.phase = .forwarding := hphase
    have hhands : handsOver cx ev.env text = false := by
      simp [handsOver, hparse, Except.isOk, Except.toBool]
    rw [hkeep _ hq rfl, countsDown_text hphase hinput, hhands, passedTexts_text hphase hinput,
      readText_isOk_of_parse_error hparse]
    simp [hup, List.filterMap_cons, Entry.toCharger?]
  | @undelivered text hinput hphase hup _ hq =>
    have hphase : s.phase = .forwarding := hphase
    have hhands : handsOver cx ev.env text = false := by simp [handsOver, hup]
    rw [hkeep [_] hq rfl, countsDown_text hphase hinput, hhands, passedTexts_text hphase hinput]
    simp [hup, List.filterMap_cons, Entry.toCharger?]
  | swept hinput _ _ ht =>
    have hnone : ev.input.centralText = none := by rw [hinput]; rfl
    rw [ht, trace_housekeepingArm, countsDown_of_no_text hnone, passedTexts_of_no_text hnone]
    simp [Entry.toCharger?, trace_congr (s := s) (t := { s with clock := ev.env.now }) _ rfl]
  | @flushed s' done rest hinput _ hbefore _ _ hq _ =>
    refine hother (u := { s' with
      phase := .forwarding
      forwarder := { s'.forwarder with upstreamBuffer := rest } }) _ hq ?_ ?_ (by rw [hinput]; rfl)
    · exact hbefore.trace_eq toCharger?_of_not_isFrame
    · simp [List.filterMap_map, Function.comp_def, Entry.toCharger?]

/-! ## Whole runs -/

theorem start_slim {now : Time} {manager : ConnectionStateManager} (hfresh : manager.metrics = {}) :
    (start cx now manager).manager.metrics = {} ∧ (start cx now manager).Slim := by
  have hmetrics : (start cx now manager).manager.metrics = {} := by
    refine Eq.trans ?_ hfresh
    exact (setUpstreamState_manager _ now .connecting).2
  refine ⟨hmetrics, start_replayed now manager, ?_, start_trace cx now manager _ fun _ => rfl, ?_⟩
  · rw [start_forwarder]
    exact Nat.zero_le 1
  · rw [hmetrics]
    rfl

/-- The counters balance at the end of a session that alone counts on its manager, if and only if no
step of its run read a text while backing off, a charger text that is no OCPP message, or handed
such a text of the Central System to the charger. -/
theorem countersBalance_iff {now : Time} {manager : ConnectionStateManager} {events : List Event}
    (hfresh : manager.metrics = {})
    (hrun : (step cx).run (start cx now manager) events = some t)
    (halone : (step cx).Meets CountsAlone (start cx now manager) events)
    (hended : t.phase = .ended) :
    t.CountersBalance ↔
      (step cx).Meets (fun s ev => s.uncountedTexts cx ev = []) (start cx now manager) events := by
  obtain ⟨hmetrics, hslim⟩ := @start_slim cx now manager hfresh
  have hread : trace Entry.readCharger? (start cx now manager) = [] :=
    start_trace cx now manager _ fun _ => rfl
  have hsent : trace Entry.toCentral? (start cx now manager) = [] :=
    start_trace cx now manager _ fun _ => rfl
  have hconsumed : trace Entry.consumed? (start cx now manager) = [] :=
    start_trace cx now manager _ fun _ => rfl
  have hhanded : trace Entry.toCharger? (start cx now manager) = [] :=
    start_trace cx now manager _ fun _ => rfl
  have hbuffer : (start cx now manager).forwarder.upstreamBuffer = [] := by
    rw [start_forwarder]
    rfl
  have hkept := (step cx).meets_of_invariant
    (fun s ev s' halone h hs => Slim.step hs h halone) halone hslim
  have hend := (step cx).invariant_of_meets
    (fun s ev s' halone h hs => Slim.step hs h halone) hrun halone hslim
  -- the three accounts of the run
  have hup := (step cx).outputs_length (relayedTexts cx)
    (d := fun s => (s.trace Entry.toCentral?).length)
    (e := fun s => s.manager.metrics.chargerToCentralForwarded) (fun s ev s' hC h => by
      have hcount := (counters_of_step h hC.1).1
      have hlength := toCentral_of_step h hC.2
      omega) hrun (Machine.meets_and.mpr ⟨halone, hkept⟩)
  have hdown := (step cx).outputs_length (passedTexts cx)
    (d := fun s => (s.trace Entry.toCharger?).length)
    (e := fun s => s.manager.metrics.centralToChargerForwarded) (fun s ev s' hC h => by
      have hcount := (counters_of_step h hC).2.1
      have hlength := toCharger_of_step h
      omega) hrun halone
  have hlost := (step cx).outputs_length (lostTexts cx)
    (d := fun s => (s.trace Entry.readCharger?).length)
    (e := accountedLength) (fun s ev s' _ h =>
      accountedLength_of_frameStep (s := { s with clock := ev.env.now }) (frameStep_of_step h []))
      hrun ((step cx).meets_true _ _)
  have hleft : t.manager.metrics.chargerToCentralDropped = t.forwarder.upstreamBuffer.length := by
    rw [hend.dropped, leftBehind, hended]
    rfl
  have haccounted : t.accountedLength = (t.trace Entry.toCentral?).length +
      (t.trace Entry.consumed?).length + t.manager.metrics.chargerToCentralDropped := by
    rw [accountedLength, hend.evicted, hleft]
    rfl
  have hstart : (start cx now manager).accountedLength = 0 := by
    rw [accountedLength, hsent, hconsumed, hslim.evicted, hbuffer]
    rfl
  simp only [hmetrics, hsent, hhanded, hread, hstart, List.length_nil, Nat.zero_add,
    Nat.add_zero] at hup hdown hlost
  have hmeets : (step cx).Meets (fun s ev => s.uncountedTexts cx ev = [])
      (start cx now manager) events ↔
      ((step cx).outputs (relayedTexts cx) (start cx now manager) events).length = 0 ∧
      ((step cx).outputs (passedTexts cx) (start cx now manager) events).length = 0 ∧
      ((step cx).outputs (lostTexts cx) (start cx now manager) events).length = 0 := by
    simp only [uncountedTexts, List.append_eq_nil_iff, List.length_eq_zero_iff]
    rw [Machine.meets_and, Machine.meets_and, (step cx).outputs_eq_nil_iff _ hrun,
      (step cx).outputs_eq_nil_iff _ hrun, (step cx).outputs_eq_nil_iff _ hrun]
  rw [hmeets]
  constructor
  · rintro ⟨hforwarded, hdropped, hhanded⟩
    omega
  · rintro ⟨h1, h2, h3⟩
    refine ⟨?_, ?_, ?_⟩ <;> omega

/-- A session that forwards a heartbeat and its answer, and ends. -/
theorem countersBalance_iff_heartbeat : ∃ t, runOfTable commandTable [.at 1 .connected,
      .at 2 (.charger (.text heartbeat.1)), .at 3 (.central (.text heartbeatAnswer.1)),
      .at 4 .cancelled, .at 5 (.tryRecv none), .at 6 .closed] = some t ∧ t.CountersBalance := by
  have hended : (runOfTable commandTable [.at 1 .connected, .at 2 (.charger (.text heartbeat.1)),
      .at 3 (.central (.text heartbeatAnswer.1)), .at 4 .cancelled, .at 5 (.tryRecv none),
      .at 6 .closed]).map Session.phase = some .ended := by
    decide +kernel
  obtain ⟨t, hrun, ht⟩ := Option.map_eq_some_iff.mp hended
  refine ⟨t, hrun, (countersBalance_iff rfl hrun ?_ ht).mpr (by decide +kernel)⟩
  refine ((step _).meets_of_forall (C := fun ev => ∀ manager, ev.input ≠ .manager manager) _ ?_).mono
    fun s ev halone manager hm => absurd hm (halone manager)
  simp [Event.at]

/-- A heartbeat that comes while the session backs off is not counted as dropped. -/
theorem not_countersBalance_backingOff : ∃ t, runOfTable commandTable [.at 1 .connectFailed,
      .at 2 (.charger (.text heartbeat.1)), .at 3 .connected, .at 4 .cancelled,
      .at 5 (.tryRecv none), .at 6 .closed] = some t ∧ t.phase = .ended ∧
    ¬ t.CountersBalance := by
  have hcounts : (runOfTable commandTable [.at 1 .connectFailed,
      .at 2 (.charger (.text heartbeat.1)), .at 3 .connected, .at 4 .cancelled,
      .at 5 (.tryRecv none), .at 6 .closed]).map (fun t => (t.phase,
        (t.trace Entry.readCharger?).length, (t.trace Entry.toCentral?).length,
        (t.trace Entry.consumed?).length, t.manager.metrics.chargerToCentralDropped)) =
      some (.ended, 1, 0, 0, 0) := by
    decide +kernel
  obtain ⟨t, hrun, ht⟩ := Option.map_eq_some_iff.mp hcounts
  simp only [Prod.mk.injEq] at ht
  obtain ⟨hended, hread, hsent, hconsumed, hdropped⟩ := ht
  refine ⟨t, hrun, hended, fun h => ?_⟩
  have hbalance := h.chargerToCentralDropped
  omega

end

end Session

end OcppProxy

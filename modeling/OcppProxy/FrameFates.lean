import OcppProxy.FrameAccount
import OcppProxy.SessionManager

/-!
# Frames in any run

What a session does with frames whether or not it loses some: it invents none, duplicates none and
keeps their order, and what it does not send on is kept back as an answer, still buffered, or read
and lost in one of the two places that lose texts.
-/

namespace OcppProxy

namespace Entry

def frame? (e : Entry) : Option Entry := if e.isFrame then some e else none

def readCentral? : Entry → Option String
  | readCentral text => some text
  | _ => none

theorem filterMap_frame? {es : List Entry} (h : ∀ e ∈ es, e.isFrame = true) :
    es.filterMap frame? = es := by
  rw [List.filterMap_congr (g := some) fun e he => by simp [frame?, h e he], List.filterMap_some]

end Entry

namespace Session

def frames (s : Session) : List Entry := s.trace Entry.frame?

def buffered (s : Session) : List String := s.forwarder.upstreamBuffer.map OcppFrame.raw

inductive FrameMove (cx : SessionContext) (ev : Event) (s t : Session) : Prop
  | none (hframes : t.frames = s.frames) (hbuffered : t.buffered = s.buffered)
    (hlost : s.lostTexts cx ev = [])
  | lost {text : String} (hframes : t.frames = s.frames ++ [.readCharger text])
    (hbuffered : t.buffered = s.buffered) (hlost : s.lostTexts cx ev = [text])
  /-- The answer to the Call in flight. -/
  | consumed {text : String} {f : InFlight} (hflight : s.localCalls.inFlight = some f)
    (hframes : t.frames = s.frames ++ [.readCharger text, .consumed text])
    (hbuffered : t.buffered = s.buffered) (hlost : s.lostTexts cx ev = [])
  | sent {text : String} (hempty : s.buffered = [])
    (hframes : t.frames = s.frames ++ [.readCharger text, .toCentral text])
    (hbuffered : t.buffered = []) (hlost : s.lostTexts cx ev = [])
  | kept {text : String} (hempty : s.buffered = [])
    (hframes : t.frames = s.frames ++ [.readCharger text]) (hbuffered : t.buffered = [text])
    (hlost : s.lostTexts cx ev = [])
  | replayed {done : List String} (hframes : t.frames = s.frames ++ done.map .toCentral)
    (hbuffered : s.buffered = done ++ t.buffered) (hlost : s.lostTexts cx ev = [])
  | delivered {text : String} (hphase : s.phase = .forwarding)
    (hframes : t.frames = s.frames ++ [.readCentral text, .toCharger text])
    (hbuffered : t.buffered = s.buffered) (hlost : s.lostTexts cx ev = [])
  /-- The charger is gone, and the loop over. -/
  | undelivered {text : String} (hphase : s.phase = .forwarding) (hended : t.phase.isEnding = true)
    (hframes : t.frames = s.frames ++ [.readCentral text]) (hbuffered : t.buffered = s.buffered)
    (hlost : s.lostTexts cx ev = [])

section
variable {cx : SessionContext} {s t : Session} {ev : Event}

theorem frame?_of_not_isFrame (e : Entry) (h : e.isFrame = false) : e.frame? = none := by
  simp [Entry.frame?, h]

/-- The log of frames after entries about frames and quiet moves. -/
theorem frames_of_quiet {u : Session} {now : Time} {inbox inbox' : List CommandRequest}
    {l : List Entry} (h : Quiet cx now inbox inbox' (u.noteAll now l) t) (hlog : u.log = s.log)
    (hl : ∀ e ∈ l, e.isFrame = true) : t.frames = s.frames ++ l := by
  have hframes := h.trace_noteAll hlog frame?_of_not_isFrame
  rwa [Entry.filterMap_frame? hl] at hframes

theorem buffered_of_quiet {u : Session} {now : Time} {inbox inbox' : List CommandRequest}
    {l : List Entry} (h : Quiet cx now inbox inbox' (u.noteAll now l) t)
    (hbuffer : u.forwarder.upstreamBuffer = s.forwarder.upstreamBuffer) :
    t.buffered = s.buffered := by
  unfold buffered
  rw [h.upstreamBuffer, noteAll_forwarder, hbuffer]

/-- A Central System text for a charger that is gone ends the loop. -/
theorem isEnding_of_gone {env : Env} {text : String} (hup : env.chargerUp = false) (s : Session) :
    (finishArm cx env.now (s.centralText cx env text)).phase.isEnding = true := by
  have hroom : env.chargerSink.room = some 0 := by simp [Env.chargerSink, hup]
  have hgone (arm : Arm) (h : arm.2 = some .chargerGone) :
      (finishArm cx env.now arm).phase.isEnding = true := by
    obtain ⟨u, outcome⟩ := arm
    cases h
    exact congrArg Phase.isEnding (beginTeardown_phase u env.now)
  refine hgone _ ?_
  unfold centralText
  dsimp only
  split
  · rename_i frame hparse
    simp only [note_forwarder, MessageForwarder.forwardDownstream]
    rcases s.forwarder.forwardMessage_cases env.now frame env.chargerSink .centralToCharger with
      ⟨-, hf⟩ | ⟨h0, -⟩
    · rw [hf]
    · exact absurd hroom h0
  · simp only [WireSink.sendRaw_of_room_zero hroom text]

theorem isEnding_of_handle {env : Env} {input : Input} (hs : s.phase.isEnding = true)
    (h : s.handle cx env input = some t) : t.phase.isEnding = true := by
  have hout {phase : Phase} (hphase : s.phase = phase) (h : phase.isEnding = false) :
      t.phase.isEnding = true := by
    rw [hphase, h] at hs
    cases hs
  cases handled_of_handle h with
  | manager => exact hs
  | tryRecv request =>
    cases request with
    | none => rfl
    | some request => exact hs
  | closed => rfl
  | slept hphase => exact hphase.elim (fun h => hout h rfl) fun h => hout h rfl
  | cancelledAsleep hphase => exact hphase.elim (fun h => hout h rfl) fun h => hout h rfl
  | connectFailed hphase => exact hout hphase rfl
  | connected hphase => exact hout hphase rfl
  | chargerAsleep _ hphase => exact hout hphase rfl
  | charger _ hphase => exact hout hphase rfl
  | central _ hphase => exact hout hphase rfl
  | command _ hphase => exact hout hphase rfl
  | commandTick hphase => exact hout hphase rfl
  | housekeeping hphase => exact hout hphase rfl
  | cancelled hphase => exact hout hphase rfl

/-- The loop does not start again. -/
theorem isEnding_of_step (hs : s.phase.isEnding = true) (hstep : step cx s ev = some t) :
    t.phase.isEnding = true :=
  isEnding_of_handle (s := { s with clock := ev.env.now }) hs (step_eq_some.mp hstep).2

theorem frameMove_of_handle (hstep : s.handle cx ev.env ev.input = some t)
    {inbox inbox' : List CommandRequest}
    (h : FrameStep cx ev.env ev.input inbox inbox' s t) (hreplayed : s.Replayed) :
    FrameMove cx ev s t := by
  have hempty (hphase : s.phase = .forwarding) : s.buffered = [] := by
    simp [buffered, hreplayed hphase]
  cases h with
  | quiet hnone _ hq =>
    rw [← noteAll_nil s ev.env.now] at hq
    exact .none (by simpa using frames_of_quiet hq rfl (by simp)) (buffered_of_quiet hq rfl)
      (lostTexts_of_none hnone)
  | @dropped text _ hinput hphase hq =>
    refine .lost (frames_of_quiet (l := [_]) hq rfl (by simp [Entry.isFrame]))
      (buffered_of_quiet (l := [_]) hq rfl) ?_
    simp [lostTexts, hphase, hinput, Input.chargerText]
  | consumed hinput hphase hparse _ hf _ hq =>
    exact .consumed hf (frames_of_quiet hq rfl (by simp [Entry.isFrame])) (buffered_of_quiet hq rfl)
      (lostTexts_of_parse hinput hphase hparse)
  | forwarded hinput hphase hparse _ _ hq =>
    refine .sent (hempty hphase) (frames_of_quiet hq rfl (by simp [Entry.isFrame])) ?_
      (lostTexts_of_parse hinput hphase hparse)
    exact (buffered_of_quiet hq (MessageForwarder.resolveAction_upstreamBuffer ..)).trans
      (hempty hphase)
  | @buffered text frame hinput hphase hparse _ _ _ hq _ =>
    obtain ⟨hevicted, hkept⟩ := s.forwarder.bufferUpstream_of_empty frame (hreplayed hphase)
    rw [hevicted] at hq
    refine @FrameMove.kept _ _ _ _ text (hempty hphase)
      (frames_of_quiet (s := s) hq rfl (by simp [Entry.isFrame])) ?_
      (lostTexts_of_parse hinput hphase hparse)
    unfold Session.buffered
    rw [hq.upstreamBuffer, noteAll_forwarder, hkept, List.map_singleton,
      OcppFrame.parse_raw hparse]
  | relayed hinput hphase hparse hroom hq =>
    refine .sent (hempty hphase) (frames_of_quiet hq rfl (by simp [Entry.isFrame]))
      ((buffered_of_quiet hq rfl).trans (hempty hphase)) ?_
    rw [lostTexts_of_parse_error hinput hphase hparse, if_neg hroom]
  | lost hinput hphase hparse hroom _ hq =>
    refine .lost (frames_of_quiet (l := [_]) hq rfl (by simp [Entry.isFrame]))
      (buffered_of_quiet (l := [_]) hq rfl) ?_
    rw [lostTexts_of_parse_error hinput hphase hparse, if_pos hroom]
  | delivered hinput hphase _ _ hq =>
    refine .delivered hphase (frames_of_quiet hq rfl (by simp [Entry.isFrame]))
      (buffered_of_quiet hq (MessageForwarder.resolveAction_upstreamBuffer ..)) ?_
    exact lostTexts_of_none (by rw [hinput]; rfl)
  | passed hinput hphase _ _ hq =>
    exact .delivered hphase (frames_of_quiet hq rfl (by simp [Entry.isFrame]))
      (buffered_of_quiet hq rfl) (lostTexts_of_none (by rw [hinput]; rfl))
  | @undelivered text hinput hphase hup _ hq =>
    have hended : t.phase.isEnding = true := by
      rw [hinput] at hstep
      unfold handle at hstep
      rw [hphase] at hstep
      cases hstep
      exact isEnding_of_gone hup _
    exact .undelivered hphase hended
      (frames_of_quiet (l := [_]) hq rfl (by simp [Entry.isFrame]))
      (buffered_of_quiet (l := [_]) hq rfl) (lostTexts_of_none (by rw [hinput]; rfl))
  | swept hinput hphase _ ht =>
    obtain ⟨forwarder, heq, hbuffer, -⟩ := s.housekeepingArm_eq ev.env
    have hstale : s.staleFrames ev.env.now = [] := by simp [staleFrames, hreplayed hphase]
    rw [hstale, List.map_nil, noteAll_nil] at heq
    rw [ht, heq]
    exact .none rfl (by simp [Session.buffered, hbuffer, hreplayed hphase])
      (lostTexts_of_none (by rw [hinput]; rfl))
  | @flushed s' done rest hinput hphase hbefore hbuffer _ hq _ =>
    rw [← noteAll_nil s ev.env.now] at hbefore
    have hframes : s'.frames = s.frames := by simpa using frames_of_quiet hbefore rfl (by simp)
    have hsame : s'.buffered = s.buffered := buffered_of_quiet hbefore rfl
    refine @FrameMove.replayed _ _ _ _ (done.map OcppFrame.raw) ?_ ?_
      (lostTexts_of_none (by rw [hinput]; rfl))
    · have hsent := frames_of_quiet (s := s') hq rfl
        (List.forall_mem_map.mpr fun _ _ => rfl)
      rw [hsent, hframes, List.map_map]
      rfl
    · rw [← hsame]
      unfold Session.buffered
      rw [hbuffer, hq.upstreamBuffer, noteAll_forwarder, List.map_append]

theorem frameMove_of_step (hstep : step cx s ev = some t) (hreplayed : s.Replayed) :
    FrameMove cx ev s t := by
  have h : FrameMove cx ev { s with clock := ev.env.now } t :=
    frameMove_of_handle (step_eq_some.mp hstep).2 (frameStep_of_step hstep []) hreplayed
  cases h with
  | none hframes hbuffered hlost => exact .none hframes hbuffered hlost
  | lost hframes hbuffered hlost => exact .lost hframes hbuffered hlost
  | consumed hflight hframes hbuffered hlost => exact .consumed hflight hframes hbuffered hlost
  | sent hempty hframes hbuffered hlost => exact .sent hempty hframes hbuffered hlost
  | kept hempty hframes hbuffered hlost => exact .kept hempty hframes hbuffered hlost
  | replayed hframes hbuffered hlost => exact .replayed hframes hbuffered hlost
  | delivered hphase hframes hbuffered hlost => exact .delivered hphase hframes hbuffered hlost
  | undelivered hphase hended hframes hbuffered hlost =>
    exact .undelivered hphase hended hframes hbuffered hlost

/-! ## Runs -/

/-- A trace of frames can be read off the log of frames. -/
theorem filterMap_frames {α : Type} {p : Entry → Option α}
    (hp : ∀ e : Entry, e.isFrame = false → p e = none) (s : Session) :
    s.frames.filterMap p = s.trace p := by
  rw [frames, trace, trace, List.filterMap_filterMap]
  congr 1
  funext e
  cases h : e.2.isFrame with
  | true => simp [Entry.frame?, h]
  | false => simp [Entry.frame?, h, hp e.2 h]

/-- What is true of a session's frames, with the texts it has lost. -/
structure FramesKept (s : Session) (lost : List String) : Prop where
  replayed : s.Replayed
  /-- Each text read from the charger met one fate. -/
  fates : (s.frames.filterMap Entry.readCharger?).Perm (s.frames.filterMap Entry.toCentral? ++
    s.frames.filterMap Entry.consumed? ++ s.buffered ++ lost)
  /-- What was sent, and then what still waits, is in the order in which it was read. -/
  upward : (s.frames.filterMap Entry.toCentral? ++ s.buffered).Sublist
    (s.frames.filterMap Entry.readCharger?)
  /-- The charger is handed what is read from the Central System, but perhaps the last of it. -/
  downward : ∃ missed, s.frames.filterMap Entry.readCentral? =
    s.frames.filterMap Entry.toCharger? ++ missed ∧ missed.length ≤ 1 ∧
      (s.phase.isEnding = false → missed = [])
  notEvicted : s.frames.filterMap Entry.evicted? = []

theorem FramesKept.step {lost : List String} (h : s.FramesKept lost)
    (hstep : Session.step cx s ev = some t) : t.FramesKept (lost ++ s.lostTexts cx ev) := by
  have hreplayed : t.Replayed := (frameStep_of_step hstep []).replayed h.replayed
  obtain ⟨missed, hread, hmissed, hnone⟩ := h.downward
  -- nothing is read from the Central System
  have hdown {l : List Entry} (hframes : t.frames = s.frames ++ l)
      (hl : l.filterMap Entry.readCentral? = [] ∧ l.filterMap Entry.toCharger? = []) :
      ∃ missed, t.frames.filterMap Entry.readCentral? =
        t.frames.filterMap Entry.toCharger? ++ missed ∧ missed.length ≤ 1 ∧
          (t.phase.isEnding = false → missed = []) := by
    refine ⟨missed, ?_, hmissed, fun ht => hnone ?_⟩
    · rw [hframes, List.filterMap_append, List.filterMap_append, hl.1, hl.2, List.append_nil,
        List.append_nil, hread]
    · by_contra hs
      rw [isEnding_of_step (by simpa using hs) hstep] at ht
      cases ht
  have hmove := frameMove_of_step hstep h.replayed
  have hfates := h.fates
  have hupward := h.upward
  cases hmove with
  | none hframes hbuffered hlost =>
    rw [hlost, List.append_nil]
    have hdown := hdown (l := []) (by rw [hframes, List.append_nil]) ⟨rfl, rfl⟩
    exact ⟨hreplayed, by rw [hframes, hbuffered]; exact hfates,
      by rw [hframes, hbuffered]; exact hupward, hdown, hframes ▸ h.notEvicted⟩
  | @lost text hframes hbuffered hlost =>
    refine ⟨hreplayed, ?_, ?_, hdown hframes ⟨rfl, rfl⟩, ?_⟩
    · rw [hframes, hbuffered, hlost]
      simpa [List.filterMap_cons, Entry.readCharger?, Entry.toCentral?, Entry.consumed?]
        using hfates.append_right [text]
    · rw [hframes, hbuffered]
      simpa [List.filterMap_cons, Entry.readCharger?, Entry.toCentral?]
        using hupward.trans (List.sublist_append_left _ [text])
    · simpa [hframes, List.filterMap_cons, Entry.evicted?] using h.notEvicted
  | @consumed text f hflight hframes hbuffered hlost =>
    refine ⟨hreplayed, ?_, ?_, hdown hframes ⟨rfl, rfl⟩, ?_⟩
    · rw [hframes, hbuffered, hlost, List.append_nil]
      refine List.perm_iff_count.mpr fun a => ?_
      have hcount := hfates.count_eq a
      simp [List.filterMap_cons, Entry.readCharger?, Entry.toCentral?, Entry.consumed?,
        List.count_append, List.count_cons] at hcount ⊢
      omega
    · rw [hframes, hbuffered]
      simpa [List.filterMap_cons, Entry.readCharger?, Entry.toCentral?]
        using hupward.trans (List.sublist_append_left _ [text])
    · simpa [hframes, List.filterMap_cons, Entry.evicted?] using h.notEvicted
  | @sent text hempty hframes hbuffered hlost =>
    rw [hempty, List.append_nil] at hfates hupward
    refine ⟨hreplayed, ?_, ?_, hdown hframes ⟨rfl, rfl⟩, ?_⟩
    · rw [hframes, hbuffered, hlost, List.append_nil, List.append_nil]
      refine List.perm_iff_count.mpr fun a => ?_
      have hcount := hfates.count_eq a
      simp [List.filterMap_cons, Entry.readCharger?, Entry.toCentral?, Entry.consumed?,
        List.count_append, List.count_cons] at hcount ⊢
      omega
    · rw [hframes, hbuffered]
      simpa [List.filterMap_cons, Entry.readCharger?, Entry.toCentral?]
        using hupward.append (List.Sublist.refl [text])
    · simpa [hframes, List.filterMap_cons, Entry.evicted?] using h.notEvicted
  | @kept text hempty hframes hbuffered hlost =>
    rw [hempty, List.append_nil] at hfates hupward
    refine ⟨hreplayed, ?_, ?_, hdown hframes ⟨rfl, rfl⟩, ?_⟩
    · rw [hframes, hbuffered, hlost, List.append_nil]
      refine List.perm_iff_count.mpr fun a => ?_
      have hcount := hfates.count_eq a
      simp [List.filterMap_cons, Entry.readCharger?, Entry.toCentral?, Entry.consumed?,
        List.count_append, List.count_cons] at hcount ⊢
      omega
    · rw [hframes, hbuffered]
      simpa [List.filterMap_cons, Entry.readCharger?, Entry.toCentral?]
        using hupward.append (List.Sublist.refl [text])
    · simpa [hframes, List.filterMap_cons, Entry.evicted?] using h.notEvicted
  | @replayed done hframes hbuffered hlost =>
    have hread : (s.frames ++ done.map Entry.toCentral).filterMap Entry.readCharger? =
        s.frames.filterMap Entry.readCharger? := by
      simp [List.filterMap_map, Function.comp_def, Entry.readCharger?]
    have hsent : (s.frames ++ done.map Entry.toCentral).filterMap Entry.toCentral? =
        s.frames.filterMap Entry.toCentral? ++ done := by
      simp [List.filterMap_map, Function.comp_def, Entry.toCentral?]
    have hconsumed : (s.frames ++ done.map Entry.toCentral).filterMap Entry.consumed? =
        s.frames.filterMap Entry.consumed? := by
      simp [List.filterMap_map, Function.comp_def, Entry.consumed?]
    refine ⟨hreplayed, ?_, ?_, hdown hframes ⟨by simp [List.filterMap_map, Function.comp_def,
      Entry.readCentral?], by simp [List.filterMap_map, Function.comp_def, Entry.toCharger?]⟩, ?_⟩
    · rw [hframes, hread, hsent, hconsumed, hlost, List.append_nil]
      rw [hbuffered] at hfates
      refine List.perm_iff_count.mpr fun a => ?_
      have hcount := hfates.count_eq a
      simp only [List.count_append] at hcount ⊢
      omega
    · rw [hframes, hread, hsent, List.append_assoc, ← hbuffered]
      exact hupward
    · simpa [hframes, List.filterMap_map, Function.comp_def, Entry.evicted?] using h.notEvicted
  | @delivered text hphase hframes hbuffered hlost =>
    refine ⟨hreplayed, ?_, ?_, ⟨[], ?_, by simp, fun _ => rfl⟩, ?_⟩
    · rw [hframes, hbuffered, hlost, List.append_nil]
      simpa [List.filterMap_cons, Entry.readCharger?, Entry.toCentral?, Entry.consumed?]
        using hfates
    · rw [hframes, hbuffered]
      simpa [List.filterMap_cons, Entry.readCharger?, Entry.toCentral?] using hupward
    · rw [hnone (by rw [hphase]; rfl), List.append_nil] at hread
      rw [hframes]
      simp [List.filterMap_cons, Entry.readCentral?, Entry.toCharger?, hread]
    · simpa [hframes, List.filterMap_cons, Entry.evicted?] using h.notEvicted
  | @undelivered text hphase hended hframes hbuffered hlost =>
    refine ⟨hreplayed, ?_, ?_, ⟨[text], ?_, by simp, fun ht => ?_⟩, ?_⟩
    · rw [hframes, hbuffered, hlost, List.append_nil]
      simpa [List.filterMap_cons, Entry.readCharger?, Entry.toCentral?, Entry.consumed?]
        using hfates
    · rw [hframes, hbuffered]
      simpa [List.filterMap_cons, Entry.readCharger?, Entry.toCentral?] using hupward
    · rw [hnone (by rw [hphase]; rfl), List.append_nil] at hread
      rw [hframes]
      simp [List.filterMap_cons, Entry.readCentral?, Entry.toCharger?, hread]
    · rw [hended] at ht
      cases ht
    · simpa [hframes, List.filterMap_cons, Entry.evicted?] using h.notEvicted

theorem framesKept_start (now : Time) (manager : ConnectionStateManager) :
    (start cx now manager).FramesKept [] := by
  have hframes : (start cx now manager).frames = [] := start_trace cx now manager _ fun _ => rfl
  have hbuffered : (start cx now manager).buffered = [] := by
    rw [buffered, start_forwarder]
    rfl
  refine ⟨start_replayed now manager, ?_, ?_, ⟨[], ?_, by simp, fun _ => rfl⟩, ?_⟩ <;>
    simp [hframes, hbuffered]

/-- The same, read off the log. -/
theorem FramesKept.traces {lost : List String} (h : s.FramesKept lost) :
    (s.trace Entry.readCharger?).Perm (s.trace Entry.toCentral? ++ s.trace Entry.consumed? ++
        s.buffered ++ lost) ∧
      (s.trace Entry.toCentral? ++ s.buffered).Sublist (s.trace Entry.readCharger?) ∧
      (∃ missed, s.trace Entry.readCentral? = s.trace Entry.toCharger? ++ missed ∧
        missed.length ≤ 1 ∧ (s.phase.isEnding = false → missed = [])) ∧
      s.trace Entry.evicted? = [] := by
  have htrace {p : Entry → Option String} (hp : ∀ e : Entry, e.isFrame = false → p e = Option.none) :
      s.frames.filterMap p = s.trace p := filterMap_frames hp s
  have hread := htrace (p := Entry.readCharger?) fun e he => by cases e <;> first | rfl | cases he
  have hsent := htrace (p := Entry.toCentral?) fun e he => by cases e <;> first | rfl | cases he
  have hconsumed := htrace (p := Entry.consumed?) fun e he => by cases e <;> first | rfl | cases he
  have hcentral := htrace (p := Entry.readCentral?) fun e he => by
    cases e <;> first | rfl | cases he
  have hcharger := htrace (p := Entry.toCharger?) fun e he => by cases e <;> first | rfl | cases he
  have hevicted := htrace (p := Entry.evicted?) fun e he => by cases e <;> first | rfl | cases he
  have hfates := h.fates
  have hupward := h.upward
  obtain ⟨missed, hdownward, hmissed⟩ := h.downward
  rw [hread, hsent, hconsumed] at hfates
  rw [hread, hsent] at hupward
  rw [hcentral, hcharger] at hdownward
  exact ⟨hfates, hupward, ⟨missed, hdownward, hmissed⟩, hevicted ▸ h.notEvicted⟩

/-- In every run, whatever it loses, the texts sent to the Central System and then those still
buffered are a subsequence of the texts read from the charger, each of which was sent, consumed as an
answer, is buffered, or was lost by one of the steps that lose texts; and the charger is handed the
texts read from the Central System, all but perhaps the last one of a session that is ending. -/
theorem frames_of_run {now : Time} {manager : ConnectionStateManager} {events : List Event}
    (hrun : (step cx).run (start cx now manager) events = some t) :
    (t.trace Entry.readCharger?).Perm (t.trace Entry.toCentral? ++ t.trace Entry.consumed? ++
        t.buffered ++ (step cx).outputs (lostTexts cx) (start cx now manager) events) ∧
      (t.trace Entry.toCentral? ++ t.buffered).Sublist (t.trace Entry.readCharger?) ∧
      (∃ missed, t.trace Entry.readCentral? = t.trace Entry.toCharger? ++ missed ∧
        missed.length ≤ 1 ∧ (t.phase.isEnding = false → missed = [])) ∧
      t.trace Entry.evicted? = [] := by
  have hkept : t.FramesKept ([] ++ (step cx).outputs (lostTexts cx) (start cx now manager) events) :=
    (step cx).outputs_invariant (T := FramesKept) (fun _ _ _ _ hstep h => h.step hstep) hrun
      (framesKept_start now manager)
  rw [List.nil_append] at hkept
  exact hkept.traces

/-- One heartbeat is lost while the session backs off, the next one is kept for the Central System
through an outage, and the third one is sent. -/
def heartbeatFates : List Event :=
  [.at 1 .connectFailed, .at 2 (.charger (.text heartbeat.1)), .at 4 .connected,
    .upstreamDownAt 5 (.charger (.text heartbeat.1)), .at 8 .timer, .at 9 .connected,
    .at 10 (.charger (.text heartbeat.1))]

theorem frames_of_run_heartbeats : ∃ t, runOfTable commandTable heartbeatFates = some t ∧
    t.trace Entry.readCharger? = List.replicate 3 heartbeat.1 ∧
    t.trace Entry.toCentral? = List.replicate 2 heartbeat.1 ∧
    (t.trace Entry.readCharger?).Perm (t.trace Entry.toCentral? ++ t.trace Entry.consumed? ++
      t.buffered ++ (step (.ofTable commandTable)).outputs (lostTexts (.ofTable commandTable))
        (start (.ofTable commandTable) 0 {}) heartbeatFates) := by
  have hseen : (runOfTable commandTable heartbeatFates).map
      (fun t => (t.trace Entry.readCharger?, t.trace Entry.toCentral?)) =
        some (List.replicate 3 heartbeat.1, List.replicate 2 heartbeat.1) := by
    decide +kernel
  obtain ⟨t, hrun, ht⟩ := Option.map_eq_some_iff.mp hseen
  obtain ⟨hread, hsent⟩ := Prod.mk.inj ht
  exact ⟨t, hrun, hread, hsent, (frames_of_run hrun).1⟩

end

end Session

end OcppProxy

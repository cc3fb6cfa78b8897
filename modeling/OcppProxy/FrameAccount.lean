import OcppProxy.Transparency
import OcppProxy.Library.Ledger

/-!
# What becomes of the charger's frames

Every text read from the charger should be sent upstream, kept as an answer to a proxy Call, evicted
from the upstream buffer, or still wait in it. Two places of the session read a text and do none of
these; a session accounts for its frames exactly as long as neither is reached.
-/

namespace OcppProxy

inductive Fate where
  | sent
  | consumed
  | evicted
  | buffered
  deriving DecidableEq, Repr

instance : Fintype Fate :=
  ⟨{.sent, .consumed, .evicted, .buffered}, fun f => by cases f <;> simp⟩

/-- The entries that settle a text with a fate. -/
def Entry.ofFate : Fate → Entry → Option String
  | .sent => Entry.toCentral?
  | .consumed => Entry.consumed?
  | .evicted => Entry.evicted?
  | .buffered => fun _ => none

namespace Session

section
variable (cx : SessionContext) (s : Session) (ev : Event)

def fates : Fate → List String
  | .sent => s.trace Entry.toCentral?
  | .consumed => s.trace Entry.consumed?
  | .evicted => s.trace Entry.evicted?
  | .buffered => s.forwarder.upstreamBuffer.map OcppFrame.raw

/-- Every text read has one fate, and the texts of each fate are in the order they were read in. -/
def FrameAccount : Prop := Accounts (s.trace Entry.readCharger?) s.fates

/-- A text the session reads and loses: any that comes while it backs off after a failed connect, and
one that is no OCPP message and whose send fails. -/
def lostTexts : List String :=
  match s.phase with
  | .backingOff _ => ev.input.chargerText.toList
  | .forwarding => ev.input.chargerText.toList.filter fun text =>
      ev.env.upstreamRoom = some 0 && !(OcppFrame.readText cx.crates text).isOk
  | _ => []

end

section
variable {cx : SessionContext} {s t : Session} {ev : Event}

theorem readText_isOk_of_parse {now : Time} {text : String} {frame : OcppFrame}
    (h : OcppFrame.parse cx.crates now text = .ok frame) :
    (OcppFrame.readText cx.crates text).isOk = true := by
  rw [(OcppFrame.parse_eq_ok.mp h).1]
  rfl

theorem readText_isOk_of_parse_error {now : Time} {text : String} {e : ProxyError}
    (h : OcppFrame.parse cx.crates now text = .error e) :
    (OcppFrame.readText cx.crates text).isOk = false := by
  unfold OcppFrame.parse at h
  cases hr : OcppFrame.readText cx.crates text with
  | error e => rfl
  | ok header => rw [hr] at h; cases h

def accountedLength (s : Session) : Nat :=
  (s.trace Entry.toCentral?).length + (s.trace Entry.consumed?).length +
    (s.trace Entry.evicted?).length + s.forwarder.upstreamBuffer.length

theorem FrameAccount.length (h : s.FrameAccount) :
    (s.trace Entry.readCharger?).length = s.accountedLength := by
  have hsum := Accounts.length h
  have huniv : (Finset.univ : Finset Fate) = {.sent, .consumed, .evicted, .buffered} := rfl
  simp [huniv, fates, accountedLength] at hsum ⊢
  omega

theorem ofFate_of_not_isFrame (f : Fate) (e : Entry) (h : e.isFrame = false) :
    Entry.ofFate f e = none := by
  cases f <;> cases e <;> first | rfl | cases h

theorem readCharger?_of_not_isFrame (e : Entry) (h : e.isFrame = false) :
    e.readCharger? = none := by
  cases e <;> first | rfl | cases h

/-- The texts read are the settled ones and then the buffered ones. -/
def Ledgered (s : Session) : Prop :=
  ∃ settled, s.trace Entry.readCharger? = settled ++ s.forwarder.upstreamBuffer.map OcppFrame.raw ∧
    Accounts settled fun f => s.trace (Entry.ofFate f)

theorem Ledgered.frameAccount (h : s.Ledgered) : s.FrameAccount := by
  obtain ⟨settled, hread, hsettled⟩ := h
  refine (hsettled.append (.const (s.forwarder.upstreamBuffer.map OcppFrame.raw) .buffered)).congr
    hread.symm fun f => ?_
  cases f <;> simp [Entry.ofFate, fates, trace]

section
variable {u : Session} {now : Time} {inbox inbox' : List CommandRequest}

/-- Entries that read texts and settle them all, while nothing waits in the buffer. -/
theorem Ledgered.append (hs : s.Ledgered) (es : List Entry)
    (hq : Quiet cx now inbox inbox' (u.noteAll now es) t) (hlog : u.log = s.log)
    (hbuffer : u.forwarder.upstreamBuffer = s.forwarder.upstreamBuffer)
    (hempty : s.forwarder.upstreamBuffer = [] ∨ es.filterMap Entry.readCharger? = [])
    (hes : Accounts (es.filterMap Entry.readCharger?) fun f => es.filterMap (Entry.ofFate f)) :
    t.Ledgered := by
  obtain ⟨settled, hread, hsettled⟩ := hs
  refine ⟨settled ++ es.filterMap Entry.readCharger?, ?_, (hsettled.append hes).congr rfl
    fun f => (hq.trace_noteAll hlog (ofFate_of_not_isFrame f)).symm⟩
  rw [hq.trace_noteAll hlog readCharger?_of_not_isFrame, hread, hq.upstreamBuffer,
    noteAll_forwarder, hbuffer]
  rcases hempty with h | h <;> simp [h]

theorem accountedLength_of_quiet (lost : List String) (es : List Entry)
    (hq : Quiet cx now inbox inbox' (u.noteAll now es) t) (hlog : u.log = s.log)
    (hes : (es.filterMap Entry.readCharger?).length + s.forwarder.upstreamBuffer.length =
      (es.filterMap Entry.toCentral?).length + (es.filterMap Entry.consumed?).length +
        (es.filterMap Entry.evicted?).length + u.forwarder.upstreamBuffer.length + lost.length) :
    (t.trace Entry.readCharger?).length + s.accountedLength =
      (s.trace Entry.readCharger?).length + t.accountedLength + lost.length := by
  have hsent : t.trace Entry.toCentral? = _ := hq.trace_noteAll hlog (ofFate_of_not_isFrame .sent)
  have hconsumed : t.trace Entry.consumed? = _ :=
    hq.trace_noteAll hlog (ofFate_of_not_isFrame .consumed)
  have hevicted : t.trace Entry.evicted? = _ :=
    hq.trace_noteAll hlog (ofFate_of_not_isFrame .evicted)
  unfold accountedLength
  rw [hq.trace_noteAll hlog readCharger?_of_not_isFrame, hq.upstreamBuffer, noteAll_forwarder,
    hsent, hconsumed, hevicted]
  simp only [List.length_append]
  omega

end

theorem lostTexts_of_none (h : ev.input.chargerText = none) : s.lostTexts cx ev = [] := by
  unfold lostTexts
  split <;> simp [h]

theorem lostTexts_of_parse {text : String} {frame : OcppFrame}
    (hinput : ev.input = .charger (.text text)) (hphase : s.phase = .forwarding)
    (hparse : OcppFrame.parse cx.crates ev.env.now text = .ok frame) :
    s.lostTexts cx ev = [] := by
  simp [lostTexts, hphase, hinput, Input.chargerText, readText_isOk_of_parse hparse]

theorem lostTexts_of_parse_error {text : String} {e : ProxyError}
    (hinput : ev.input = .charger (.text text)) (hphase : s.phase = .forwarding)
    (hparse : OcppFrame.parse cx.crates ev.env.now text = .error e) :
    s.lostTexts cx ev = if ev.env.upstreamRoom = some 0 then [text] else [] := by
  by_cases hroom : ev.env.upstreamRoom = some 0 <;>
    simp [lostTexts, hphase, hinput, Input.chargerText, readText_isOk_of_parse_error hparse, hroom]

theorem length_staleFrames (s : Session) (now : Time) :
    (s.staleFrames now).length + (s.forwarder.upstreamBuffer.filter
      (s.forwarder.isFresh now)).length = s.forwarder.upstreamBuffer.length := by
  rw [staleFrames, Nat.add_comm]
  exact List.length_eq_length_filter_add (s.forwarder.isFresh now) |>.symm

/-- A step counts every text it reads once, except the lost ones. -/
theorem accountedLength_of_frameStep {inbox inbox' : List CommandRequest}
    (h : FrameStep cx ev.env ev.input inbox inbox' s t) :
    (t.trace Entry.readCharger?).length + s.accountedLength =
      (s.trace Entry.readCharger?).length + t.accountedLength + (s.lostTexts cx ev).length := by
  cases h with
  | quiet hnone _ hq =>
    rw [← noteAll_nil s ev.env.now] at hq
    exact accountedLength_of_quiet (s := s) _ _ hq rfl (by simp [lostTexts_of_none hnone])
  | dropped hinput hphase hq =>
    refine accountedLength_of_quiet (s := s) _ [_] hq rfl ?_
    simp [lostTexts, hphase, hinput, Input.chargerText, List.filterMap_cons, Entry.readCharger?,
      Entry.toCentral?, Entry.consumed?, Entry.evicted?, Nat.add_comm]
  | consumed hinput hphase hparse _ _ _ hq =>
    refine accountedLength_of_quiet (s := s) _ _ hq rfl ?_
    rw [lostTexts_of_parse hinput hphase hparse]
    simp [List.filterMap_cons, Entry.readCharger?, Entry.toCentral?, Entry.consumed?,
      Entry.evicted?, Nat.add_comm]
  | forwarded hinput hphase hparse hours _ hq =>
    refine accountedLength_of_quiet (s := s) _ _ hq rfl ?_
    rw [lostTexts_of_parse hinput hphase hparse]
    simp [List.filterMap_cons, Entry.readCharger?, Entry.toCentral?, Entry.consumed?,
      Entry.evicted?, Nat.add_comm]
  | @buffered text frame hinput hphase hparse hours _ _ hq _ =>
    refine accountedLength_of_quiet (s := s) _ _ hq rfl ?_
    have hpush := congrArg List.length
      (MessageForwarder.pushEvicting_spec frame s.forwarder.maxBufferSize s.forwarder.upstreamBuffer)
    rw [lostTexts_of_parse hinput hphase hparse]
    simp [List.filterMap_cons, Entry.readCharger?, Entry.toCentral?, Entry.consumed?,
      Entry.evicted?, List.filterMap_map, Function.comp_def, MessageForwarder.bufferUpstream]
      at hpush ⊢
    omega
  | relayed hinput hphase hparse hroom hq =>
    refine accountedLength_of_quiet (s := s) _ _ hq rfl ?_
    rw [lostTexts_of_parse_error hinput hphase hparse, if_neg hroom]
    simp [List.filterMap_cons, Entry.readCharger?, Entry.toCentral?, Entry.consumed?,
      Entry.evicted?, Nat.add_comm]
  | lost hinput hphase hparse hroom _ hq =>
    refine accountedLength_of_quiet (s := s) _ [_] hq rfl ?_
    rw [lostTexts_of_parse_error hinput hphase hparse, if_pos hroom]
    simp [List.filterMap_cons, Entry.readCharger?, Entry.toCentral?, Entry.consumed?,
      Entry.evicted?, Nat.add_comm]
  | delivered hinput _ _ _ hq =>
    refine accountedLength_of_quiet (s := s) _ _ hq rfl ?_
    rw [lostTexts_of_none (by rw [hinput]; rfl)]
    simp [List.filterMap_cons, Entry.readCharger?, Entry.toCentral?, Entry.consumed?,
      Entry.evicted?]
  | passed hinput _ _ _ hq =>
    refine accountedLength_of_quiet (s := s) _ _ hq rfl ?_
    rw [lostTexts_of_none (by rw [hinput]; rfl)]
    simp [List.filterMap_cons, Entry.readCharger?, Entry.toCentral?, Entry.consumed?,
      Entry.evicted?]
  | undelivered hinput _ _ _ hq =>
    refine accountedLength_of_quiet (s := s) _ [_] hq rfl ?_
    rw [lostTexts_of_none (by rw [hinput]; rfl)]
    simp [List.filterMap_cons, Entry.readCharger?, Entry.toCentral?, Entry.consumed?,
      Entry.evicted?]
  | swept hinput hphase _ ht =>
    obtain ⟨forwarder, heq, hbuffer, -⟩ := s.housekeepingArm_eq ev.env
    rw [ht, heq]
    refine accountedLength_of_quiet (s := s) (u := { s with forwarder }) _ _
      (@Quiet.refl cx ev.env.now [] _) rfl ?_
    rw [lostTexts_of_none (by rw [hinput]; rfl)]
    have hstale := s.length_staleFrames ev.env.now
    simp [hbuffer, Entry.readCharger?, Entry.toCentral?, Entry.consumed?, Entry.evicted?,
      List.filterMap_map, Function.comp_def] at hstale ⊢
    omega
  | @flushed s' done rest hinput hphase hbefore hbuffer _ hq hcalls =>
    rw [← noteAll_nil s ev.env.now] at hbefore
    have hfirst := accountedLength_of_quiet (s := s) [] _ hbefore rfl (by simp)
    have hsecond := accountedLength_of_quiet (s := s') [] _ hq rfl (by
      simp [hbuffer, Entry.readCharger?, Entry.toCentral?, Entry.consumed?, Entry.evicted?,
        List.filterMap_map, Function.comp_def])
    rw [lostTexts_of_none (by rw [hinput]; rfl)]
    simp only [List.length_nil] at hfirst hsecond ⊢
    omega

/-- A step that loses no text settles what it reads, or keeps it in the buffer. -/
theorem Ledgered.frameStep {inbox inbox' : List CommandRequest}
    (h : FrameStep cx ev.env ev.input inbox inbox' s t) (hlost : s.lostTexts cx ev = [])
    (hreplayed : s.Replayed) (hs : s.Ledgered) : t.Ledgered := by
  cases h with
  | quiet hnone _ hq =>
    rw [← noteAll_nil s ev.env.now] at hq
    exact hs.append _ hq rfl rfl (.inr rfl) .nil
  | dropped hinput hphase hq =>
    simp [lostTexts, hphase, hinput, Input.chargerText] at hlost
  | @consumed text _ _ hinput hphase hparse _ _ _ hq =>
    refine hs.append _ hq rfl rfl (.inl (hreplayed hphase)) ?_
    exact (Accounts.const [text] Fate.consumed).congr rfl fun f => by cases f <;> rfl
  | @forwarded text _ hinput hphase hparse hours _ hq =>
    refine hs.append _ hq rfl (MessageForwarder.resolveAction_upstreamBuffer ..)
      (.inl (hreplayed hphase)) ?_
    exact (Accounts.const [text] Fate.sent).congr rfl fun f => by cases f <;> rfl
  | @buffered text frame hinput hphase hparse hours _ _ hq _ =>
    -- the buffer was empty: nothing is evicted and the frame is all it holds
    obtain ⟨settled, hread, hsettled⟩ := hs
    obtain ⟨hevicted, hkept⟩ :=
      s.forwarder.bufferUpstream_of_empty frame (hreplayed hphase)
    have hraw : frame.raw = text := OcppFrame.parse_raw hparse
    rw [hevicted] at hq
    refine ⟨settled, ?_, hsettled.congr rfl fun f => ?_⟩
    · rw [hq.trace_noteAll (u := s) rfl readCharger?_of_not_isFrame, hq.upstreamBuffer, noteAll_forwarder,
        hkept]
      simp [hread, hreplayed hphase, hraw, Entry.readCharger?]
    · rw [hq.trace_noteAll (u := s) rfl (ofFate_of_not_isFrame f)]
      cases f <;> simp [List.filterMap_cons, Entry.ofFate, Entry.toCentral?,
        Entry.consumed?, Entry.evicted?]
  | @relayed text _ hinput hphase hparse hroom hq =>
    refine hs.append _ hq rfl rfl (.inl (hreplayed hphase)) ?_
    exact (Accounts.const [text] Fate.sent).congr rfl fun f => by cases f <;> rfl
  | lost hinput hphase hparse hroom _ hq =>
    rw [lostTexts_of_parse_error hinput hphase hparse, if_pos hroom] at hlost
    cases hlost
  | delivered hinput _ _ _ hq =>
    refine hs.append _ hq rfl (MessageForwarder.resolveAction_upstreamBuffer ..) (.inr rfl) ?_
    exact Accounts.nil.congr rfl fun f => by cases f <;> rfl
  | passed hinput _ _ _ hq =>
    refine hs.append _ hq rfl rfl (.inr rfl) ?_
    exact Accounts.nil.congr rfl fun f => by cases f <;> rfl
  | undelivered hinput _ _ _ hq =>
    refine hs.append [_] hq rfl rfl (.inr rfl) ?_
    exact Accounts.nil.congr rfl fun f => by cases f <;> rfl
  | swept hinput hphase _ ht =>
    obtain ⟨forwarder, heq, hbuffer, -⟩ := s.housekeepingArm_eq ev.env
    have hstale : s.staleFrames ev.env.now = [] := by simp [staleFrames, hreplayed hphase]
    rw [ht, heq, hstale]
    refine hs.append (u := { s with forwarder }) [] (@Quiet.refl cx ev.env.now [] _) rfl ?_
      (.inr rfl) .nil
    simp [hbuffer, hreplayed hphase]
  | @flushed s' done rest hinput hphase hbefore hbuffer _ hq hcalls =>
    rw [← noteAll_nil s ev.env.now] at hbefore
    obtain ⟨settled, hread, hsettled⟩ := hs.append _ hbefore rfl rfl (.inr rfl) .nil
    refine ⟨settled ++ done.map OcppFrame.raw, ?_,
      (hsettled.append (.const (done.map OcppFrame.raw) .sent)).congr rfl fun f => ?_⟩
    · rw [hq.trace_noteAll (u := s') rfl readCharger?_of_not_isFrame, hq.upstreamBuffer, noteAll_forwarder,
        List.filterMap_eq_nil_iff.mpr (List.forall_mem_map.mpr fun _ _ => rfl), hread, hbuffer]
      simp
    · rw [hq.trace_noteAll (u := s') rfl (ofFate_of_not_isFrame f), List.filterMap_map]
      cases f <;> simp [Entry.ofFate, Entry.toCentral?, Entry.consumed?, Entry.evicted?,
        Function.comp_def]

/-- A session accounts for every frame of the charger if and only if no step of its run reads a
text while it backs off, or fails to send one that is no OCPP message. -/
theorem frameAccount_iff {now : Time} {manager : ConnectionStateManager} {events : List Event}
    (hrun : (step cx).run (start cx now manager) events = some t) :
    t.FrameAccount ↔
      (step cx).Meets (fun s ev => s.lostTexts cx ev = []) (start cx now manager) events := by
  have hread : trace Entry.readCharger? (start cx now manager) = [] :=
    start_trace cx now manager _ fun _ => rfl
  have hfate (f : Fate) : trace (Entry.ofFate f) (start cx now manager) = [] :=
    start_trace cx now manager _ fun _ => by cases f <;> rfl
  have hbuffer : (start cx now manager).forwarder.upstreamBuffer = [] := by
    rw [start_forwarder]
    rfl
  constructor
  · intro h
    have hstep (s : Session) (ev : Event) (s' : Session) (_ : True)
        (hs : step cx s ev = some s') :
        (s'.trace Entry.readCharger?).length + s.accountedLength =
          (s.trace Entry.readCharger?).length + s'.accountedLength + (s.lostTexts cx ev).length :=
      accountedLength_of_frameStep (s := { s with clock := ev.env.now }) (frameStep_of_step hs [])
    -- a text that is lost is read and not accounted for, so the lengths differ by what was lost
    have hlength := (step cx).outputs_length (lostTexts cx) hstep hrun
      ((step cx).meets_true _ _)
    have hstart : (start cx now manager).accountedLength = 0 := by
      rw [accountedLength, hbuffer, show trace Entry.toCentral? _ = [] from hfate .sent,
        show trace Entry.consumed? _ = [] from hfate .consumed,
        show trace Entry.evicted? _ = [] from hfate .evicted]
      rfl
    have hend := h.length
    refine ((step cx).outputs_eq_nil_iff (lostTexts cx) hrun).mp (List.length_eq_zero_iff.mp ?_)
    rw [hstart, hread, hend, List.length_nil] at hlength
    omega
  · intro h
    have hstart : (start cx now manager).Ledgered :=
      ⟨[], by rw [hread, hbuffer]; rfl, Accounts.nil.congr rfl fun f => (hfate f).symm⟩
    -- with nothing lost each step keeps the ledger in the order of reading
    have hkeep (s : Session) (ev : Event) (s' : Session) (hlost : s.lostTexts cx ev = [])
        (hs : step cx s ev = some s') (hkept : s.Replayed ∧ s.Ledgered) :
        s'.Replayed ∧ s'.Ledgered :=
      have hframe := frameStep_of_step hs []
      ⟨hframe.replayed hkept.1, Ledgered.frameStep hframe hlost hkept.1 hkept.2⟩
    exact ((step cx).invariant_of_meets hkeep hrun h ⟨start_replayed now manager, hstart⟩).2
      |>.frameAccount

theorem frameAccount_iff_outage :
    ∃ t, runOfTable commandTable [.at 1 .connected,
        .upstreamDownAt 2 (.charger (.text heartbeat.1)), .at 5 .timer, .at 6 .connected] = some t ∧
      t.FrameAccount := by
  obtain ⟨t, hrun⟩ := Option.isSome_iff_exists.mp (show (runOfTable commandTable
    [.at 1 .connected, .upstreamDownAt 2 (.charger (.text heartbeat.1)), .at 5 .timer,
      .at 6 .connected]).isSome = true by decide +kernel)
  exact ⟨t, hrun, (frameAccount_iff hrun).mpr (by decide +kernel)⟩

/-- A heartbeat that comes while the session backs off is read and gone. -/
theorem not_frameAccount_backingOff :
    ∃ t, runOfTable commandTable [.at 1 .connectFailed, .at 2 (.charger (.text heartbeat.1))] =
      some t ∧ ¬ t.FrameAccount := by
  have hcounts : (runOfTable commandTable
      [.at 1 .connectFailed, .at 2 (.charger (.text heartbeat.1))]).map
      (fun t => decide ((t.trace Entry.readCharger?).length = t.accountedLength)) = some false := by
    decide +kernel
  obtain ⟨t, hrun, ht⟩ := Option.map_eq_some_iff.mp hcounts
  exact ⟨t, hrun, fun h => by simp [h.length] at ht⟩

end

end Session

end OcppProxy

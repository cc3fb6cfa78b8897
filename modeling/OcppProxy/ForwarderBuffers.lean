import OcppProxy.Forwarder
import OcppProxy.Library.Fifo
import OcppProxy.Library.Machine

/-!
# The two buffers of a forwarder

A forwarder under any sequence of operations on its buffers. A flush is given a sink that may fail
at any send; what the sink accepted is read off the calls to it.
-/

namespace OcppProxy

/-! ## A sink that records the calls to it -/

/-- A sink and every `send_raw` made to it, with its outcome. -/
structure Recorder (σ : Type) where
  sink : σ
  sends : List (String × Except ProxyError Unit) := []

instance {σ : Type} [MessageSink σ] : MessageSink (Recorder σ) where
  sendRaw r raw :=
    let (result, sink) := MessageSink.sendRaw r.sink raw
    (result, { sink, sends := r.sends ++ [(raw, result)] })

def acceptedText : String × Except ProxyError Unit → Option String
  | (raw, .ok ()) => some raw
  | (_, .error _) => none

def Recorder.accepted {σ : Type} (r : Recorder σ) : List String := r.sends.filterMap acceptedText

def OcppFrame.delivered (frame : OcppFrame) : String × Except ProxyError Unit := (frame.raw, .ok ())

theorem filterMap_delivered (frames : List OcppFrame) :
    (frames.map OcppFrame.delivered).filterMap acceptedText = frames.map OcppFrame.raw := by
  induction frames with
  | nil => rfl
  | cons frame frames ih => rw [List.map_cons, List.map_cons, ← ih]; rfl

namespace MessageForwarder

section
variable {σ : Type} [MessageSink σ]

/-- A recorder changes nothing for the forwarder or the sink. -/
theorem flush_recorder (buffer : List OcppFrame) (r : Recorder σ) :
    (flush buffer r).1 = (flush buffer r.sink).1 ∧
      (flush buffer r).2.1 = (flush buffer r.sink).2.1 ∧
      (flush buffer r).2.2.sink = (flush buffer r.sink).2.2 := by
  induction buffer generalizing r with
  | nil => exact ⟨rfl, rfl, rfl⟩
  | cons frame buffer ih =>
    simp only [flush, MessageSink.sendRaw]
    generalize MessageSink.sendRaw r.sink frame.raw = reply
    obtain ⟨result, sink⟩ := reply
    cases result with
    | error e => exact ⟨rfl, rfl, rfl⟩
    | ok _ => exact ih _

/-- A flush sends the whole buffer, or stops at the frame whose send fails and keeps it in front. -/
theorem flush_cases (buffer : List OcppFrame) (r : Recorder σ) :
    ((flush buffer r).1 = .ok () ∧ (flush buffer r).2.1 = [] ∧
      (flush buffer r).2.2.sends = r.sends ++ buffer.map OcppFrame.delivered) ∨
    ∃ e done frame rest, buffer = done ++ frame :: rest ∧ (flush buffer r).1 = .error e ∧
      (flush buffer r).2.1 = frame :: rest ∧ (flush buffer r).2.2.sends =
        r.sends ++ done.map OcppFrame.delivered ++ [(frame.raw, .error e)] := by
  induction buffer generalizing r with
  | nil => exact .inl ⟨rfl, rfl, by simp [flush]⟩
  | cons frame buffer ih =>
    simp only [flush, MessageSink.sendRaw]
    generalize MessageSink.sendRaw r.sink frame.raw = reply
    obtain ⟨result, sink⟩ := reply
    cases result with
    | error e => exact .inr ⟨e, [], frame, buffer, rfl, rfl, rfl, by simp⟩
    | ok _ =>
      -- the sends of the rest of the loop come after this one
      rcases ih { sink, sends := r.sends ++ [(frame.raw, .ok ())] } with
        ⟨hresult, hrest, hsends⟩ | ⟨e, done, g, rest, hbuffer, hresult, hrest, hsends⟩
      · refine .inl ⟨hresult, hrest, hsends.trans ?_⟩
        simp [OcppFrame.delivered]
      · refine .inr ⟨e, frame :: done, g, rest, by simp [hbuffer], hresult, hrest, hsends.trans ?_⟩
        simp [OcppFrame.delivered]

/-- What a sink accepts is the front of the buffer; the rest stays. -/
theorem flush_accepted (buffer : List OcppFrame) (sink : σ) : ∃ front, buffer =
      front ++ (flush buffer sink).2.1 ∧
    front.map OcppFrame.raw = (flush buffer ({ sink } : Recorder σ)).2.2.accepted := by
  obtain ⟨-, hbuffer, -⟩ := flush_recorder buffer ({ sink } : Recorder σ)
  rw [← hbuffer]
  rcases flush_cases buffer ({ sink } : Recorder σ) with
    ⟨-, hrest, hsends⟩ | ⟨e, done, frame, rest, hfront, -, hrest, hsends⟩
  · refine ⟨buffer, by simp [hrest], ?_⟩
    rw [Recorder.accepted, hsends, List.nil_append, filterMap_delivered]
  · refine ⟨done, by rw [hrest, hfront], ?_⟩
    rw [Recorder.accepted, hsends, List.nil_append, List.filterMap_append, filterMap_delivered]
    exact (List.append_nil _).symm

end

/-! ## The operations -/

def bufferOf (f : MessageForwarder) : Direction → List OcppFrame
  | .chargerToCentral => f.upstreamBuffer
  | .centralToCharger => f.downstreamBuffer

def bufferIn (f : MessageForwarder) (direction : Direction) (frame : OcppFrame) :
    MessageForwarder :=
  match direction with
  | .chargerToCentral => (f.bufferUpstream frame).2
  | .centralToCharger => (f.bufferDownstream frame).2

def flushIn {σ : Type} [MessageSink σ] (f : MessageForwarder) (direction : Direction) (sink : σ) :
    Except ProxyError Nat × MessageForwarder × σ :=
  match direction with
  | .chargerToCentral => f.flushUpstream sink
  | .centralToCharger => f.flushDownstream sink

inductive BufferOp (σ : Type) where
  | buffer (direction : Direction) (frame : OcppFrame)
  | flush (direction : Direction) (sink : σ)
  | evictExpired (now : Time)
  | discardDownstream

namespace BufferOp

variable {σ : Type} [MessageSink σ]

def concerns (direction : Direction) : BufferOp σ → Bool
  | buffer d _ | flush d _ => d = direction
  | evictExpired _ => true
  | discardDownstream => direction = .centralToCharger

def joins (direction : Direction) : BufferOp σ → List OcppFrame
  | buffer d frame => if d = direction then [frame] else []
  | _ => []

end BufferOp

section
variable {σ : Type} [MessageSink σ]

def operate : Machine MessageForwarder (BufferOp σ) := fun f op =>
  match op with
  | .buffer direction frame => some (f.bufferIn direction frame)
  | .flush direction sink => some (f.flushIn direction sink).2.1
  | .evictExpired now => some (f.evictExpiredMessages now).2
  | .discardDownstream => some f.discardDownstreamBuffer

def sends (direction : Direction) (f : MessageForwarder) : BufferOp σ → List String
  | .flush d sink =>
    if d = direction then (f.flushIn d ({ sink } : Recorder σ)).2.2.accepted else []
  | _ => []

end

/-! ## One operation -/

section
variable {σ : Type} [MessageSink σ] {f g : MessageForwarder} {direction other : Direction}

theorem pushEvicting_eq (maxBufferSize : Nat) (buffer : List OcppFrame) (frame : OcppFrame) :
    (pushEvicting maxBufferSize buffer frame).2 = Fifo.pushBounded maxBufferSize buffer frame := by
  unfold pushEvicting Fifo.pushBounded
  by_cases hfull : maxBufferSize ≤ buffer.length
  · simp [hfull]
  · simp [hfull]

theorem bufferIn_bufferOf (f : MessageForwarder) (direction : Direction) (frame : OcppFrame) :
    (f.bufferIn direction frame).bufferOf direction =
      Fifo.pushBounded f.maxBufferSize (f.bufferOf direction) frame := by
  cases direction with
  | chargerToCentral => exact pushEvicting_eq f.maxBufferSize f.upstreamBuffer frame
  | centralToCharger => exact pushEvicting_eq f.maxBufferSize f.downstreamBuffer frame

theorem flushIn_eq (f : MessageForwarder) (direction : Direction) (sink : σ) :
    (f.flushIn direction sink).1 =
        (flush (f.bufferOf direction) sink).1.map (fun () => (f.bufferOf direction).length) ∧
      (f.flushIn direction sink).2.1.bufferOf direction =
        (flush (f.bufferOf direction) sink).2.1 ∧
      (f.flushIn direction sink).2.2 = (flush (f.bufferOf direction) sink).2.2 := by
  cases direction <;> exact ⟨rfl, rfl, rfl⟩

theorem evictExpired_bufferOf (f : MessageForwarder) (direction : Direction) (now : Time) :
    (f.evictExpiredMessages now).2.bufferOf direction =
      (f.bufferOf direction).filter (f.isFresh now) := by
  cases direction <;> rfl

/-- The limits of a forwarder are not an operation's to change. -/
theorem limits_of_operate {op : BufferOp σ} (h : operate f op = some g) :
    g.maxBufferSize = f.maxBufferSize ∧ g.maxBufferDuration = f.maxBufferDuration := by
  cases op with
  | buffer d frame =>
    obtain rfl : f.bufferIn d frame = g := by simpa [operate] using h
    cases d <;> exact ⟨rfl, rfl⟩
  | flush d sink =>
    obtain rfl : (f.flushIn d sink).2.1 = g := by simpa [operate] using h
    cases d <;> exact ⟨rfl, rfl⟩
  | evictExpired now =>
    obtain rfl : (f.evictExpiredMessages now).2 = g := by simpa [operate] using h
    exact ⟨rfl, rfl⟩
  | discardDownstream =>
    obtain rfl : f.discardDownstreamBuffer = g := by simpa [operate] using h
    exact ⟨rfl, rfl⟩

/-- An operation on one direction does not touch the other. -/
theorem bufferOf_of_operate {op : BufferOp σ} (h : operate f op = some g)
    (hother : op.concerns direction = false) : g.bufferOf direction = f.bufferOf direction := by
  cases op with
  | buffer d frame =>
    obtain rfl : f.bufferIn d frame = g := by simpa [operate] using h
    cases d <;> cases direction <;> first | rfl | simp [BufferOp.concerns] at hother
  | flush d sink =>
    obtain rfl : (f.flushIn d sink).2.1 = g := by simpa [operate] using h
    cases d <;> cases direction <;> first | rfl | simp [BufferOp.concerns] at hother
  | evictExpired now => simp [BufferOp.concerns] at hother
  | discardDownstream =>
    obtain rfl : f.discardDownstreamBuffer = g := by simpa [operate] using h
    cases direction with
    | chargerToCentral => rfl
    | centralToCharger => simp [BufferOp.concerns] at hother

/-- What an operation's sink accepts comes off the front of the buffer; what stays is in order, and
a frame that joins comes last. -/
theorem inOrder_of_operate {op : BufferOp σ} (h : operate f op = some g)
    {delivered joined : List OcppFrame}
    (hf : Fifo.InOrder delivered (f.bufferOf direction) joined) :
    ∃ frames, frames.map OcppFrame.raw = f.sends direction op ∧
      Fifo.InOrder (delivered ++ frames) (g.bufferOf direction) (joined ++ op.joins direction) := by
  by_cases hother : op.concerns direction = false
  · have hsame := bufferOf_of_operate h hother
    refine ⟨[], ?_, ?_⟩
    · cases op <;> simp_all [BufferOp.concerns, sends]
    · have hjoins : op.joins direction = [] := by cases op <;> simp_all [BufferOp.concerns,
        BufferOp.joins]
      rwa [hsame, hjoins, List.append_nil, List.append_nil]
  · cases op with
    | buffer d frame =>
      obtain rfl : d = direction := by simpa [BufferOp.concerns] using hother
      obtain rfl : f.bufferIn d frame = g := by simpa [operate] using h
      refine ⟨[], by simp [sends], ?_⟩
      rw [bufferIn_bufferOf, List.append_nil]
      simpa [BufferOp.joins] using hf.push f.maxBufferSize frame
    | flush d sink =>
      obtain rfl : d = direction := by simpa [BufferOp.concerns] using hother
      obtain rfl : (f.flushIn d sink).2.1 = g := by simpa [operate] using h
      obtain ⟨frames, hbuffer, haccepted⟩ := flush_accepted (f.bufferOf d) sink
      refine ⟨frames, ?_, ?_⟩
      · rw [sends, if_pos rfl, (flushIn_eq f d ({ sink } : Recorder σ)).2.2, haccepted]
      · rw [(flushIn_eq f d sink).2.1]
        change Fifo.InOrder _ _ (joined ++ [])
        rw [List.append_nil]
        exact hf.deliver hbuffer
    | evictExpired now =>
      obtain rfl : (f.evictExpiredMessages now).2 = g := by simpa [operate] using h
      refine ⟨[], rfl, ?_⟩
      change Fifo.InOrder _ _ (joined ++ [])
      rw [evictExpired_bufferOf, List.append_nil, List.append_nil]
      exact hf.shed List.filter_sublist
    | discardDownstream =>
      obtain rfl : f.discardDownstreamBuffer = g := by simpa [operate] using h
      obtain rfl : direction = .centralToCharger := by simpa [BufferOp.concerns] using hother
      refine ⟨[], rfl, ?_⟩
      change Fifo.InOrder _ [] (joined ++ [])
      rw [List.append_nil, List.append_nil]
      exact hf.shed (List.nil_sublist _)

/-- Over a run: what the sinks accepted and then what waits are the frames that joined, in order. -/
theorem inOrder_of_run {ops : List (BufferOp σ)} (hrun : operate.run f ops = some g)
    {delivered joined : List OcppFrame}
    (hf : Fifo.InOrder delivered (f.bufferOf direction) joined) :
    ∃ frames, frames.map OcppFrame.raw = operate.outputs (sends direction) f ops ∧
      Fifo.InOrder (delivered ++ frames) (g.bufferOf direction)
        (joined ++ ops.flatMap (BufferOp.joins direction)) := by
  induction ops generalizing f delivered joined with
  | nil =>
    obtain rfl : f = g := by simpa using hrun
    refine ⟨[], rfl, ?_⟩
    simpa using hf
  | cons op ops ih =>
    obtain ⟨f', hop, hrest⟩ := (operate.run_cons f g op ops).mp hrun
    obtain ⟨front, hfront, hf'⟩ := inOrder_of_operate hop hf
    obtain ⟨frames, hframes, hg⟩ := ih hrest hf'
    refine ⟨front ++ frames, ?_, ?_⟩
    · rw [Machine.outputs_cons hop, List.map_append, hfront, hframes]
    · rwa [List.flatMap_cons, ← List.append_assoc, ← List.append_assoc]

/-- Bufferings into an empty buffer, one after the other. -/
theorem foldl_bufferIn (frames : List OcppFrame) (f : MessageForwarder) (direction : Direction) :
    (frames.foldl (fun f frame => f.bufferIn direction frame) f).bufferOf direction =
      frames.foldl (Fifo.pushBounded f.maxBufferSize) (f.bufferOf direction) := by
  induction frames generalizing f with
  | nil => rfl
  | cons frame frames ih =>
    have hsize : (f.bufferIn direction frame).maxBufferSize = f.maxBufferSize := by
      cases direction <;> rfl
    rw [List.foldl_cons, List.foldl_cons, ih, hsize, bufferIn_bufferOf]

end

/-! ## What the buffers promise -/

section
variable (direction : Direction) (f : MessageForwarder)

/-- The sinks' texts are those of frames which, followed by the waiting ones, are a subsequence of
the frames buffered; where these are distinct, none of them occurs twice. -/
def DeliversInOrder {σ : Type} [MessageSink σ] (f' : MessageForwarder) (ops : List (BufferOp σ)) :
    Prop :=
  ∃ frames, frames.map OcppFrame.raw = operate.outputs (sends direction) f ops ∧
    Fifo.InOrder frames (f'.bufferOf direction) (ops.flatMap (BufferOp.joins direction)) ∧
    ((ops.flatMap (BufferOp.joins direction)).Nodup → (frames ++ f'.bufferOf direction).Nodup)

/-- A flush that succeeds has sent the whole buffer, empties it and returns how many that were. One
that fails has sent the frames before the one whose send failed; that one is now in front. -/
def FlushesFront (σ : Type) [MessageSink σ] : Prop :=
  ∀ sink : σ, match f.flushIn direction ({ sink } : Recorder σ) with
    | (.ok n, f', r) => f'.bufferOf direction = [] ∧ n = (f.bufferOf direction).length ∧
        r.sends = (f.bufferOf direction).map OcppFrame.delivered
    | (.error e, f', r) => ∃ done frame rest, f.bufferOf direction = done ++ frame :: rest ∧
        f'.bufferOf direction = frame :: rest ∧
        r.sends = done.map OcppFrame.delivered ++ [(frame.raw, .error e)]

/-- Bufferings into an empty buffer leave the newest frames, at least one. -/
def KeepsNewest (maxBufferSize : Nat) : Prop :=
  f.bufferOf direction = [] → ∀ frames : List OcppFrame,
    let f' := frames.foldl (fun f frame => f.bufferIn direction frame) f
    (f'.bufferOf direction).IsSuffix frames ∧
      (f'.bufferOf direction).length = min frames.length (max maxBufferSize 1)

def EvictsOlder (maxBufferDuration : Duration) : Prop :=
  ∀ now : Time, (f.evictExpiredMessages now).2.bufferOf direction =
    (f.bufferOf direction).filter fun frame =>
      !decide ((maxBufferDuration : Int) < now - frame.receivedAt)

/-- An operation that is not on a direction leaves its buffer as it is. -/
def KeepsApart (σ : Type) [MessageSink σ] : Prop :=
  ∀ (op : BufferOp σ) (f' : MessageForwarder), op.concerns direction = false →
    operate f op = some f' → f'.bufferOf direction = f.bufferOf direction

variable {direction f}

theorem flushesFront {σ : Type} [MessageSink σ] : f.FlushesFront direction σ := by
  intro sink
  obtain ⟨hresult, hbuffer, hsink⟩ := flushIn_eq f direction ({ sink } : Recorder σ)
  rcases hflush : f.flushIn direction ({ sink } : Recorder σ) with ⟨result, f', r⟩
  rw [hflush] at hresult hbuffer hsink
  dsimp only at hresult hbuffer hsink
  rcases flush_cases (f.bufferOf direction) ({ sink } : Recorder σ) with
    ⟨hok, hrest, hsends⟩ | ⟨e, done, frame, rest, hfront, herror, hrest, hsends⟩
  · rw [hok] at hresult
    obtain rfl : result = .ok (f.bufferOf direction).length := hresult
    exact ⟨by rw [hbuffer, hrest], rfl, by rw [hsink, hsends, List.nil_append]⟩
  · rw [herror] at hresult
    obtain rfl : result = .error e := hresult
    exact ⟨done, frame, rest, hfront, by rw [hbuffer, hrest], by
      rw [hsink, hsends, List.nil_append]⟩

theorem keepsNewest : f.KeepsNewest direction f.maxBufferSize := by
  intro hempty frames
  dsimp only
  rw [foldl_bufferIn, hempty]
  refine ⟨?_, Fifo.length_foldl_pushBounded f.maxBufferSize frames⟩
  rw [Fifo.foldl_pushBounded]
  exact List.drop_suffix _ frames

theorem evictsOlder : f.EvictsOlder direction f.maxBufferDuration := by
  intro now
  rw [evictExpired_bufferOf]
  refine List.filter_congr fun frame _ => ?_
  rw [isFresh, ← decide_not, decide_eq_decide, not_lt]
  exact sub_le_comm

end

/-- Every sequence of operations runs. -/
theorem exists_run {σ : Type} [MessageSink σ] (ops : List (BufferOp σ)) (f : MessageForwarder) :
    ∃ f', operate.run f ops = some f' := by
  induction ops generalizing f with
  | nil => exact ⟨f, rfl⟩
  | cons op ops ih =>
    obtain ⟨f', hop⟩ : ∃ f', operate f op = some f' := by cases op <;> exact ⟨_, rfl⟩
    obtain ⟨f'', hrest⟩ := ih f'
    exact ⟨f'', (operate.run_cons f f'' op ops).mpr ⟨f', hop, hrest⟩⟩

/-- Whatever is done to the buffers of a forwarder, each delivers in order, each frame at most once,
and keeps the newest. -/
theorem buffers_deliver_in_order {σ : Type} [MessageSink σ] (maxBufferSize : Nat)
    (maxBufferDuration callTrackerMaxAge : Duration) (chargePointId : String)
    (ops : List (BufferOp σ)) :
    let start := withChargePointId maxBufferSize maxBufferDuration callTrackerMaxAge chargePointId
    ∃ f, operate.run start ops = some f ∧ ∀ direction,
      start.DeliversInOrder direction f ops ∧ f.FlushesFront direction σ ∧
      f.KeepsNewest direction maxBufferSize ∧ f.EvictsOlder direction maxBufferDuration ∧
      f.KeepsApart direction σ := by
  intro start
  obtain ⟨f, hrun⟩ := exists_run ops start
  have hlimits : f.maxBufferSize = maxBufferSize ∧ f.maxBufferDuration = maxBufferDuration := by
    refine operate.invariant (P := fun g => g.maxBufferSize = maxBufferSize ∧
      g.maxBufferDuration = maxBufferDuration) ?_ hrun ⟨rfl, rfl⟩
    intro g op g' hop hg
    have hsame := limits_of_operate hop
    exact ⟨hsame.1.trans hg.1, hsame.2.trans hg.2⟩
  refine ⟨f, hrun, fun direction => ⟨?_, flushesFront, ?_, ?_, ?_⟩⟩
  · have hempty : Fifo.InOrder ([] : List OcppFrame) (start.bufferOf direction) [] := by
      cases direction <;> exact Fifo.InOrder.empty
    -- order and uniqueness are those of the queue that both directions follow
    obtain ⟨frames, hsent, horder⟩ := inOrder_of_run hrun hempty
    rw [List.nil_append, List.nil_append] at horder
    exact ⟨frames, hsent, horder, fun hjoined => horder.nodup hjoined⟩
  · exact hlimits.1 ▸ keepsNewest
  · exact hlimits.2 ▸ evictsOlder
  · intro op f' hother hop
    exact bufferOf_of_operate hop hother

/-- Three frames into a buffer of two, a sink that takes one text, then one that takes all: the
oldest frame gives way, and the one whose send failed is sent by the second flush. -/
example :
    let frame (id : String) (second : Nat) : OcppFrame :=
      { raw := id, messageType := .callResult, uniqueId := id
        receivedAt := Duration.fromSecs second }
    let sink (room : Option Nat) : WireSink := { room, failure := .forwarding "down" }
    operate.outputs (sends .chargerToCentral) (withChargePointId 2 0 0 "CP01")
      [.buffer .chargerToCentral (frame "a" 1), .buffer .chargerToCentral (frame "b" 2),
        .buffer .chargerToCentral (frame "c" 3), .flush .chargerToCentral (sink (some 1)),
        .discardDownstream, .flush .chargerToCentral (sink none)] = ["b", "c"] := by
  decide +kernel

end MessageForwarder

end OcppProxy

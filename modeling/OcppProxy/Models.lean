import OcppProxy.Values

namespace OcppProxy

inductive ProxyError where
  | connectionUpstream (description : String)
  | forwarding (description : String)
  | protocol (description : String)
  deriving DecidableEq, Repr

inductive OcppMessageType where
  | call (action : String)
  | callResult
  | callError
  deriving DecidableEq, Repr

def OcppMessageType.isCall : OcppMessageType → Bool
  | call _ => true
  | _ => false

inductive Direction where
  | chargerToCentral
  | centralToCharger
  deriving DecidableEq, Repr

inductive ConnectionState where
  | disconnected
  | connecting
  | connected
  | reconnecting
  deriving DecidableEq, Repr

inductive ConnectionId where
  | upstream
  | downstream
  | mqtt
  deriving DecidableEq, Repr

/-! ## Frames -/

/-- Raw OCPP message frame, preserved byte for byte. -/
structure OcppFrame where
  raw : String
  messageType : OcppMessageType
  uniqueId : String
  receivedAt : Time
  deriving DecidableEq, Repr

namespace OcppFrame

def messageTypeOf (typeId : UInt64) (items : List Json) : Except ProxyError OcppMessageType :=
  match typeId.toNat with
  | 2 =>
    if items.length < 4 then
      .error (.protocol "Call message must have at least 4 elements")
    else match (items[2]?).bind Json.asStr with
      | none => .error (.protocol "Third element of Call message must be a string (Action)")
      | some action => .ok (.call action)
  | 3 => .ok .callResult
  | 4 => .ok .callError
  | other => .error (.protocol
      s!"Unknown OCPP message type: {other}. Expected 2 (Call), 3 (CallResult), or 4 (CallError)")

def readValue (parsed : Json) : Except ProxyError (OcppMessageType × String) :=
  match parsed.asArray with
  | none => .error (.protocol "OCPP message must be a JSON array")
  | some items =>
    if items.length < 3 then
      .error (.protocol
        s!"OCPP message array must have at least 3 elements, got {items.length}")
    else match (items[0]?).bind Json.asU64 with
      | none => .error (.protocol
          "First element of OCPP message must be a message type integer")
      | some typeId => match (items[1]?).bind Json.asStr with
        | none => .error (.protocol
            "Second element of OCPP message must be a string (UniqueId)")
        | some uniqueId => (messageTypeOf typeId items).map fun t => (t, uniqueId)

def readText (crates : Crates) (raw : String) : Except ProxyError (OcppMessageType × String) :=
  match crates.fromStr raw with
  | .error e => .error (.protocol s!"Invalid JSON: {e}")
  | .ok parsed => readValue parsed

def parse (crates : Crates) (now : Time) (raw : String) : Except ProxyError OcppFrame :=
  (readText crates raw).map fun header =>
    { raw, messageType := header.1, uniqueId := header.2, receivedAt := now }

variable {crates : Crates} {now : Time} {raw : String} {frame : OcppFrame}

theorem parse_eq_ok : parse crates now raw = .ok frame ↔
    readText crates raw = .ok (frame.messageType, frame.uniqueId) ∧
      frame.raw = raw ∧ frame.receivedAt = now := by
  rcases frame with ⟨r, t, u, n⟩
  unfold parse
  cases readText crates raw with
  | error e => simp [Except.map]
  | ok header =>
    obtain ⟨t', u'⟩ := header
    simp only [Except.map, Except.ok.injEq, mk.injEq, Prod.mk.injEq]
    tauto

theorem parse_raw (h : parse crates now raw = .ok frame) : frame.raw = raw :=
  (parse_eq_ok.mp h).2.1

def responseId (crates : Crates) (raw : String) : Option String :=
  match readText crates raw with
  | .ok (messageType, uniqueId) => if messageType.isCall then none else some uniqueId
  | .error _ => none

def callId (crates : Crates) (raw : String) : Option String :=
  match readText crates raw with
  | .ok (messageType, uniqueId) => if messageType.isCall then some uniqueId else none
  | .error _ => none

theorem responseId_of_parse (h : parse crates now raw = .ok frame) :
    responseId crates raw = if frame.messageType.isCall then none else some frame.uniqueId := by
  simp only [responseId, (parse_eq_ok.mp h).1]

theorem callId_of_parse (h : parse crates now raw = .ok frame) :
    callId crates raw = if frame.messageType.isCall then some frame.uniqueId else none := by
  simp only [callId, (parse_eq_ok.mp h).1]

theorem responseId_of_parse_error {e : ProxyError} (h : parse crates now raw = .error e) :
    responseId crates raw = none := by
  unfold parse at h
  cases hr : readText crates raw with
  | error e => simp [responseId, hr]
  | ok header => rw [hr] at h; cases h

theorem callId_of_parse_error {e : ProxyError} (h : parse crates now raw = .error e) :
    callId crates raw = none := by
  unfold parse at h
  cases hr : readText crates raw with
  | error e => simp [callId, hr]
  | ok header => rw [hr] at h; cases h

end OcppFrame

/-! ## Backoff -/

structure ExponentialBackoff where
  initial : Duration
  max : Duration
  current : Duration
  multiplier : ℚ
  deriving DecidableEq, Repr

namespace ExponentialBackoff

def new (initial max : Duration) (multiplier : ℚ) : ExponentialBackoff :=
  { initial, max, current := initial, multiplier }

def withDefaults (initial max : Duration) : ExponentialBackoff := new initial max 2

/-- The delay `min(current, max)`, and the backoff advanced to the next one. The seconds of a
`Duration` round to the nearest nanosecond. -/
def nextDelay (b : ExponentialBackoff) : Duration × ExponentialBackoff :=
  let delay := min b.current b.max
  let next : ℚ := min (b.current * b.multiplier) b.max
  (delay, { b with current := ⌊next + 1 / 2⌋.toNat })

def reset (b : ExponentialBackoff) : ExponentialBackoff := { b with current := b.initial }

end ExponentialBackoff

end OcppProxy

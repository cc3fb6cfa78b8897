import OcppProxy.Command

/-!
# Command topics and payloads

What arrives from MQTT, read into requests. A number of amps in a text is read exactly; rounding to
the nearest `f64` is left out, except that a value past the largest one is infinite.
-/

namespace OcppProxy

def topicSegments (topic : String) : List String := (topic.toList.splitOn '/').map String.ofList

def parseCommandTopic (topic : String) : Option (String × CommandTopic) :=
  match topicSegments topic with
  | ["ocpp", chargePointId, "command"] =>
    if chargePointId = "" then none else some (chargePointId, .command)
  | ["ocpp", chargePointId, "command", "current_limit"] =>
    if chargePointId = "" then none else some (chargePointId, .currentLimit)
  | _ => none

/-! ## Texts -/

def isWhiteSpace (c : Char) : Bool :=
  let n := c.toNat
  (0x9 ≤ n && n ≤ 0xD) || (0x2000 ≤ n && n ≤ 0x200A) ||
    [0x20, 0x85, 0xA0, 0x1680, 0x2028, 0x2029, 0x202F, 0x205F, 0x3000].contains n

def trim (text : String) : String :=
  .ofList ((text.toList.dropWhile isWhiteSpace).reverse.dropWhile isWhiteSpace).reverse

def toAsciiLowercase (text : String) : String := .ofList (text.toList.map Char.toLower)

namespace F64

def ofDigits (digits : List Char) : Nat :=
  digits.foldl (fun n c => n * 10 + (c.toNat - '0'.toNat)) 0

/-- Whether a text starts with a minus sign, and what follows the sign. -/
def readSign : List Char → Bool × List Char
  | '-' :: cs => (true, cs)
  | '+' :: cs => (false, cs)
  | cs => (false, cs)

def readExponent : List Char → Option Int
  | [] => some 0
  | c :: cs =>
    let (negative, digits) := readSign cs
    if (c = 'e' ∨ c = 'E') ∧ digits ≠ [] ∧ digits.all Char.isDigit then
      some (if negative then -ofDigits digits else ofDigits digits)
    else none

def readNumber (cs : List Char) : Option ℚ :=
  let (whole, rest) := cs.span Char.isDigit
  let (fraction, rest) := match rest with
    | '.' :: rest => rest.span Char.isDigit
    | rest => ([], rest)
  if whole = [] ∧ fraction = [] then none
  else (readExponent rest).map fun e =>
    (ofDigits (whole ++ fraction) : ℚ) * 10 ^ (e - (fraction.length : Int))

/-- What is no `f64` any more is infinite. -/
def ofExact (q : ℚ) : F64 :=
  if 2 ^ 1024 - 2 ^ 970 ≤ |q| then infinite (decide (q < 0)) else finite q

/-- `str::parse::<f64>`. -/
def parse (text : String) : Option F64 :=
  let (negative, cs) := readSign text.toList
  match toAsciiLowercase (.ofList cs) with
  | "inf" | "infinity" => some (infinite negative)
  | "nan" => some nan
  | _ => (readNumber cs).map fun q => ofExact (if negative then -q else q)

end F64

/-! ## Payloads -/

namespace Json

def asF64 : Json → Option F64
  | number (.posInt n) => some (.finite n.toNat)
  | number (.negInt n) => some (.finite n.toInt)
  | number (.float x) => some (.finite x)
  | _ => none

def asU32 (value : Json) : Option Nat :=
  (value.asU64.map UInt64.toNat).filter (· < 2 ^ 32)

end Json

namespace ProxyCommand

/-- An `Option<u32>` field: absent and `null` are both `None`; `none` is an error. -/
def optionalU32 (value : Json) (key : String) : Option (Option Nat) :=
  match value.get key with
  | none | some .null => some none
  | some field => field.asU32.map some

/-- `serde_json::from_value` into the tagged enum. -/
def fromValue (value : Json) : Option ProxyCommand :=
  let text (key : String) : Option String := (value.get key).bind Json.asStr
  match text "command" with
  | some "set_current_limit" => ((value.get "limit_a").bind Json.asF64).map setCurrentLimit
  | some "clear_current_limit" => some clearCurrentLimit
  | some "get_configuration" =>
    match value.get "keys" with
    | none => some (getConfiguration [])
    | some keys => (keys.asArray.bind fun items => items.mapM Json.asStr).map getConfiguration
  | some "change_configuration" => do
    return changeConfiguration (← text "key") (← text "value")
  | some "trigger_message" => do
    return triggerMessage (← text "requested_message") (← optionalU32 value "connector_id")
  | some "get_composite_schedule" => do
    let connectorId ← optionalU32 value "connector_id"
    let durationS ← match value.get "duration_s" with
      | none => some 3600
      | some field => field.asU32
    return getCompositeSchedule connectorId durationS
  | _ => none

end ProxyCommand

def readId (crates : Crates) (now : Time) (id : Option Json) : Except String String :=
  let other (value : Json) : Except String String :=
    .error s!"id must be a string or number, got {crates.toText value}"
  match id with
  | some (.string s) => if (trim s).isEmpty then other (.string s) else .ok s
  | some (.number n) => .ok (crates.toText (.number n))
  | some .null | none => .ok (CommandRequest.generatedId now "cmd")
  | some value => other value

def parseCommandObject (crates : Crates) (now : Time) (text : String) :
    Except String CommandRequest :=
  match crates.fromStr text with
  | .error e => .error s!"payload is not valid JSON: {e}"
  | .ok value =>
    match value.asObject with
    | none => .error "payload must be a JSON object"
    | some fields =>
      (readId crates now (fields.lookup "id")).bind fun id =>
        let fields := fields.filter (·.1 != "id")
        -- a number of amps written as a string is read too
        let fields := match ((fields.lookup "limit_a").bind Json.asStr).bind (F64.parse <| trim ·) with
          | some n => Json.insertSorted "limit_a" (.ofF64 n) fields
          | none => fields
        match ProxyCommand.fromValue (.object fields) with
        | some command => .ok (.new now id command .mqtt)
        | none => .error (s!"unrecognised command ({crates.commandError (.object fields)}); " ++
            "expected one of set_current_limit, clear_current_limit, get_configuration, " ++
            "change_configuration, trigger_message, get_composite_schedule")

/-- A bare number of amps or a word that clears the limit. -/
def parseCurrentLimit (now : Time) (text : String) : Except String CommandRequest :=
  let id := CommandRequest.generatedId now "limit"
  if ["clear", "off", "none", "null"].contains (toAsciiLowercase text) then
    .ok (.new now id .clearCurrentLimit .mqtt)
  else match F64.parse text with
    | some limitA => .ok (.new now id (.setCurrentLimit limitA) .mqtt)
    | none => .error
        s!"expected a number of amps or 'clear' on the current_limit topic, got {debugStr text}"

def parseCommandPayload (crates : Crates) (now : Time) (kind : CommandTopic)
    (payload : ByteArray) : Except String CommandRequest :=
  match String.fromUTF8? payload with
  | none => .error "payload is not UTF-8"
  | some text =>
    let text := trim text
    if text.isEmpty then .error "payload is empty"
    else if kind = .currentLimit ∧ text.toList.head? ≠ some '\x7b' then parseCurrentLimit now text
    else parseCommandObject crates now text

example : (parseCommandPayload (.ofTable []) 0 .currentLimit " 16.50 ".toUTF8).toOption =
    some (.new 0 "limit-0" (.setCurrentLimit (.finite (33 / 2))) .mqtt) := by decide +kernel

end OcppProxy

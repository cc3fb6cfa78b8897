import Mathlib.Data.Rat.Floor
import Mathlib.Tactic.Common

/-!
# Values the proxy computes with

Times and durations are whole nanoseconds on one clock. An `f64` is read exactly: a finite one is
the rational it denotes. JSON is `serde_json`'s `Value`; reading and writing its text is the crate's
and stays a parameter (`Crates`).
-/

namespace OcppProxy

/-- A `DateTime<Utc>` or an `Instant`, in nanoseconds. -/
abbrev Time := Int

/-- A `std::time::Duration`, in nanoseconds. -/
abbrev Duration := Nat

def Duration.fromMillis (n : Nat) : Duration := n * 1000000

def Duration.fromSecs (n : Nat) : Duration := n * 1000000000

def Time.timestampMillis (t : Time) : Int := t / 1000000

/-! ## `f64` -/

inductive F64 where
  | finite (q : ℚ)
  | infinite (negative : Bool)
  | nan
  deriving DecidableEq, Repr

namespace F64

instance (n : Nat) : OfNat F64 n := ⟨finite n⟩

def isFinite : F64 → Bool
  | finite _ => true
  | _ => false

/-- IEEE `<`: false as soon as one side is NaN. -/
def lt : F64 → F64 → Bool
  | finite a, finite b => decide (a < b)
  | finite _, infinite negative => !negative
  | infinite negative, finite _ => negative
  | infinite m, infinite n => m && !n
  | _, _ => false

def eq : F64 → F64 → Bool
  | finite a, finite b => decide (a = b)
  | infinite m, infinite n => m == n
  | _, _ => false

def le (a b : F64) : Bool := lt a b || eq a b

/-- Multiplication; the sign of zero is not kept. -/
def mul : F64 → F64 → F64
  | finite a, finite b => finite (a * b)
  | finite a, infinite n | infinite n, finite a =>
    if a = 0 then nan else infinite (n != decide (a < 0))
  | infinite m, infinite n => infinite (m != n)
  | _, _ => nan

def roundRat (q : ℚ) : ℤ := if 0 ≤ q then ⌊q + 1 / 2⌋ else -⌊-q + 1 / 2⌋

/-- `(a * 10.0).round() / 10.0`. -/
def roundTenth : F64 → F64
  | finite q => finite (roundRat (q * 10) / 10)
  | a => a

/-- The fewest decimals that write `q` out, looked for up to the binary size of its denominator. -/
def decimals (q : ℚ) : Nat :=
  ((List.range (q.den.log2 + 2)).find? fun k => 10 ^ k % q.den == 0).getD 17

def displayNat (n k : Nat) : String :=
  let fraction := toString (n % 10 ^ k)
  let zeros := "".pushn '0' (k - fraction.length)
  if k = 0 then toString n else s!"{n / 10 ^ k}.{zeros}{fraction}"

def display : F64 → String
  | finite q =>
    let k := decimals q
    (if q < 0 then "-" else "") ++ displayNat (q.num.natAbs * 10 ^ k / q.den) k
  | infinite negative => if negative then "-inf" else "inf"
  | nan => "NaN"

end F64

/-! ## Text -/

def debugChar (c : Char) : String :=
  match c.toNat with
  | 0 => "\\0"
  | 9 => "\\t"
  | 10 => "\\n"
  | 13 => "\\r"
  | 0x22 => "\\\""
  | 0x5C => "\\\\"
  | n =>
    if n < 0x20 ∨ 0x7F ≤ n ∧ n < 0xA0 then
      "\\u\x7b" ++ String.ofList (Nat.toDigits 16 n) ++ "\x7d"
    else String.singleton c

/-- `{:?}` of a `str`; of what Rust takes for unprintable, only the control characters. -/
def debugStr (s : String) : String :=
  "\"" ++ String.join (s.toList.map debugChar) ++ "\""

/-! ## `serde_json` -/

inductive Number where
  | posInt (n : UInt64)
  | negInt (n : Int64)
  | float (x : ℚ)
  deriving DecidableEq, Repr

/-- `serde_json::Value`. A parsed object, or one made by `json!`, has its keys sorted. -/
inductive Json where
  | null
  | bool (b : Bool)
  | number (n : Number)
  | string (s : String)
  | array (items : List Json)
  | object (fields : List (String × Json))
  deriving Repr

namespace Json

def asArray : Json → Option (List Json)
  | array items => some items
  | _ => none

def asObject : Json → Option (List (String × Json))
  | object fields => some fields
  | _ => none

def asStr : Json → Option String
  | string s => some s
  | _ => none

def asU64 : Json → Option UInt64
  | number (.posInt n) => some n
  | _ => none

def asI64 : Json → Option Int
  | number (.posInt n) => if n.toNat < 2 ^ 63 then some n.toNat else none
  | number (.negInt n) => some n.toInt
  | _ => none

def get (key : String) : Json → Option Json
  | object fields => fields.lookup key
  | _ => none

/-- `Value::get` with an index. -/
def at? (index : Nat) : Json → Option Json
  | array items => items[index]?
  | _ => none

def ofNat (n : Nat) : Json := number (.posInt (UInt64.ofNat n))

def ofInt (n : Int) : Json :=
  if 0 ≤ n then ofNat n.toNat else number (.negInt (Int64.ofInt n))

/-- `json!` of an `f64`: what is not finite becomes `null`. -/
def ofF64 : F64 → Json
  | .finite q => number (.float q)
  | _ => null

def ofOption {α : Type} (f : α → Json) : Option α → Json
  | some a => f a
  | none => null

/-- Insert into the sorted map behind an object, replacing an entry of the same key. -/
def insertSorted (key : String) (value : Json) : List (String × Json) → List (String × Json)
  | [] => [(key, value)]
  | (k, v) :: rest =>
    if key = k then (key, value) :: rest
    else if key < k then (key, value) :: (k, v) :: rest
    else (k, v) :: insertSorted key value rest

/-- `json!({ … })`. -/
def ofFields (fields : List (String × Json)) : Json :=
  object (fields.foldl (fun sorted field => insertSorted field.1 field.2 sorted) [])

theorem lookup_cons (key k : String) (value : Json) (fields : List (String × Json)) :
    ((key, value) :: fields).lookup k = if k = key then some value else fields.lookup k := by
  rw [List.lookup_cons]
  by_cases hk : k = key
  · simp [hk]
  · simp [hk, beq_false_of_ne hk]

theorem lookup_insertSorted (key k : String) (value : Json) (fields : List (String × Json)) :
    (insertSorted key value fields).lookup k =
      if k = key then some value else fields.lookup k := by
  induction fields with
  | nil => exact lookup_cons key k value []
  | cons field fields ih =>
    obtain ⟨k', v⟩ := field
    unfold insertSorted
    split
    · rename_i heq
      simp only [lookup_cons, heq]
      split <;> rfl
    · split
      · exact lookup_cons key k value _
      · rename_i hne _
        simp only [lookup_cons, ih]
        by_cases hk : k = key
        · simp [hk, hne]
        · simp [hk]

/-- The last of several fields of one name counts. -/
theorem get_ofFields (k : String) (fields : List (String × Json)) :
    (ofFields fields).get k = fields.reverse.lookup k := by
  have hfold (sorted : List (String × Json)) :
      (fields.foldl (fun sorted field => insertSorted field.1 field.2 sorted) sorted).lookup k =
        (fields.reverse.lookup k).or (sorted.lookup k) := by
    induction fields generalizing sorted with
    | nil => simp
    | cons field fields ih =>
      obtain ⟨key, value⟩ := field
      rw [List.foldl_cons, ih, lookup_insertSorted, List.reverse_cons, List.lookup_append,
        Option.or_assoc, lookup_cons]
      split <;> simp
  exact (hfold []).trans (by simp)

end Json

/-- What the proxy takes from third-party crates: `serde_json`'s text, the texts of its errors, and
`chrono`'s date formats. -/
structure Crates where
  /-- `serde_json::from_str`. -/
  fromStr : String → Except String Json
  /-- `serde_json::to_string` and `to_vec`, which do not fail on a `Value`. -/
  toText : Json → String
  /-- The message of a failed `serde_json::from_value::<ProxyCommand>`. -/
  commandError : Json → String
  /-- `to_rfc3339_opts(SecondsFormat::Secs, true)`. -/
  rfc3339Secs : Time → String
  /-- `to_rfc3339_opts(SecondsFormat::Millis, true)`. -/
  rfc3339Millis : Time → String
  /-- `to_rfc3339()`. -/
  rfc3339 : Time → String

/-! ### Crates for small inputs -/

/-- A decimal digit, the others behind the point, and the exponent. -/
def scientific (negative : Bool) (digits : List Char) (exponent : Int) : String :=
  let fraction := (digits.tail.reverse.dropWhile (· == '0')).reverse
  (if negative then "-" else "") ++ String.ofList (digits.take 1) ++
    (if fraction.isEmpty then "" else "." ++ String.ofList fraction) ++
    (if exponent < 0 then "e-" else "e+") ++ toString exponent.natAbs

/-- A whole float keeps its `.0`; one below `1e-5` or from `1e16` on has an exponent. -/
def Number.render : Number → String
  | posInt n => toString n
  | negInt n => toString n
  | float x =>
    let k := F64.decimals x
    let digits := (toString (x.num.natAbs * 10 ^ k / x.den)).toList
    let exponent : Int := digits.length - 1 - k
    if -5 ≤ exponent ∧ exponent ≤ 15 then
      (F64.finite x).display ++ if x.den = 1 then ".0" else ""
    else scientific (decide (x < 0)) digits exponent

example : (Number.float (10 ^ 20)).render = "1e+20" ∧
    (Number.float (-3 / 20000000)).render = "-1.5e-7" ∧
    (Number.float (33 / 2)).render = "16.5" := by decide +kernel

namespace Json

mutual

/-- The compact text of a value whose strings need no escapes. -/
def render : Json → String
  | null => "null"
  | bool b => toString b
  | number n => n.render
  | string s => "\"" ++ s ++ "\""
  | array items => "[" ++ ",".intercalate (renderItems items) ++ "]"
  | object fields => "\x7b" ++ ",".intercalate (renderFields fields) ++ "\x7d"

def renderItems : List Json → List String
  | [] => []
  | item :: items => render item :: renderItems items

def renderFields : List (String × Json) → List String
  | [] => []
  | (key, value) :: fields => ("\"" ++ key ++ "\":" ++ render value) :: renderFields fields

end

end Json

def twoDigits (n : Nat) : String := (if n < 10 then "0" else "") ++ toString n

/-- The date and time of a second of 1 January 1970, without its zone. -/
def firstDay (second : Nat) : String :=
  s!"1970-01-01T{twoDigits (second / 3600)}:{twoDigits (second / 60 % 60)}:{twoDigits (second % 60)}"

/-- The crates on the first day of 1970, for the texts of a table. -/
def Crates.ofTable (table : List (String × Json)) : Crates where
  fromStr text := (table.lookup text).elim (.error "expected value at line 1 column 1") .ok
  toText := Json.render
  commandError _ := "missing field"
  rfc3339Secs t := firstDay (t / 1000000000).toNat ++ "Z"
  rfc3339Millis t :=
    let millis := (t / 1000000).toNat % 1000
    let zeros := if millis < 100 then "0" else ""
    s!"{firstDay (t / 1000000000).toNat}.{zeros}{twoDigits millis}Z"
  rfc3339 t := firstDay (t / 1000000000).toNat ++ "+00:00"

end OcppProxy

import OcppProxy.Payload
import OcppProxy.Snapshot

/-!
# Reading the snapshots back

`serde_json::from_slice` on the file. What `to_vec` writes of a map is read back as that map, where
the integers in it are `i64`s and the limits are finite; there is no other way to write a limit.
-/

namespace OcppProxy

namespace Json

mutual

/-- A value as its text is parsed: every object sorted. -/
def parsed : Json → Json
  | array items => array (parsedItems items)
  | object fields => ofFields (parsedFields fields)
  | value => value

def parsedItems : List Json → List Json
  | [] => []
  | item :: items => parsed item :: parsedItems items

def parsedFields : List (String × Json) → List (String × Json)
  | [] => []
  | (key, value) :: fields => (key, parsed value) :: parsedFields fields

end

/-- An `Option` field: absent and `null` are both `None`; `none` is an error. -/
def optional {α : Type} (read : Json → Option α) (value : Json) (key : String) :
    Option (Option α) :=
  match value.get key with
  | none | some null => some none
  | some field => (read field).map some

theorem parsedFields_eq_map (fields : List (String × Json)) :
    parsedFields fields = fields.map fun field => (field.1, field.2.parsed) := by
  induction fields with
  | nil => rfl
  | cons field fields ih =>
    rw [List.map_cons, ← ih]
    rfl

theorem mem_insertSorted {key : String} {value : Json} {fields : List (String × Json)}
    {field : String × Json} (h : field ∈ insertSorted key value fields) :
    field = (key, value) ∨ field ∈ fields := by
  induction fields with
  | nil => exact .inl (List.mem_singleton.mp h)
  | cons other fields ih =>
    unfold insertSorted at h
    split at h
    · exact (List.mem_cons.mp h).imp id (List.mem_cons_of_mem _)
    · split at h
      · exact List.mem_cons.mp h
      · rcases List.mem_cons.mp h with rfl | h
        · exact .inr (List.mem_cons_self ..)
        · exact (ih h).imp id (List.mem_cons_of_mem _)

/-- The fields of an object made from a list are among those of the list. -/
theorem mem_ofFields {fields sorted : List (String × Json)} (h : ofFields fields = .object sorted)
    {field : String × Json} (hmem : field ∈ sorted) : field ∈ fields := by
  have hfold (start : List (String × Json))
      (hmem : field ∈ fields.foldl (fun sorted f => insertSorted f.1 f.2 sorted) start) :
      field ∈ start ∨ field ∈ fields := by
    clear h
    induction fields generalizing start with
    | nil => exact .inl hmem
    | cons first fields ih =>
      rcases ih _ hmem with hmem | hmem
      · rcases mem_insertSorted hmem with rfl | hmem
        · exact .inr (List.mem_cons_self ..)
        · exact .inl hmem
      · exact .inr (List.mem_cons_of_mem _ hmem)
  cases h
  exact (hfold [] hmem).resolve_left List.not_mem_nil

/-- A field is found under its key, where no other has that key. -/
theorem get_parsed {fields : List (String × Json)} (hkeys : (fields.map Prod.fst).Nodup)
    {key : String} {value : Json} (h : (key, value) ∈ fields) :
    (object fields).parsed.get key = some value.parsed := by
  rw [parsed, parsedFields_eq_map, get_ofFields]
  have hlookup (l : List (String × Json)) (hl : (l.map Prod.fst).Nodup) (value : Json)
      (hmem : (key, value) ∈ l) : l.lookup key = some value := by
    induction l with
    | nil => cases hmem
    | cons first l ih =>
      obtain ⟨k, v⟩ := first
      rw [List.map_cons, List.nodup_cons] at hl
      rw [lookup_cons]
      rcases List.mem_cons.mp hmem with heq | hrest
      · cases heq
        exact if_pos rfl
      · have hne : key ≠ k := by
          rintro rfl
          exact hl.1 (List.mem_map.mpr ⟨_, hrest, rfl⟩)
        rw [if_neg hne]
        exact ih hl.2 hrest
  refine hlookup _ ?_ _ (List.mem_reverse.mpr (List.mem_map.mpr ⟨_, h, rfl⟩))
  rw [List.map_reverse, List.map_map, List.nodup_reverse]
  exact hkeys

theorem parsed_ofOption {α : Type} {write : α → Json} (h : ∀ a, (write a).parsed = write a)
    (x : Option α) : (ofOption write x).parsed = ofOption write x := by
  cases x with
  | none => rfl
  | some a => exact h a

theorem parsed_ofInt (n : Int) : (ofInt n).parsed = ofInt n := by
  unfold ofInt
  split <;> rfl

theorem parsed_ofF64 (x : F64) : (ofF64 x).parsed = ofF64 x := by
  cases x <;> rfl

/-- What is written of an `Option` is read as it was. -/
theorem optional_eq {α : Type} {read : Json → Option α} {write : α → Json} {value : Json}
    {key : String} {x : Option α} (hget : value.get key = some (ofOption write x))
    (hread : ∀ a ∈ x, read (write a) = some a ∧ write a ≠ null) :
    optional read value key = some x := by
  unfold optional
  rw [hget]
  cases x with
  | none => rfl
  | some a =>
    obtain ⟨hread, hnull⟩ := hread a rfl
    have hread := congrArg (Option.map some) hread
    show (match some (write a) with
      | none | some null => some none
      | some field => (read field).map some) = some (some a)
    revert hnull hread
    cases write a <;> intro hnull hread <;> first | exact hread | exact absurd rfl hnull

/-- What an `Option` field is read as is what its reader yields. -/
theorem mem_optional {α : Type} {read : Json → Option α} {P : α → Prop}
    (hread : ∀ value a, read value = some a → P a) {value : Json} {key : String} {x : Option α}
    (h : optional read value key = some x) : ∀ a ∈ x, P a := by
  rintro a rfl
  unfold optional at h
  split at h
  · cases h
  · cases h
  · obtain ⟨b, hb, heq⟩ := Option.map_eq_some_iff.mp h
    cases heq
    exact hread _ _ hb

end Json

def IsI64 (n : Int) : Prop := -2 ^ 63 ≤ n ∧ n < 2 ^ 63

theorem asI64_ofInt {n : Int} (h : IsI64 n) :
    (Json.ofInt n).asI64 = some n ∧ Json.ofInt n ≠ .null := by
  obtain ⟨hlow, hhigh⟩ := h
  unfold Json.ofInt
  split
  · have hnat : (UInt64.ofNat n.toNat).toNat = n.toNat := by
      rw [UInt64.toNat_ofNat']
      omega
    refine ⟨?_, by simp [Json.ofNat]⟩
    show (if (UInt64.ofNat n.toNat).toNat < 2 ^ 63 then _ else none) = some n
    rw [hnat, if_pos (by omega)]
    exact congrArg some (Int.toNat_of_nonneg ‹_›)
  · refine ⟨?_, by simp⟩
    show some (Int64.ofInt n).toInt = some n
    rw [Int64.toInt_ofInt, Int.bmod_eq_of_le (by simp [Int64.size]; omega)
      (by simp [Int64.size]; omega)]

theorem isI64_of_asI64 (value : Json) (n : Int) (h : value.asI64 = some n) : IsI64 n := by
  unfold Json.asI64 at h
  split at h
  · split at h
    · cases h
      constructor <;> omega
    · cases h
  · rename_i m
    cases h
    exact ⟨m.le_toInt, m.toInt_lt⟩
  · cases h

theorem finite_of_asF64 (value : Json) (x : F64) (h : value.asF64 = some x) :
    ∃ a, x = .finite a := by
  unfold Json.asF64 at h
  split at h <;> cases h <;> exact ⟨_, rfl⟩

namespace ChargePointState

/-- `Deserialize` of a snapshot, from an object: unknown fields are ignored. -/
def fromJson (value : Json) : Option ChargePointState := do
  let _ ← value.asObject
  return {
    connectorStatus := ← value.optional Json.asStr "connector_status"
    errorCode := ← value.optional Json.asStr "error_code"
    transactionId := ← value.optional Json.asI64 "transaction_id"
    idTag := ← value.optional Json.asStr "id_tag"
    meterStartWh := ← value.optional Json.asI64 "meter_start_wh"
    lastMeterStopWh := ← value.optional Json.asI64 "last_meter_stop_wh"
    lastSessionEnergyWh := ← value.optional Json.asI64 "last_session_energy_wh"
    lastTransactionId := ← value.optional Json.asI64 "last_transaction_id"
    lastStopReason := ← value.optional Json.asStr "last_stop_reason"
    lastStopTime := ← value.optional Json.asStr "last_stop_time"
    currentLimitA := ← value.optional Json.asF64 "current_limit_a"
    currentLimitStatus := ← value.optional Json.asStr "current_limit_status"
    currentLimitUpdated := ← value.optional Json.asStr "current_limit_updated"
    lastUpdated := ← value.optional Json.asStr "last_updated" }

/-- The numbers of a snapshot can be written, and its limit is one of `limits`. -/
structure Storable (limits : ℚ → Prop) (st : ChargePointState) : Prop where
  transactionId : ∀ n ∈ st.transactionId, IsI64 n
  meterStartWh : ∀ n ∈ st.meterStartWh, IsI64 n
  lastMeterStopWh : ∀ n ∈ st.lastMeterStopWh, IsI64 n
  lastSessionEnergyWh : ∀ n ∈ st.lastSessionEnergyWh, IsI64 n
  lastTransactionId : ∀ n ∈ st.lastTransactionId, IsI64 n
  currentLimitA : ∀ x ∈ st.currentLimitA, ∃ a, x = .finite a ∧ limits a

def fields (st : ChargePointState) : List (String × Json) := st.toJson.asObject.getD []

theorem fromJson_parsed {limits : ℚ → Prop} {st : ChargePointState} (h : st.Storable limits) :
    fromJson st.toJson.parsed = some st := by
  have hkeys : (st.fields.map Prod.fst).Nodup := by
    have hsame : st.fields.map Prod.fst = (fields {}).map Prod.fst := rfl
    rw [hsame]
    decide
  have htext (key : String) (x : Option String) (hmem : (key, .ofOption .string x) ∈ st.fields) :
      st.toJson.parsed.optional Json.asStr key = some x := by
    refine @Json.optional_eq _ _ .string _ _ _ ?_ fun a _ => ⟨rfl, Json.noConfusion⟩
    rw [← Json.parsed_ofOption (fun _ => rfl) x]
    exact Json.get_parsed hkeys hmem
  have hint (key : String) (x : Option Int) (hmem : (key, .ofOption .ofInt x) ∈ st.fields)
      (hx : ∀ n ∈ x, IsI64 n) : st.toJson.parsed.optional Json.asI64 key = some x := by
    refine @Json.optional_eq _ _ .ofInt _ _ _ ?_ fun a ha => asI64_ofInt (hx a ha)
    rw [← Json.parsed_ofOption Json.parsed_ofInt x]
    exact Json.get_parsed hkeys hmem
  have hlimit (key : String) (x : Option F64) (hmem : (key, .ofOption .ofF64 x) ∈ st.fields)
      (hx : ∀ a ∈ x, ∃ q, a = .finite q ∧ limits q) :
      st.toJson.parsed.optional Json.asF64 key = some x := by
    refine @Json.optional_eq _ _ .ofF64 _ _ _ ?_ fun a ha => ?_
    · rw [← Json.parsed_ofOption Json.parsed_ofF64 x]
      exact Json.get_parsed hkeys hmem
    · obtain ⟨q, rfl, -⟩ := hx a ha
      exact ⟨rfl, Json.noConfusion⟩
  have hmem {i : Nat} {key : String} {value : Json} (hi : st.fields[i]? = some (key, value)) :
      (key, value) ∈ st.fields := List.mem_of_getElem? hi
  unfold fromJson
  refine Option.bind_eq_some_iff.mpr ⟨_, rfl, ?_⟩
  refine Option.bind_eq_some_iff.mpr ⟨_, htext _ st.connectorStatus (@hmem 0 _ _ rfl), ?_⟩
  refine Option.bind_eq_some_iff.mpr ⟨_, htext _ st.errorCode (@hmem 1 _ _ rfl), ?_⟩
  refine Option.bind_eq_some_iff.mpr
    ⟨_, hint _ st.transactionId (@hmem 2 _ _ rfl) h.transactionId, ?_⟩
  refine Option.bind_eq_some_iff.mpr ⟨_, htext _ st.idTag (@hmem 3 _ _ rfl), ?_⟩
  refine Option.bind_eq_some_iff.mpr
    ⟨_, hint _ st.meterStartWh (@hmem 4 _ _ rfl) h.meterStartWh, ?_⟩
  refine Option.bind_eq_some_iff.mpr
    ⟨_, hint _ st.lastMeterStopWh (@hmem 5 _ _ rfl) h.lastMeterStopWh, ?_⟩
  refine Option.bind_eq_some_iff.mpr
    ⟨_, hint _ st.lastSessionEnergyWh (@hmem 6 _ _ rfl) h.lastSessionEnergyWh, ?_⟩
  refine Option.bind_eq_some_iff.mpr
    ⟨_, hint _ st.lastTransactionId (@hmem 7 _ _ rfl) h.lastTransactionId, ?_⟩
  refine Option.bind_eq_some_iff.mpr ⟨_, htext _ st.lastStopReason (@hmem 8 _ _ rfl), ?_⟩
  refine Option.bind_eq_some_iff.mpr ⟨_, htext _ st.lastStopTime (@hmem 9 _ _ rfl), ?_⟩
  refine Option.bind_eq_some_iff.mpr
    ⟨_, hlimit _ st.currentLimitA (@hmem 10 _ _ rfl) h.currentLimitA, ?_⟩
  refine Option.bind_eq_some_iff.mpr ⟨_, htext _ st.currentLimitStatus (@hmem 11 _ _ rfl), ?_⟩
  refine Option.bind_eq_some_iff.mpr ⟨_, htext _ st.currentLimitUpdated (@hmem 12 _ _ rfl), ?_⟩
  refine Option.bind_eq_some_iff.mpr ⟨_, htext _ st.lastUpdated (@hmem 13 _ _ rfl), ?_⟩
  rfl

/-- What is read is storable: an integer out of range or a limit that is no number is refused. -/
theorem storable_of_fromJson {value : Json} {st : ChargePointState} (h : fromJson value = some st) :
    st.Storable fun _ => True := by
  unfold fromJson at h
  obtain ⟨_, -, h⟩ := Option.bind_eq_some_iff.mp h
  obtain ⟨_, -, h⟩ := Option.bind_eq_some_iff.mp h
  obtain ⟨_, -, h⟩ := Option.bind_eq_some_iff.mp h
  obtain ⟨_, htransaction, h⟩ := Option.bind_eq_some_iff.mp h
  obtain ⟨_, -, h⟩ := Option.bind_eq_some_iff.mp h
  obtain ⟨_, hstart, h⟩ := Option.bind_eq_some_iff.mp h
  obtain ⟨_, hstop, h⟩ := Option.bind_eq_some_iff.mp h
  obtain ⟨_, henergy, h⟩ := Option.bind_eq_some_iff.mp h
  obtain ⟨_, hlast, h⟩ := Option.bind_eq_some_iff.mp h
  obtain ⟨_, -, h⟩ := Option.bind_eq_some_iff.mp h
  obtain ⟨_, -, h⟩ := Option.bind_eq_some_iff.mp h
  obtain ⟨_, hlimit, h⟩ := Option.bind_eq_some_iff.mp h
  obtain ⟨_, -, h⟩ := Option.bind_eq_some_iff.mp h
  obtain ⟨_, -, h⟩ := Option.bind_eq_some_iff.mp h
  obtain ⟨_, -, h⟩ := Option.bind_eq_some_iff.mp h
  cases h
  have hfinite := Json.mem_optional finite_of_asF64 hlimit
  exact ⟨Json.mem_optional isI64_of_asI64 htransaction, Json.mem_optional isI64_of_asI64 hstart,
    Json.mem_optional isI64_of_asI64 hstop, Json.mem_optional isI64_of_asI64 henergy,
    Json.mem_optional isI64_of_asI64 hlast,
    fun x hx => (hfinite x hx).imp fun _ heq => ⟨heq, trivial⟩⟩

end ChargePointState

namespace SnapshotMap

/-- `serde_json::to_vec`, before it is text; a `HashMap` may write its entries in any order. -/
def toJson (map : SnapshotMap) : Json := .object (map.entries.map fun e => (e.1, e.2.toJson))

def fromFields : List (String × Json) → Option SnapshotMap
  | [] => some ∅
  | (id, value) :: fields => do
    let st ← ChargePointState.fromJson value
    let map ← fromFields fields
    return map.insert id st

def fromJson (value : Json) : Option SnapshotMap := value.asObject.bind fromFields

/-- `PartialEq` of two `HashMap`s. -/
def Same (a b : SnapshotMap) : Prop := ∀ id, a.lookup id = b.lookup id

def Storable (limits : ℚ → Prop) (map : SnapshotMap) : Prop :=
  ∀ id st, map.lookup id = some st → st.Storable limits

theorem fromFields_eq {fields : List (String × Json)}
    (h : ∀ field ∈ fields, ∃ st, ChargePointState.fromJson field.2 = some st) :
    ∃ map, fromFields fields = some map ∧
      ∀ id, map.lookup id = (fields.lookup id).bind ChargePointState.fromJson := by
  induction fields with
  | nil => exact ⟨∅, rfl, fun _ => rfl⟩
  | cons field fields ih =>
    obtain ⟨key, value⟩ := field
    obtain ⟨⟨st, hst⟩, hfields⟩ := List.forall_mem_cons.mp h
    obtain ⟨map, hmap, hlookup⟩ := ih hfields
    refine ⟨map.insert key st, ?_, fun id => ?_⟩
    · dsimp only at hst
      simp [fromFields, hst, hmap]
    · rw [Json.lookup_cons]
      split
      · rename_i hid
        rw [hid, AList.lookup_insert]
        exact hst.symm
      · rename_i hid
        rw [AList.lookup_insert_ne hid]
        exact hlookup id

/-- What is read is storable. -/
theorem storable_of_fromJson {value : Json} {map : SnapshotMap} (h : fromJson value = some map) :
    map.Storable fun _ => True := by
  obtain ⟨fields, -, hfields⟩ := Option.bind_eq_some_iff.mp h
  clear h
  induction fields generalizing map with
  | nil =>
    cases hfields
    exact fun _ _ hlookup => by cases hlookup
  | cons field fields ih =>
    obtain ⟨key, value⟩ := field
    obtain ⟨st, hst, h⟩ := Option.bind_eq_some_iff.mp hfields
    obtain ⟨rest, hrest, heq⟩ := Option.bind_eq_some_iff.mp h
    cases heq
    intro id st' hlookup
    by_cases hid : id = key
    · rw [hid, AList.lookup_insert] at hlookup
      cases hlookup
      exact ChargePointState.storable_of_fromJson hst
    · rw [AList.lookup_insert_ne hid] at hlookup
      exact ih hrest id st' hlookup

/-- What is written of a storable map is read back as that map. -/
theorem fromJson_parsed {limits : ℚ → Prop} {map : SnapshotMap} (h : map.Storable limits) :
    ∃ loaded, fromJson map.toJson.parsed = some loaded ∧ loaded.Same map := by
  have hkeys : ((map.entries.map fun e => (e.1, e.2.toJson)).map Prod.fst).Nodup := by
    rw [List.map_map]
    exact map.nodupKeys
  have hobject : ∃ sorted, map.toJson.parsed = .object sorted := ⟨_, rfl⟩
  obtain ⟨sorted, hsorted⟩ := hobject
  unfold toJson at hsorted
  have hentry (field : String × Json) (hfield : field ∈ sorted) : ∃ st,
      map.lookup field.1 = some st ∧ field.2 = st.toJson.parsed := by
    have hmem := Json.mem_ofFields hsorted hfield
    rw [Json.parsedFields_eq_map, List.map_map] at hmem
    obtain ⟨e, he, rfl⟩ := List.mem_map.mp hmem
    exact ⟨e.2, AList.mem_lookup_iff.mpr he, rfl⟩
  obtain ⟨loaded, hloaded, hlookup⟩ := @fromFields_eq sorted fun field hfield => by
    obtain ⟨st, hst, hvalue⟩ := hentry field hfield
    refine ⟨st, ?_⟩
    rw [hvalue]
    exact ChargePointState.fromJson_parsed (h _ _ hst)
  refine ⟨loaded, ?_, fun id => ?_⟩
  · rw [fromJson, toJson, hsorted]
    exact hloaded
  · rw [hlookup]
    cases hst : map.lookup id with
    | some st =>
      have hget := Json.get_parsed hkeys (List.mem_map.mpr ⟨⟨id, st⟩, AList.mem_lookup_iff.mp hst, rfl⟩)
      rw [hsorted, Json.get] at hget
      rw [hget, Option.bind_some]
      exact ChargePointState.fromJson_parsed (h _ _ hst)
    | none =>
      cases hget : sorted.lookup id with
      | none => rfl
      | some value =>
        obtain ⟨l, l', hl, -⟩ := List.lookup_eq_some_iff.mp hget
        obtain ⟨st, hst', -⟩ := hentry (id, value) (by simp [hl])
        rw [hst] at hst'
        cases hst'

end SnapshotMap

end OcppProxy

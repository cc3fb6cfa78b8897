import OcppProxy.Library.Disk
import OcppProxy.StoredSnapshots

/-!
# The file behind the snapshots

`save_inner` writes the map under another name, syncs it and renames it. Whatever calls fail, and
whenever the power is cut or the process restarts, `load` finds a map that the publisher saved.
-/

namespace OcppProxy

/-! ## Paths -/

structure StatePath where
  directory : String
  fileName : List Char
  deriving DecidableEq

namespace StatePath

/-- `Path::file_stem`: the name without its last dot and what follows, or all of it where nothing
stands before that dot. -/
def fileStem (p : StatePath) : List Char :=
  let before := ((p.fileName.reverse.dropWhile (· ≠ '.')).drop 1).reverse
  if before = [] then p.fileName else before

def withExtension (extension : String) (p : StatePath) : StatePath :=
  { p with fileName := p.fileStem ++ '.' :: extension.toList }

/-- Where `save_inner` writes before it renames. -/
def tmp (p : StatePath) : StatePath := p.withExtension "json.tmp"

example : (StatePath.mk "/var/lib/ocpp-proxy" "state.json".toList).tmp.fileName =
    "state.json.tmp".toList := by decide +kernel

/-- A name is its stem, or its stem, a dot and what has no dot. -/
theorem fileName_eq (p : StatePath) : p.fileName = p.fileStem ∨
    ∃ extension, p.fileName = p.fileStem ++ '.' :: extension ∧ '.' ∉ extension := by
  unfold fileStem
  dsimp only
  split
  · exact .inl rfl
  · rename_i hbefore
    refine .inr ⟨(p.fileName.reverse.takeWhile (· ≠ '.')).reverse, ?_, ?_⟩
    · have hsplit := List.takeWhile_append_dropWhile (p := (· ≠ '.')) (l := p.fileName.reverse)
      cases hdrop : p.fileName.reverse.dropWhile (· ≠ '.') with
      | nil => exact absurd (by rw [hdrop]; rfl) hbefore
      | cons c rest =>
        have hdot : c = '.' := by
          have hhead := List.head?_dropWhile_not (· ≠ '.') p.fileName.reverse
          rw [hdrop] at hhead
          simpa using hhead
        rw [hdrop, hdot] at hsplit
        have hname := congrArg List.reverse hsplit
        rw [List.reverse_reverse, List.reverse_append, List.reverse_cons, List.append_assoc] at hname
        exact hname.symm
    · intro hmem
      have hne := List.all_eq_true.mp List.all_takeWhile _ (List.mem_reverse.mp hmem)
      simp at hne

/-- What is written first is another file. -/
theorem tmp_ne (p : StatePath) : p.tmp ≠ p := by
  intro h
  have hname : p.fileStem ++ '.' :: "json.tmp".toList = p.fileName := congrArg fileName h
  rcases p.fileName_eq with hstem | ⟨extension, hdot, hnone⟩
  · rw [hstem] at hname
    simp at hname
  · rw [hdot] at hname
    have htail := List.append_cancel_left hname
    cases htail
    revert hnone
    decide

end StatePath

/-! ## Saving and loading -/

namespace SnapshotStore

section
variable (crates : Crates)

def bytes (map : SnapshotMap) : List UInt8 := (crates.toText map.toJson).toUTF8.data.toList

def fromSlice (raw : List UInt8) : Option SnapshotMap :=
  (String.fromUTF8? ⟨raw.toArray⟩).bind fun text =>
    (crates.fromStr text).toOption.bind SnapshotMap.fromJson

/-- What `load` makes of a file: a missing one, or one that is not valid, is an empty map. -/
def loadBytes (raw : Option (List UInt8)) : SnapshotMap := (raw.bind (fromSlice crates)).getD ∅

def loadFrom (path : StatePath) (d : Disk StatePath UInt8) : SnapshotMap :=
  loadBytes crates (d.read path)

/-- The text of a map is parsed as what was written. -/
def ReadsBack (map : SnapshotMap) : Prop :=
  crates.fromStr (crates.toText map.toJson) = .ok map.toJson.parsed

def saveInner (path : StatePath) (map : SnapshotMap) : List (DiskCall StatePath UInt8) :=
  .makeDirectory :: DiskCall.replace path.tmp path (bytes crates map)

end

section
variable {crates : Crates} {limits : ℚ → Prop} {map : SnapshotMap}

/-- What is loaded can be stored. -/
theorem storable_loadBytes (raw : Option (List UInt8)) :
    SnapshotMap.Storable (fun _ => True) (loadBytes crates raw) := by
  unfold loadBytes
  cases hraw : raw.bind (fromSlice crates) with
  | none => exact fun _ _ hlookup => by cases hlookup
  | some map =>
    obtain ⟨bytes, -, hbytes⟩ := Option.bind_eq_some_iff.mp hraw
    obtain ⟨text, -, htext⟩ := Option.bind_eq_some_iff.mp hbytes
    obtain ⟨value, -, hvalue⟩ := Option.bind_eq_some_iff.mp htext
    exact SnapshotMap.storable_of_fromJson hvalue

/-- What is written of a storable map is loaded as that map. -/
theorem loadBytes_bytes (h : map.Storable limits) (hread : ReadsBack crates map) :
    (loadBytes crates (some (bytes crates map))).Same map := by
  obtain ⟨loaded, hloaded, hsame⟩ := SnapshotMap.fromJson_parsed h
  have hslice : fromSlice crates (bytes crates map) = some loaded := by
    have htext : String.fromUTF8? ⟨(bytes crates map).toArray⟩ = some (crates.toText map.toJson) :=
      dif_pos (crates.toText map.toJson).isValidUTF8
    unfold ReadsBack at hread
    rw [fromSlice, htext, Option.bind_some, hread]
    exact hloaded
  rw [loadBytes, Option.bind_some, hslice]
  exact hsame

end

end SnapshotStore

/-! ## When the publisher saves -/

namespace MqttPublisher

def SameFile (p q : MqttPublisher) : Prop :=
  q.chargePointState = p.chargePointState ∧ q.snapshotStore = p.snapshotStore

/-- The file is left alone, or the map that `q` holds is saved. -/
def SavesOnce (p q : MqttPublisher) : Prop :=
  q.snapshotStore = p.snapshotStore ∨
    q.snapshotStore = p.snapshotStore.save q.chargePointState

section
variable {crates : Crates} {now : Time} {p q r : MqttPublisher} {input : PublisherInput}
  {id : String}

theorem SavesOnce.before (h : p.SavesOnce q) (hr : r.snapshotStore = p.snapshotStore) :
    r.SavesOnce q := by
  unfold SavesOnce
  rw [hr]
  exact h

theorem SavesOnce.after (h : p.SavesOnce q) (hr : q.SameFile r) : p.SavesOnce r := by
  unfold SavesOnce
  rw [hr.1, hr.2]
  exact h

theorem sameFile_enqueue (message : MqttMessage) (p : MqttPublisher) :
    p.SameFile (p.enqueue message) :=
  ⟨(idle_enqueue message p).chargePointState, enqueue_snapshotStore message p⟩

theorem savesOnce_storeSnapshot (folded : Bool × ChargePointState) (p : MqttPublisher) :
    p.SavesOnce (p.storeSnapshot crates id folded) := by
  unfold storeSnapshot
  dsimp only
  split
  · refine SavesOnce.after ?_ (sameFile_enqueue _ _)
    exact .inr rfl
  · exact .inl rfl

theorem savesOnce_publishCommandResult (result : CommandResult) (p : MqttPublisher) :
    p.SavesOnce (p.publishCommandResult crates now id result) := by
  unfold publishCommandResult
  dsimp only
  exact (savesOnce_storeSnapshot _ _).before (enqueue_snapshotStore _ p).symm

theorem savesOnce_dispatchCommand (request : CommandRequest) (p : MqttPublisher) :
    p.SavesOnce (p.dispatchCommand crates now id request) := by
  unfold dispatchCommand
  split
  · exact savesOnce_publishCommandResult _ p
  · split
    · exact .inl rfl
    · exact (savesOnce_publishCommandResult _ _).before rfl

theorem savesOnce_maybeReapplyLimit (p : MqttPublisher) :
    p.SavesOnce (p.maybeReapplyLimit crates now id) := by
  unfold maybeReapplyLimit
  split
  · exact .inl rfl
  · exact savesOnce_dispatchCommand _ p

theorem savesOnce_handleIncomingPublish (topic : String) (payload : ByteArray)
    (p : MqttPublisher) : p.SavesOnce (p.handleIncomingPublish crates now topic payload) := by
  unfold handleIncomingPublish
  split
  · exact .inl rfl
  · split
    · exact savesOnce_publishCommandResult _ p
    · exact savesOnce_dispatchCommand _ p

theorem savesOnce_handleEvent (event : MqttEvent) (p : MqttPublisher) :
    p.SavesOnce (p.handleEvent crates now event) := by
  cases event with
  | messageForwarded id frame direction action =>
    exact (savesOnce_storeSnapshot _ _).before (enqueue_snapshotStore _ p).symm
  | stateChange id upstream downstream =>
    dsimp only [handleEvent]
    split
    · exact (savesOnce_maybeReapplyLimit _).before (enqueue_snapshotStore _ p).symm
    · exact .inl (enqueue_snapshotStore _ p)
  | commandResult id result => exact savesOnce_publishCommandResult result p

/-- A step of the publisher saves at most once, and then what it leaves. -/
theorem savesOnce_of_stepped (h : Stepped crates now p input q) : p.SavesOnce q := by
  cases h with
  | enqueue message => exact .inl (enqueue_snapshotStore message p)
  | started taken => exact .inl (onConnack_snapshotStore (p.afterPoll taken))
  | polled taken event =>
    by_cases hpublish : ∃ topic payload, event = .publish topic payload
    · obtain ⟨topic, payload, rfl⟩ := hpublish
      refine (SavesOnce.after (savesOnce_handleIncomingPublish topic payload (p.afterPoll taken))
        ⟨(idle_drainIfConnected _).chargePointState, drainIfConnected_snapshotStore _⟩).before rfl
    · exact .inl (onPolled_snapshotStore event (p.afterPoll (p.takenOff taken event))
        fun topic payload hevent => hpublish ⟨topic, payload, hevent⟩)
  | handled event => exact savesOnce_handleEvent event p
  | _ => exact .inl rfl

end

end MqttPublisher

namespace Process

section
variable {cx : ProxyContext} {x y : Process} {ev : ProcessEvent}

theorem savesOnce_of_moved (h : Moved cx x ev y) : x.publisher.SavesOnce y.publisher := by
  cases h with
  | publisher _ hp =>
    exact (MqttPublisher.savesOnce_of_stepped (MqttPublisher.stepped_of_step hp)).before rfl
  | received _ hp =>
    exact (MqttPublisher.savesOnce_of_stepped (MqttPublisher.stepped_of_step hp)).before rfl
  | _ => exact .inl rfl

end

/-- The disk and the process over it, from a first start on: what was loaded first since the power
was last cut, and the saves since, the newest first, with their outcomes. -/
inductive Lived (cx : ProxyContext) (config : ProxyConfig) (path : StatePath)
    (d₀ : Disk StatePath UInt8) :
    Disk StatePath UInt8 → Process → SnapshotMap → List (SnapshotMap × Bool) → Prop
  | started : Lived cx config path d₀ d₀ (start config (SnapshotStore.loadFrom cx.crates path d₀))
      (SnapshotStore.loadFrom cx.crates path d₀) []
  | moved {d x first saves ev y} (h : Lived cx config path d₀ d x first saves)
      (hstep : step cx x ev = some y)
      (hsame : y.publisher.snapshotStore = x.publisher.snapshotStore) :
      Lived cx config path d₀ d y first saves
  /-- The map is saved, or one of the calls fails or is cut short. -/
  | saved {d x first saves ev y ok d'} (h : Lived cx config path d₀ d x first saves)
      (hstep : step cx x ev = some y) (henabled : x.publisher.snapshotStore.enabled = true)
      (hsave : y.publisher.snapshotStore =
        x.publisher.snapshotStore.save y.publisher.chargePointState)
      (hruns : DiskCall.Runs
        (SnapshotStore.saveInner cx.crates path y.publisher.chargePointState) d ok d') :
      Lived cx config path d₀ d' y first ((y.publisher.chargePointState, ok) :: saves)
  /-- The process ended or was killed. -/
  | restarted {d x first saves} (h : Lived cx config path d₀ d x first saves) :
      Lived cx config path d₀ d (start config (SnapshotStore.loadFrom cx.crates path d)) first saves
  | crashed {d x first saves d'} (h : Lived cx config path d₀ d x first saves)
      (hcrash : d.Crash d') :
      Lived cx config path d₀ d' (start config (SnapshotStore.loadFrom cx.crates path d'))
        (SnapshotStore.loadFrom cx.crates path d') []

/-- What the file may be read as since the power was last cut. -/
def Recallable (crates : Crates) (raw : Option (List UInt8)) (saves : List (SnapshotMap × Bool)) :
    Set (Option (List UInt8)) :=
  {r | r = raw ∨ ∃ map, (map, true) ∈ saves ∧ r = some (SnapshotStore.bytes crates map)}

def lastSaved (crates : Crates) (raw : Option (List UInt8)) (saves : List (SnapshotMap × Bool)) :
    Option (List UInt8) :=
  (saves.find? (·.2)).elim raw fun save => some (SnapshotStore.bytes crates save.1)

/-- What holds of the disk, of what it may be read as, and of the process over it at any time. -/
structure Recalls (cx : ProxyContext) (config : ProxyConfig) (path : StatePath)
    (raw : Option (List UInt8)) (d : Disk StatePath UInt8) (x : Process)
    (saves : List (SnapshotMap × Bool)) : Prop where
  reached : ∃ file events, SnapshotMap.Storable (fun _ => True) file ∧
    (step cx).run (start config file) events = some x
  whole : d.Whole path.tmp path (Recallable cx.crates raw saves)
  read : d.read path = lastSaved cx.crates raw saves
  stored : ∀ map ok, (map, ok) ∈ saves → map.Storable fun _ => True
  file : (∀ map, (map, true) ∈ saves → SnapshotStore.ReadsBack cx.crates map) →
    (∀ last ∈ saves.head?, last.2 = true) →
      x.publisher.snapshotStore.file.Same (SnapshotStore.loadFrom cx.crates path d)

section
variable {cx : ProxyContext} {config : ProxyConfig} {path : StatePath} {raw : Option (List UInt8)}
  {d d' d₀ : Disk StatePath UInt8} {x y : Process} {ev : ProcessEvent} {first : SnapshotMap}
  {saves : List (SnapshotMap × Bool)} {ok : Bool}

theorem start_file (file : SnapshotMap) :
    (start config file).publisher.snapshotStore.file = file :=
  congrArg SnapshotStore.file (MqttPublisher.build_snapshots (config.publisherSetup file)).2

theorem recalls_start (hrests : d.Rests path.tmp path) : Recalls cx config path (d.read path) d
    (start config (SnapshotStore.loadFrom cx.crates path d)) [] where
  reached := ⟨_, [], SnapshotStore.storable_loadBytes _, rfl⟩
  whole := Disk.Whole.mono hrests (Set.singleton_subset_iff.mpr (.inl rfl))
  read := rfl
  stored := by simp
  file _ _ id := by rw [start_file]

theorem Recalls.saved (hcalls : ∀ request uniqueId now prepared,
      prepareCall cx.crates cx.sessionConfig.charging request uniqueId now = .ok prepared →
        LimitIn (fun _ => True) prepared.appliedLimitA)
    (h : Recalls cx config path raw d x saves) (hstep : step cx x ev = some y)
    (henabled : x.publisher.snapshotStore.enabled = true)
    (hsave : y.publisher.snapshotStore =
      x.publisher.snapshotStore.save y.publisher.chargePointState)
    (hruns : DiskCall.Runs
      (SnapshotStore.saveInner cx.crates path y.publisher.chargePointState) d ok d') :
    Recalls cx config path raw d' y ((y.publisher.chargePointState, ok) :: saves) := by
  obtain ⟨file, events, hfile, hrun⟩ := h.reached
  have hreached : (step cx).run (start config file) (events ++ [ev]) = some y := by
    rw [(step cx).run_concat, hrun]
    exact hstep
  have hstored := storable_of_run hcalls hfile hreached
  have hreplaced := h.whole.replace path.tmp_ne hruns
  have hkept : ∀ map ok', (map, ok') ∈ (y.publisher.chargePointState, ok) :: saves →
      SnapshotMap.Storable (fun _ => True) map := by
    intro map ok' hmem
    rcases List.mem_cons.mp hmem with heq | hmem
    · cases heq
      exact hstored
    · exact h.stored map ok' hmem
  cases ok with
  | true =>
    obtain ⟨hwhole, hread⟩ := hreplaced
    refine ⟨⟨file, _, hfile, hreached⟩, hwhole.mono ?_, hread, hkept, fun htexts _ id => ?_⟩
    · rintro r (rfl | rfl | ⟨map, hmem, rfl⟩)
      · exact .inr ⟨_, List.mem_cons_self .., rfl⟩
      · exact .inl rfl
      · exact .inr ⟨map, List.mem_cons_of_mem _ hmem, rfl⟩
    · have hloaded := SnapshotStore.loadBytes_bytes hstored (htexts _ (List.mem_cons_self ..)) id
      rw [hsave, SnapshotStore.save, if_pos henabled, SnapshotStore.loadFrom, hread]
      exact hloaded.symm
  | false =>
    obtain ⟨hwhole, hread⟩ := hreplaced
    refine ⟨⟨file, _, hfile, hreached⟩, hwhole.mono ?_, hread.trans h.read, hkept,
      fun _ hlast => absurd (hlast _ rfl) Bool.false_ne_true⟩
    rintro r (rfl | ⟨map, hmem, rfl⟩)
    · exact .inl rfl
    · exact .inr ⟨map, List.mem_cons_of_mem _ hmem, rfl⟩

/-- What is recalled at any time: `raw` is what was on disk when the power came back. -/
theorem recalls_of_lived (hcalls : ∀ request uniqueId now prepared,
      prepareCall cx.crates cx.sessionConfig.charging request uniqueId now = .ok prepared →
        LimitIn (fun _ => True) prepared.appliedLimitA)
    (hrests : d₀.Rests path.tmp path) (h : Lived cx config path d₀ d x first saves) :
    ∃ raw, first = SnapshotStore.loadBytes cx.crates raw ∧
      Recalls cx config path raw d x saves := by
  induction h with
  | started => exact ⟨_, rfl, recalls_start hrests⟩
  | @moved d x first saves ev y _ hstep hsame ih =>
    obtain ⟨raw, hfirst, hx⟩ := ih
    obtain ⟨file, events, hfile, hrun⟩ := hx.reached
    refine ⟨raw, hfirst, ⟨file, events ++ [ev], hfile, ?_⟩, hx.whole, hx.read, hx.stored, ?_⟩
    · rw [(step cx).run_concat, hrun]
      exact hstep
    · rw [hsame]
      exact hx.file
  | saved _ hstep henabled hsave hruns ih =>
    obtain ⟨raw, hfirst, hx⟩ := ih
    exact ⟨raw, hfirst, hx.saved hcalls hstep henabled hsave hruns⟩
  | @restarted d x first saves _ ih =>
    obtain ⟨raw, hfirst, hx⟩ := ih
    refine ⟨raw, hfirst, ⟨_, [], SnapshotStore.storable_loadBytes _, rfl⟩, hx.whole, hx.read,
      hx.stored, fun _ _ id => ?_⟩
    rw [start_file]
  | crashed _ hcrash ih =>
    obtain ⟨raw, -, hx⟩ := ih
    exact ⟨_, rfl, recalls_start (hx.whole.crash hcrash).1⟩

/-- Whatever saves failed, and however often the process restarted or the power was cut, `load`
finds the map that was saved last since the last power cut, or what was found then; after another cut
it finds that or one of the maps saved since. A map is found whole, and as it was saved. As long as
the last save did not fail, the file is what the publisher's store says. -/
theorem load_of_lived {crates : Crates} {files : FileProbe} {built : Except String Settings}
    (hload : ProxyConfig.loadFromPath files built = .ok config) (hrests : d₀.Rests path.tmp path)
    (h : Lived { crates, sessionConfig := config.sessionConfig } config path d₀ d x first saves)
    (hread : ∀ map, (map, true) ∈ saves → SnapshotStore.ReadsBack crates map) :
    (SnapshotStore.loadFrom crates path d).Same ((saves.find? (·.2)).elim first Prod.fst) ∧
      (∀ d', d.Crash d' → ∃ map, (map = first ∨ (map, true) ∈ saves) ∧
        (SnapshotStore.loadFrom crates path d').Same map) ∧
      ((∀ last ∈ saves.head?, last.2 = true) →
        x.publisher.snapshotStore.file.Same (SnapshotStore.loadFrom crates path d)) := by
  obtain ⟨-, -, -, -, hvalid⟩ := ProxyConfig.loadFromPath_eq_ok.mp hload
  obtain ⟨raw, rfl, hx⟩ := @recalls_of_lived { crates, sessionConfig := config.sessionConfig }
    _ _ _ _ _ _ _
    (fun request uniqueId now prepared hp a ha => by
      obtain ⟨q, hq, -⟩ := installs_of_prepareCall hvalid.charging hp a ha
      exact ⟨q, hq, trivial⟩) hrests h
  -- what was saved is read back as it was
  have hbytes (map : SnapshotMap) (hmap : (map, true) ∈ saves) :
      (SnapshotStore.loadBytes crates (some (SnapshotStore.bytes crates map))).Same map :=
    SnapshotStore.loadBytes_bytes (hx.stored map true hmap) (hread map hmap)
  refine ⟨?_, fun d' hcrash => ?_, hx.file hread⟩
  · rw [SnapshotStore.loadFrom, hx.read, lastSaved]
    cases hlast : saves.find? (·.2) with
    | none => exact fun _ => rfl
    | some save =>
      have hok := List.find?_some hlast
      have hmem := List.mem_of_find?_eq_some hlast
      rw [show save = (save.1, true) from Prod.ext rfl hok] at hmem
      exact hbytes save.1 hmem
  · obtain ⟨-, hraw | ⟨map, hmap, hraw⟩⟩ := hx.whole.crash hcrash
    · exact ⟨_, .inl rfl, by rw [SnapshotStore.loadFrom, hraw]; exact fun _ => rfl⟩
    · exact ⟨map, .inr hmap, by rw [SnapshotStore.loadFrom, hraw]; exact hbytes map hmap⟩

end

def refusedMap : SnapshotMap :=
  AList.insert "CP01"
    { currentLimitStatus := some "not_connected"
      currentLimitUpdated := some "1970-01-01T00:00:00+00:00"
      lastUpdated := some "1970-01-01T00:00:00+00:00" } ∅

def refusedContext : ProxyContext where
  crates := .ofTable [(refusedMap.toJson.render, refusedMap.toJson.parsed)]
  sessionConfig := commandedConfig.sessionConfig

def emptyDisk : Disk StatePath UInt8 where
  content _ := []
  synced _ := true
  names _ := none
  earlier := []
  used := 0

def defaultPath : StatePath := ⟨"/var/lib/ocpp-proxy", "state.json".toList⟩

theorem refusedEvents_save :
    ((step refusedContext (start commandedConfig ∅) (.publisher ⟨0, .startup⟩)).bind fun x =>
      (step refusedContext x (.publisher ⟨0, .startupTimeout⟩)).bind fun y =>
        (step refusedContext y (.publisher ⟨0, .poll 0 (.publish
          "ocpp/CP01/command/current_limit" "10".toUTF8)⟩)).map fun z =>
            decide (x.publisher.snapshotStore.file.entries = [] ∧
              x.publisher.snapshotStore.enabled = true ∧
              y.publisher.snapshotStore.file.entries = [] ∧
              y.publisher.snapshotStore.enabled = true ∧
              z.publisher.snapshotStore.file.entries ≠ [] ∧
              z.publisher.chargePointState.entries = refusedMap.entries)) = some true := by
  decide +kernel

/-- A map is saved, and the power is cut before the directory is. -/
theorem load_of_lived_refused : ∃ d x,
    Lived refusedContext commandedConfig defaultPath emptyDisk d x ∅ [(refusedMap, true)] ∧
      (SnapshotStore.loadFrom refusedContext.crates defaultPath d).Same refusedMap ∧
      ∀ d', d.Crash d' → ∃ map, (map = ∅ ∨ (map, true) ∈ [(refusedMap, true)]) ∧
        (SnapshotStore.loadFrom refusedContext.crates defaultPath d').Same map := by
  have hstore {a b : SnapshotStore} (henabled : a.enabled = b.enabled)
      (hfile : a.file.entries = b.file.entries) : a = b := by
    obtain ⟨_, _⟩ := a
    obtain ⟨_, _⟩ := b
    obtain rfl := henabled
    obtain rfl := AList.ext hfile
    rfl
  obtain ⟨x, hx, h⟩ := Option.bind_eq_some_iff.mp refusedEvents_save
  obtain ⟨y, hy, h⟩ := Option.bind_eq_some_iff.mp h
  obtain ⟨z, hz, h⟩ := Option.map_eq_some_iff.mp h
  obtain ⟨hxfile, hxon, hyfile, hyon, hzfile, hmap⟩ := of_decide_eq_true h
  have hmap := AList.ext hmap
  have hsave := (savesOnce_of_moved (moved_of_step hz).2).resolve_left fun hsame =>
    hzfile (by rw [hsame, hyfile])
  have hstart : (start commandedConfig ∅).publisher.snapshotStore = ⟨true, ∅⟩ :=
    hstore (by decide +kernel) (by decide +kernel)
  have hx' : Lived refusedContext commandedConfig defaultPath emptyDisk emptyDisk x
      (SnapshotStore.loadFrom refusedContext.crates defaultPath emptyDisk) [] :=
    Lived.started.moved hx ((hstore (b := ⟨true, ∅⟩) hxon hxfile).trans hstart.symm)
  have hy' := hx'.moved hy (hstore (hyon.trans hxon.symm) (hyfile.trans hxfile.symm))
  have hlived := hy'.saved hz hyon hsave (DiskCall.Runs.all _ _)
  rw [hmap] at hlived
  have hrests : emptyDisk.Rests defaultPath.tmp defaultPath := by
    intro names hnames
    obtain rfl := List.mem_singleton.mp hnames
    exact ⟨nofun, nofun, nofun, nofun, rfl⟩
  have hread : SnapshotStore.ReadsBack refusedContext.crates refusedMap := by
    have hsingle (value parsed : Json) : (Crates.ofTable [(value.render, parsed)]).fromStr
        ((Crates.ofTable [(value.render, parsed)]).toText value) = .ok parsed := by
      simp [Crates.ofTable]
    exact hsingle _ _
  obtain ⟨hload, hcrash, -⟩ := load_of_lived commandedConfig_loads hrests hlived fun map hmem => by
    cases List.mem_singleton.mp hmem
    exact hread
  exact ⟨_, z, hlived, hload, hcrash⟩

end Process

end OcppProxy

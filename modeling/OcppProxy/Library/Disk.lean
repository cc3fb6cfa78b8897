import Mathlib.Data.Set.Insert
import Mathlib.Logic.Function.Basic

/-!
# A directory that may lose power

Files are numbered, and names lead to them. When the power is cut a file keeps what it had when it was
last synced, or anything at all if it was written to since; the directory comes back in one of the
states it went through, since each change of it is atomic. A file that is written under another name,
synced and renamed is therefore never seen half written.
-/

namespace OcppProxy

/-- Files of `β`s under names from `ν`. -/
structure Disk (ν β : Type*) where
  /-- What a read of the file yields. -/
  content : ℕ → List β
  synced : ℕ → Bool
  names : ν → Option ℕ
  /-- The other states of the directory that a crash may bring back. -/
  earlier : List (ν → Option ℕ)
  /-- No file has this number or a later one. -/
  used : ℕ

/-- What a program asks of the file system. -/
inductive DiskCall (ν β : Type*) where
  /-- Make the directory, where it is missing. -/
  | makeDirectory
  /-- Open a file to write, emptied or made anew. -/
  | create (name : ν)
  | append (name : ν) (bytes : List β)
  | sync (name : ν)
  | rename (source target : ν)

namespace Disk

variable {ν β : Type*} [DecidableEq ν]

def read (name : ν) (d : Disk ν β) : Option (List β) := (d.names name).map d.content

/-- Change the directory; a crash may undo it. -/
def setNames (names : ν → Option ℕ) (d : Disk ν β) : Disk ν β :=
  { d with names, earlier := d.names :: d.earlier }

/-- Give a file other bytes, which are not synced. -/
def write (file : ℕ) (bytes : List β) (d : Disk ν β) : Disk ν β :=
  { d with
    content := Function.update d.content file bytes
    synced := Function.update d.synced file false }

def create (name : ν) (d : Disk ν β) : Disk ν β :=
  match d.names name with
  | some file => d.write file []
  | none => ({ d.write d.used [] with used := d.used + 1 } : Disk ν β).setNames
      (Function.update d.names name (some d.used))

def append (name : ν) (bytes : List β) (d : Disk ν β) : Disk ν β :=
  match d.names name with
  | some file => d.write file (d.content file ++ bytes)
  | none => d

def sync (name : ν) (d : Disk ν β) : Disk ν β :=
  match d.names name with
  | some file => { d with synced := Function.update d.synced file true }
  | none => d

def rename (source target : ν) (d : Disk ν β) : Disk ν β :=
  match d.names source with
  | some file => d.setNames (Function.update (Function.update d.names source none) target (some file))
  | none => d

structure Crash (d d' : Disk ν β) : Prop where
  names : d'.names ∈ d.names :: d.earlier
  earlier : d'.earlier = []
  kept : ∀ file, d.synced file = true → d'.content file = d.content file
  synced : ∀ file, d'.synced file = true
  used : d'.used = d.used

end Disk

namespace DiskCall

variable {ν β : Type*} [DecidableEq ν]

def run : DiskCall ν β → Disk ν β → Disk ν β
  | makeDirectory, d => d
  | create name, d => d.create name
  | append name bytes, d => d.append name bytes
  | sync name, d => d.sync name
  | rename source target, d => d.rename source target

/-- What a call leaves that fails or is cut short: nothing of its work, or a part of what it writes. -/
inductive Cut : DiskCall ν β → Disk ν β → Disk ν β → Prop
  | undone (call : DiskCall ν β) (d : Disk ν β) : Cut call d d
  | created (name : ν) (d : Disk ν β) : Cut (create name) d (d.create name)
  | appended (name : ν) {bytes written : List β} (hpart : written <+: bytes) (d : Disk ν β) :
      Cut (append name bytes) d (d.append name written)

/-- The calls one after the other, up to the first that fails; whether none does. -/
inductive Runs : List (DiskCall ν β) → Disk ν β → Bool → Disk ν β → Prop
  | done (d : Disk ν β) : Runs [] d true d
  | next {call : DiskCall ν β} {calls : List (DiskCall ν β)} {d d' : Disk ν β} {ok : Bool}
      (h : Runs calls (call.run d) ok d') : Runs (call :: calls) d ok d'
  | cut {call : DiskCall ν β} {calls : List (DiskCall ν β)} {d d' : Disk ν β}
      (h : call.Cut d d') : Runs (call :: calls) d false d'

/-- Where no call fails they are all made. -/
theorem Runs.all (calls : List (DiskCall ν β)) (d : Disk ν β) :
    Runs calls d true (calls.foldl (fun d call => call.run d) d) := by
  induction calls generalizing d with
  | nil => exact .done d
  | cons call calls ih => exact .next (ih _)

/-- Write `bytes` under the name `source`, and let it take the place of `target`. -/
def replace (source target : ν) (bytes : List β) : List (DiskCall ν β) :=
  [create source, append source bytes, sync source, rename source target]

end DiskCall

namespace Disk

variable {ν β : Type*} {source target : ν} {good more : Set (Option (List β))}
  {d d' : Disk ν β} {bytes : List β} {names : ν → Option ℕ}

/-- In a state of the directory the target is a synced file with good bytes, or missing as far as that
is good, and the file under `source`, there or now, is another one. -/
structure Shows (source target : ν) (good : Set (Option (List β))) (d : Disk ν β)
    (names : ν → Option ℕ) : Prop where
  used : ∀ name file, names name = some file → file < d.used
  apart : ∀ file, names target = some file → names source ≠ some file
  now : ∀ file, names target = some file → d.names source ≠ some file
  synced : ∀ file, names target = some file → d.synced file = true
  good : (names target).map d.content ∈ good

/-- Whatever state of the directory a crash brings back. -/
def Whole (source target : ν) (good : Set (Option (List β))) (d : Disk ν β) : Prop :=
  ∀ names ∈ d.names :: d.earlier, d.Shows source target good names

/-- Nothing of the target is lost in a crash. -/
def Rests (source target : ν) (d : Disk ν β) : Prop := d.Whole source target {d.read target}

theorem Whole.mono (h : d.Whole source target good) (hgood : good ⊆ more) :
    d.Whole source target more := by
  intro names hnames
  have hs := h names hnames
  exact ⟨hs.used, hs.apart, hs.now, hs.synced, hgood hs.good⟩

theorem Whole.shows (h : d.Whole source target good) : d.Shows source target good d.names :=
  h _ (List.mem_cons_self ..)

/-- Writing to another file leaves what is under a name. -/
theorem map_write {name : ν} {file : ℕ} (hfile : names name ≠ some file) :
    (names name).map (d.write file bytes).content = (names name).map d.content := by
  cases hk : names name with
  | none => rfl
  | some k =>
    have hne : k ≠ file := by
      rintro rfl
      exact hfile hk
    exact congrArg some (Function.update_of_ne hne ..)

theorem Whole.write {file : ℕ} (h : d.Whole source target good)
    (hfile : ∀ names ∈ d.names :: d.earlier, names target ≠ some file) :
    (d.write file bytes).Whole source target good := by
  intro names hnames
  have hs := h names hnames
  refine ⟨hs.used, hs.apart, hs.now, fun k hk => ?_, ?_⟩
  · have hne : k ≠ file := by
      rintro rfl
      exact hfile names hnames hk
    rw [← hs.synced k hk]
    exact Function.update_of_ne hne ..
  · rw [map_write (hfile names hnames)]
    exact hs.good

/-- A new state of the directory, in which `source` is no file of the target's. -/
theorem Whole.setNames (h : d.Whole source target good) (hused : ∀ name file,
    names name = some file → file < d.used) (hnow : ∀ seen ∈ names :: d.names :: d.earlier,
      ∀ file, seen target = some file → names source ≠ some file)
    (hsynced : ∀ file, names target = some file → d.synced file = true)
    (hgood : (names target).map d.content ∈ good) :
    (d.setNames names).Whole source target good := by
  intro seen hseen
  rcases List.mem_cons.mp hseen with rfl | hold
  · have hnew := hnow _ (List.mem_cons_self ..)
    exact ⟨hused, hnew, hnew, hsynced, hgood⟩
  · have hs := h seen hold
    exact ⟨hs.used, hs.apart, hnow seen (List.mem_cons_of_mem _ hold), hs.synced, hs.good⟩

/-- Room for a new file. -/
theorem Whole.grow (h : d.Whole source target good) :
    ({ d with used := d.used + 1 } : Disk ν β).Whole source target good := by
  intro names hnames
  have hs := h names hnames
  exact ⟨fun name file hname => (hs.used name file hname).trans (Nat.lt_succ_self _), hs.apart,
    hs.now, hs.synced, hs.good⟩

/-- The file under `source` is not the target's. -/
theorem Whole.source_ne {file : ℕ} (h : d.Whole source target good)
    (hfile : d.names source = some file) :
    ∀ names ∈ d.names :: d.earlier, names target ≠ some file :=
  fun names hnames htarget => (h names hnames).now file htarget hfile

theorem append_of_some {file : ℕ} (h : d.names source = some file) :
    d.append source bytes = d.write file (d.content file ++ bytes) := by
  unfold append
  rw [h]

theorem Whole.append (h : d.Whole source target good) :
    (d.append source bytes).Whole source target good ∧
      (d.append source bytes).read target = d.read target := by
  cases hsource : d.names source with
  | some file =>
    rw [append_of_some hsource]
    exact ⟨h.write (h.source_ne hsource),
      map_write (h.source_ne hsource _ (List.mem_cons_self ..))⟩
  | none =>
    have hsame : d.append source bytes = d := by
      unfold Disk.append
      rw [hsource]
    rw [hsame]
    exact ⟨h, rfl⟩

theorem read_append_self {written : List β} (h : d.read source = some written) :
    (d.append source bytes).read source = some (written ++ bytes) := by
  obtain ⟨file, hsource, hcontent⟩ := Option.map_eq_some_iff.mp h
  rw [append_of_some hsource]
  show (d.names source).map (Function.update d.content file (d.content file ++ bytes)) = _
  rw [hsource, Option.map_some, Function.update_self, hcontent]

theorem sync_of_some {file : ℕ} (h : d.names source = some file) :
    d.sync source = { d with synced := Function.update d.synced file true } := by
  unfold sync
  rw [h]

theorem sync_content (d : Disk ν β) (name : ν) : (d.sync name).content = d.content := by
  unfold sync
  split <;> rfl

theorem sync_names (d : Disk ν β) (name : ν) : (d.sync name).names = d.names := by
  unfold sync
  split <;> rfl

theorem read_sync (d : Disk ν β) (name : ν) : (d.sync name).read target = d.read target := by
  unfold read
  rw [sync_content, sync_names]

theorem Whole.sync (h : d.Whole source target good) :
    (d.sync source).Whole source target good := by
  cases hsource : d.names source with
  | some file =>
    rw [sync_of_some hsource]
    intro names hnames
    have hs := h names hnames
    refine ⟨hs.used, hs.apart, hs.now, fun k hk => ?_, hs.good⟩
    have hne : k ≠ file := by
      rintro rfl
      exact hs.now k hk hsource
    rw [← hs.synced k hk]
    exact Function.update_of_ne hne ..
  | none =>
    have hsame : d.sync source = d := by
      unfold Disk.sync
      rw [hsource]
    rw [hsame]
    exact h

/-- After a power cut the directory is in one of the states it was in. -/
theorem Whole.crash (h : d.Whole source target good) (hcrash : d.Crash d') :
    d'.Rests source target ∧ d'.read target ∈ good := by
  have hs := h d'.names hcrash.names
  have hread : d'.read target = (d'.names target).map d.content := by
    unfold read
    cases hk : d'.names target with
    | none => rfl
    | some k => exact congrArg some (hcrash.kept k (hs.synced k hk))
  refine ⟨fun names hnames => ?_, hread ▸ hs.good⟩
  rw [hcrash.earlier, List.mem_singleton] at hnames
  subst hnames
  refine ⟨fun name file hname => ?_, hs.apart, hs.apart, fun file _ => hcrash.synced file, rfl⟩
  rw [hcrash.used]
  exact hs.used name file hname

section
variable [DecidableEq ν]

theorem create_of_some {file : ℕ} (h : d.names source = some file) :
    d.create source = d.write file [] := by
  unfold create
  rw [h]

theorem create_of_none (h : d.names source = none) :
    d.create source = ({ d.write d.used [] with used := d.used + 1 } : Disk ν β).setNames
      (Function.update d.names source (some d.used)) := by
  unfold create
  rw [h]

theorem Whole.create (h : d.Whole source target good) (hne : source ≠ target) :
    (d.create source).Whole source target good := by
  cases hsource : d.names source with
  | some file =>
    rw [create_of_some hsource]
    exact h.write (h.source_ne hsource)
  | none =>
    rw [create_of_none hsource]
    -- the new file is under no name yet
    have hfresh : ∀ names ∈ d.names :: d.earlier, names target ≠ some d.used :=
      fun names hnames htarget => ((h names hnames).used target _ htarget).false
    have hwritten : (d.write d.used ([] : List β)).Whole source target good := h.write hfresh
    have hsame : (Function.update d.names source (some d.used)) target = d.names target :=
      Function.update_of_ne hne.symm ..
    have hnow := List.mem_cons_self (a := d.names) (l := d.earlier)
    apply hwritten.grow.setNames
    · intro name file hname
      by_cases hs : name = source
      · rw [hs, Function.update_self] at hname
        cases hname
        exact Nat.lt_succ_self _
      · rw [Function.update_of_ne hs] at hname
        exact (hwritten.grow _ hnow).used name file hname
    · intro seen hseen file hfile
      rw [Function.update_self]
      rintro heq
      cases heq
      rcases List.mem_cons.mp hseen with rfl | hseen
      · exact hfresh _ hnow (hsame.symm.trans hfile)
      · exact hfresh seen hseen hfile
    · intro file hfile
      exact hwritten.shows.synced file (hsame.symm.trans hfile)
    · rw [hsame]
      exact hwritten.shows.good

theorem Whole.read_create (h : d.Whole source target good) (hne : source ≠ target) :
    (d.create source).read target = d.read target := by
  cases hsource : d.names source with
  | some file =>
    rw [create_of_some hsource]
    exact map_write (h.source_ne hsource _ (List.mem_cons_self ..))
  | none =>
    rw [create_of_none hsource]
    have hsame : (Function.update d.names source (some d.used)) target = d.names target :=
      Function.update_of_ne hne.symm ..
    have hfresh : d.names target ≠ some d.used :=
      fun htarget => (h.shows.used target _ htarget).false
    refine Eq.trans (congrArg (Option.map _) hsame) ?_
    exact map_write hfresh

/-- After it is opened to write there is an empty file. -/
theorem read_create_self : (d.create source).read source = some [] := by
  cases hsource : d.names source with
  | some file =>
    rw [create_of_some hsource]
    show (d.names source).map (Function.update d.content file []) = some []
    rw [hsource, Option.map_some, Function.update_self]
  | none =>
    rw [create_of_none hsource]
    show (Function.update d.names source (some d.used) source).map
      (Function.update d.content d.used []) = some []
    rw [Function.update_self, Option.map_some, Function.update_self]

/-- A synced file takes the place of the target. -/
theorem Whole.rename (h : d.Whole source target good) (hne : source ≠ target) {file : ℕ}
    (hsource : d.names source = some file) (hsynced : d.synced file = true)
    (hgood : some (d.content file) ∈ good) :
    (d.rename source target).Whole source target good ∧
      (d.rename source target).read target = some (d.content file) := by
  have hrename : d.rename source target = d.setNames
      (Function.update (Function.update d.names source none) target (some file)) := by
    unfold Disk.rename
    rw [hsource]
  have htarget : Function.update (Function.update d.names source none) target (some file) target =
      some file := Function.update_self ..
  have hnone : Function.update (Function.update d.names source none) target (some file) source =
      none := by
    rw [Function.update_of_ne hne, Function.update_self]
  rw [hrename]
  constructor
  · apply h.setNames
    · intro name k hk
      by_cases ht : name = target
      · rw [ht, htarget] at hk
        cases hk
        exact h.shows.used source _ hsource
      · rw [Function.update_of_ne ht] at hk
        by_cases hs : name = source
        · rw [hs, Function.update_self] at hk
          cases hk
        · rw [Function.update_of_ne hs] at hk
          exact h.shows.used name k hk
    · intro seen hseen k hk
      rw [hnone]
      exact nofun
    · intro k hk
      rw [htarget] at hk
      cases hk
      exact hsynced
    · rw [htarget]
      exact hgood
  · exact congrArg (Option.map _) htarget

/-! ## Replacing a file -/

/-- What is synced first and then renamed is seen with all its bytes, before a crash and after. -/
theorem Whole.sync_rename (h : d.Whole source target good) (hne : source ≠ target)
    (hbytes : d.read source = some bytes) :
    ((d.sync source).rename source target).Whole source target (insert (some bytes) good) ∧
      ((d.sync source).rename source target).read target = some bytes := by
  obtain ⟨file, hsource, rfl⟩ := Option.map_eq_some_iff.mp hbytes
  have hnames : (d.sync source).names source = some file := by rw [sync_names, hsource]
  have hsynced : (d.sync source).synced file = true := by
    rw [sync_of_some hsource]
    exact Function.update_self ..
  have hwhole := h.sync.mono (Set.subset_insert (some (d.content file)) good)
  have hrename := hwhole.rename hne hnames hsynced
  rw [sync_content] at hrename
  exact hrename (Set.mem_insert _ _)

/-- A call that fails or is cut short leaves the target. -/
theorem Whole.cut {call : DiskCall ν β} (h : d.Whole source target good) (hne : source ≠ target)
    (hcall : call ∈ DiskCall.makeDirectory :: DiskCall.replace source target bytes)
    (hcut : call.Cut d d') :
    d'.Whole source target good ∧ d'.read target = d.read target := by
  cases hcut with
  | undone => exact ⟨h, rfl⟩
  | created name =>
    have hname : name = source := by simpa [DiskCall.replace] using hcall
    subst hname
    exact ⟨h.create hne, h.read_create hne⟩
  | appended name hpart =>
    have hname : name = source := by
      have := hcall
      simp [DiskCall.replace] at this
      exact this.1
    subst hname
    exact h.append

/-- Where the calls all succeed the new bytes are under the target's name; otherwise it is as it was.
In neither case is there a state for a crash to bring back that has other bytes than those. -/
theorem Whole.replace {ok : Bool} (h : d.Whole source target good) (hne : source ≠ target)
    (hruns : DiskCall.Runs (.makeDirectory :: DiskCall.replace source target bytes) d ok d') :
    if ok then d'.Whole source target (insert (some bytes) good) ∧ d'.read target = some bytes
    else d'.Whole source target good ∧ d'.read target = d.read target := by
  have hstop {call : DiskCall ν β} {e e' : Disk ν β}
      (hcall : call ∈ DiskCall.makeDirectory :: DiskCall.replace source target bytes)
      (he : e.Whole source target good ∧ e.read target = d.read target) (hcut : call.Cut e e') :
      e'.Whole source target good ∧ e'.read target = d.read target := by
    obtain ⟨hwhole, hread⟩ := he.1.cut hne hcall hcut
    exact ⟨hwhole, hread.trans he.2⟩
  unfold DiskCall.replace at hruns hstop
  cases hruns with
  | cut hcut => exact hstop (by simp) ⟨h, rfl⟩ hcut
  | next hruns =>
  have hcreated : (d.create source).Whole source target good ∧
      (d.create source).read target = d.read target := ⟨h.create hne, h.read_create hne⟩
  cases hruns with
  | cut hcut => exact hstop (by simp) ⟨h, rfl⟩ hcut
  | next hruns =>
  have happended : ((d.create source).append source bytes).Whole source target good ∧
      ((d.create source).append source bytes).read target = d.read target :=
    ⟨hcreated.1.append.1, hcreated.1.append.2.trans hcreated.2⟩
  have hbytes : ((d.create source).append source bytes).read source = some bytes :=
    read_append_self read_create_self
  cases hruns with
  | cut hcut => exact hstop (by simp) hcreated hcut
  | next hruns =>
  have hsynced := happended.1.sync
  have hread : (((d.create source).append source bytes).sync source).read target = d.read target :=
    (read_sync ..).trans happended.2
  cases hruns with
  | cut hcut => exact hstop (by simp) happended hcut
  | next hruns =>
  cases hruns with
  | cut hcut => exact hstop (by simp) ⟨hsynced, hread⟩ hcut
  | next hruns =>
  cases hruns with
  | done =>
    exact happended.1.sync_rename hne hbytes

end

end Disk

end OcppProxy

import OcppProxy.Library.Machine
import OcppProxy.LocalCallQueue

/-!
# The discipline of the local call queue

`LocalCallQueue` as a machine over its own operations, with what was pushed and what came back. The
invariant `Disciplined` holds after any sequence of operations.
-/

namespace OcppProxy

def limitCommands (requests : List CommandRequest) : List CommandRequest :=
  requests.filter (·.command.isLimitCommand)

/-- At most one limit command is queued, and it is the last one that was `pushed`. -/
def LocalCallQueue.KeepsLatest (q : LocalCallQueue) (pushed : List CommandRequest) : Prop :=
  limitCommands q.queued <:+ limitCommands pushed ∧ (limitCommands q.queued).length ≤ 1

inductive QueueOp where
  | push (request : CommandRequest)
  | nextUniqueId (now : Time)
  | popNext
  /-- With the request popped last. -/
  | setInFlight (prepared : PreparedCall) (now : Time)
  | takeResponse (uniqueId : String)
  | expire (now : Time)
  | drain
  deriving DecidableEq, Repr

/-- A queue, what was pushed on it, the request popped last and not yet in flight, and what the
operations returned otherwise. -/
structure QueueUse where
  calls : LocalCallQueue
  pushed : List CommandRequest := []
  popped : Option CommandRequest := none
  returned : List CommandRequest := []
  deriving DecidableEq

namespace QueueUse

def start (timeout : Duration) (capacity : Nat) : QueueUse := { calls := .new timeout capacity }

def step : Machine QueueUse QueueOp := fun u op =>
  match op with
  | .push request =>
    let (displaced, calls) := u.calls.push request
    some { u with calls, pushed := u.pushed ++ [request], returned := u.returned ++ displaced }
  | .nextUniqueId now => some { u with calls := (u.calls.nextUniqueId now).2 }
  | .popNext =>
    match u.calls.popNext with
    | some (request, calls) =>
      some { u with calls, popped := some request, returned := u.returned ++ u.popped.toList }
    | none => some u
  | .setInFlight prepared now =>
    u.popped.map fun request =>
      { u with calls := u.calls.setInFlight request prepared now, popped := none }
  | .takeResponse uniqueId =>
    match u.calls.takeResponse uniqueId with
    | some (f, calls) => some { u with calls, returned := u.returned ++ [f.request] }
    | none => some u
  | .expire now =>
    let (expired, inFlight, calls) := u.calls.expire now
    some { u with
      calls, returned := u.returned ++ expired ++ inFlight.toList.map InFlight.request }
  | .drain =>
    let (queued, inFlight, calls) := u.calls.drain
    some { u with
      calls, returned := u.returned ++ queued ++ inFlight.toList.map InFlight.request }

end QueueUse

/-! ## The latest limit command -/

section
variable {q : LocalCallQueue} {pushed queued : List CommandRequest} {request : CommandRequest}

theorem limitCommands_append (l l' : List CommandRequest) :
    limitCommands (l ++ l') = limitCommands l ++ limitCommands l' :=
  List.filter_append ..

theorem limitCommands_singleton :
    limitCommands [request] = if request.command.isLimitCommand then [request] else [] := by
  simp [limitCommands, List.filter_cons]

namespace LocalCallQueue

/-- What is left of the queue in order keeps the latest limit command, if any. -/
theorem KeepsLatest.sublist (h : q.KeepsLatest pushed) (hsub : queued.Sublist q.queued) :
    ({ q with queued } : LocalCallQueue).KeepsLatest pushed := by
  obtain ⟨hsuffix, hlength⟩ := h
  have hfilter : (limitCommands queued).Sublist (limitCommands q.queued) := hsub.filter _
  refine ⟨?_, hfilter.length_le.trans hlength⟩
  rcases hone : limitCommands q.queued with _ | ⟨r, _ | ⟨r', rest⟩⟩
  · rw [hone] at hfilter
    rw [List.sublist_nil.mp hfilter]
    exact List.nil_suffix
  · rw [hone] at hfilter hsuffix
    obtain hnil | hsame := List.sublist_singleton.mp hfilter
    · rw [hnil]
      exact List.nil_suffix
    · rw [hsame]
      exact hsuffix
  · rw [hone] at hlength
    simp at hlength

theorem KeepsLatest.push (h : q.KeepsLatest pushed) (request : CommandRequest) :
    (q.push request).2.KeepsLatest (pushed ++ [request]) := by
  obtain ⟨kept, heq, hsub, -, hlimit⟩ := q.push_spec request
  have hkept : ({ q with queued := kept } : LocalCallQueue).KeepsLatest pushed := h.sublist hsub
  rw [heq]
  unfold KeepsLatest at hkept ⊢
  simp only [limitCommands_append, limitCommands_singleton]
  cases hl : request.command.isLimitCommand with
  | false => simpa using hkept
  | true =>
    have hnone : limitCommands kept = [] := by
      refine List.filter_eq_nil_iff.mpr fun r hr => ?_
      simp [hlimit hl r hr]
    simp [hnone]

end LocalCallQueue

end

namespace LocalCallQueue

theorem push_fields (q : LocalCallQueue) (request : CommandRequest) :
    (q.push request).2.inFlight = q.inFlight ∧ (q.push request).2.capacity = q.capacity ∧
      (q.push request).2.timeout = q.timeout :=
  ⟨rfl, rfl, rfl⟩

/-- A push on a full queue makes room first. -/
theorem push_length (q : LocalCallQueue) (request : CommandRequest)
    (h : q.queued.length ≤ q.capacity) : (q.push request).2.queued.length ≤ q.capacity := by
  have hpos := q.capacity_pos
  have hroom (kept : List CommandRequest) (hkept : kept.length ≤ q.capacity) :
      (kept.drop (if q.capacity ≤ kept.length then 1 else 0) ++ [request]).length ≤ q.capacity := by
    rw [List.length_append, List.length_drop, List.length_singleton]
    split <;> omega
  apply hroom
  split
  · exact (List.length_filter_le _ _).trans h
  · exact h

end LocalCallQueue

namespace QueueUse

structure Disciplined (timeout : Duration) (capacity : Nat) (u : QueueUse) : Prop where
  timeout_eq : u.calls.timeout = timeout
  capacity_eq : u.calls.capacity = max capacity 1
  bounded : u.calls.queued.length ≤ max capacity 1
  latest : u.calls.KeepsLatest u.pushed
  alone : u.popped.isSome → u.calls.inFlight = none
  /-- What has left the queue last was pushed before everything still in it. -/
  ordered : (u.calls.inFlight.toList.map InFlight.request ++ u.popped.toList ++
    u.calls.queued).Sublist u.pushed
  conserved : u.pushed.Perm (u.calls.queued ++ u.calls.inFlight.toList.map InFlight.request ++
    u.popped.toList ++ u.returned)

section
variable {timeout : Duration} {capacity : Nat} {u v : QueueUse} {op : QueueOp}

theorem start_disciplined : (start timeout capacity).Disciplined timeout capacity where
  timeout_eq := rfl
  capacity_eq := rfl
  bounded := Nat.zero_le _
  latest := ⟨List.suffix_refl _, Nat.zero_le _⟩
  alone _ := rfl
  ordered := .slnil
  conserved := .refl _

theorem Disciplined.push (h : u.Disciplined timeout capacity) (request : CommandRequest) :
    Disciplined timeout capacity { u with
      calls := (u.calls.push request).2
      pushed := u.pushed ++ [request]
      returned := u.returned ++ (u.calls.push request).1 } := by
  obtain ⟨hinFlight, hcapacity, htimeout⟩ := u.calls.push_fields request
  obtain ⟨kept, heq, hsub, hperm, -⟩ := u.calls.push_spec request
  have hqueued : (u.calls.push request).2.queued = kept ++ [request] := by rw [heq]
  have hlength := u.calls.push_length request (h.capacity_eq ▸ h.bounded)
  rw [h.capacity_eq] at hlength
  refine ⟨htimeout.trans h.timeout_eq, hcapacity.trans h.capacity_eq, hlength,
    h.latest.push request, fun hp => hinFlight.trans (h.alone hp), ?_, ?_⟩
  · simp only [hinFlight, hqueued, ← List.append_assoc]
    refine List.Sublist.append ?_ (.refl _)
    exact (List.Sublist.append (.refl _) hsub).trans h.ordered
  · simp only [hinFlight, hqueued]
    refine List.perm_iff_count.mpr fun r => ?_
    have hconserved := List.perm_iff_count.mp h.conserved r
    have hdisplaced := List.perm_iff_count.mp hperm r
    simp only [List.count_append] at hconserved hdisplaced ⊢
    omega

/-- Requests that leave the queue, in order of what stays, and a slot that keeps its Call or
loses it. -/
theorem Disciplined.shrink (h : u.Disciplined timeout capacity) {queued out : List CommandRequest}
    {slot : Option InFlight} (hsub : queued.Sublist u.calls.queued)
    (hslot : slot = u.calls.inFlight ∨ slot = none)
    (hperm : (u.calls.queued ++ u.calls.inFlight.toList.map InFlight.request).Perm
      (queued ++ slot.toList.map InFlight.request ++ out)) :
    Disciplined timeout capacity { u with
      calls := { u.calls with queued, inFlight := slot }
      returned := u.returned ++ out } := by
  refine ⟨h.timeout_eq, h.capacity_eq, hsub.length_le.trans h.bounded, h.latest.sublist hsub,
    fun hp => ?_, ?_, ?_⟩
  · obtain rfl | rfl := hslot
    · exact h.alone hp
    · rfl
  · refine List.Sublist.trans ?_ h.ordered
    refine List.Sublist.append (List.Sublist.append ?_ (.refl _)) hsub
    obtain rfl | rfl := hslot
    · exact .refl _
    · exact List.nil_sublist _
  · refine List.perm_iff_count.mpr fun r => ?_
    have hconserved := List.perm_iff_count.mp h.conserved r
    have hout := List.perm_iff_count.mp hperm r
    simp only [List.count_append] at hconserved hout ⊢
    omega

theorem Disciplined.popNext (h : u.Disciplined timeout capacity) {request : CommandRequest}
    {calls : LocalCallQueue} (hpop : u.calls.popNext = some (request, calls)) :
    Disciplined timeout capacity { u with
      calls, popped := some request, returned := u.returned ++ u.popped.toList } := by
  obtain ⟨hidle, rest, hqueued, rfl⟩ := u.calls.popNext_eq_some.mp hpop
  have hsub : rest.Sublist u.calls.queued := by
    rw [hqueued]
    exact List.sublist_cons_self request rest
  refine ⟨h.timeout_eq, h.capacity_eq, hsub.length_le.trans h.bounded, h.latest.sublist hsub,
    fun _ => hidle, ?_, ?_⟩
  · refine List.Sublist.trans ?_ h.ordered
    simp [hidle, hqueued]
  · refine List.perm_iff_count.mpr fun r => ?_
    have hconserved := List.perm_iff_count.mp h.conserved r
    simp only [hqueued, List.count_append, List.count_cons, Option.toList_some,
      List.count_nil] at hconserved ⊢
    omega

theorem Disciplined.setInFlight (h : u.Disciplined timeout capacity) {request : CommandRequest}
    (hpopped : u.popped = some request) (prepared : PreparedCall) (now : Time) :
    Disciplined timeout capacity { u with
      calls := u.calls.setInFlight request prepared now, popped := none } := by
  have hidle : u.calls.inFlight = none := h.alone (by simp [hpopped])
  have hordered := h.ordered
  have hconserved := h.conserved
  rw [hidle, hpopped] at hordered hconserved
  refine ⟨h.timeout_eq, h.capacity_eq, h.bounded, h.latest, by simp, ?_, ?_⟩
  · simpa [LocalCallQueue.setInFlight] using hordered
  · simpa [LocalCallQueue.setInFlight] using hconserved

theorem Disciplined.step (h : u.Disciplined timeout capacity) (hstep : step u op = some v) :
    v.Disciplined timeout capacity := by
  cases op with
  | push request =>
    obtain rfl := Option.some.inj hstep
    exact h.push request
  | nextUniqueId now =>
    obtain rfl := Option.some.inj hstep
    exact ⟨h.timeout_eq, h.capacity_eq, h.bounded, h.latest, h.alone, h.ordered, h.conserved⟩
  | popNext =>
    simp only [QueueUse.step] at hstep
    split at hstep
    · rename_i request calls hpop
      obtain rfl := Option.some.inj hstep
      exact h.popNext hpop
    · obtain rfl := Option.some.inj hstep
      exact h
  | setInFlight prepared now =>
    obtain ⟨request, hpopped, rfl⟩ := Option.map_eq_some_iff.mp hstep
    exact h.setInFlight hpopped prepared now
  | takeResponse uniqueId =>
    simp only [QueueUse.step] at hstep
    split at hstep
    · rename_i f calls htake
      obtain ⟨hf, -, rfl⟩ := u.calls.takeResponse_eq_some.mp htake
      obtain rfl := Option.some.inj hstep
      exact h.shrink (.refl _) (.inr rfl) (by simp [hf])
    · obtain rfl := Option.some.inj hstep
      exact h
  | expire now =>
    have hv : v = { u with
        calls := (u.calls.expire now).2.2
        returned := u.returned ++ (u.calls.expire now).1 ++
          (u.calls.expire now).2.1.toList.map InFlight.request } := (Option.some.inj hstep).symm
    obtain ⟨slot, hcalls, hexpired, hslot⟩ := u.calls.expire_spec now
    rw [hv, hcalls, hexpired, List.append_assoc]
    refine h.shrink List.filter_sublist ?_ ?_
    · obtain ⟨-, hsame⟩ | ⟨-, hnone⟩ := hslot
      · exact .inl hsame
      · exact .inr hnone
    · have hsplit := List.filter_append_perm (u.calls.isStale now) u.calls.queued
      refine List.perm_iff_count.mpr fun r => ?_
      have hcount := List.perm_iff_count.mp hsplit r
      obtain ⟨hnone, rfl⟩ | ⟨⟨f, hsome, hf, -⟩, rfl⟩ := hslot
      · simp only [hnone, List.count_append, Option.toList_none, List.map_nil,
          List.count_nil] at hcount ⊢
        omega
      · simp only [hsome, hf, List.count_append, Option.toList_none, List.map_nil,
          List.count_nil] at hcount ⊢
        omega
  | drain =>
    obtain rfl := Option.some.inj hstep
    simp only [List.append_assoc]
    exact h.shrink (List.nil_sublist _) (.inr rfl) (by simp)

theorem disciplined_of_run {ops : List QueueOp}
    (hrun : QueueUse.step.run (start timeout capacity) ops = some u) :
    u.Disciplined timeout capacity :=
  Machine.invariant _ (fun _ _ _ hstep h => h.step hstep) hrun start_disciplined

/-- After any operations the queue is bounded, holds at most the latest limit command, keeps the
push order, has one Call in flight at a time that only its own id takes, gives up exactly what has
waited as long as the timeout, and every pushed request is in one place. -/
theorem queue_discipline {ops : List QueueOp}
    (hrun : QueueUse.step.run (start timeout capacity) ops = some u) :
    u.calls.queued.length ≤ max capacity 1 ∧
      (limitCommands u.calls.queued).length ≤ 1 ∧
      limitCommands u.calls.queued <:+ limitCommands u.pushed ∧
      (u.calls.inFlight.toList.map InFlight.request ++ u.popped.toList ++
        u.calls.queued).Sublist u.pushed ∧
      (u.calls.inFlight.isSome → u.calls.popNext = none) ∧
      (∀ uniqueId f calls, u.calls.takeResponse uniqueId = some (f, calls) ↔
        u.calls.inFlight = some f ∧ f.prepared.uniqueId = uniqueId ∧
          calls = { u.calls with inFlight := none }) ∧
      (∀ now, (u.calls.expire now).1 =
          u.calls.queued.filter (fun r => decide ((timeout : Int) ≤ now - r.issuedAt)) ∧
        (u.calls.expire now).2.2.queued =
          u.calls.queued.filter (fun r => !decide ((timeout : Int) ≤ now - r.issuedAt))) ∧
      u.pushed.Perm (u.calls.queued ++ u.calls.inFlight.toList.map InFlight.request ++
        u.popped.toList ++ u.returned) := by
  have h := disciplined_of_run hrun
  refine ⟨h.bounded, h.latest.2, h.latest.1, h.ordered, fun hbusy => ?_,
    fun uniqueId f calls => u.calls.takeResponse_eq_some, fun now => ?_, h.conserved⟩
  · unfold LocalCallQueue.popNext
    rw [if_pos hbusy]
  · -- the queue splits at the timeout, in its order
    obtain ⟨slot, hcalls, hexpired, -⟩ := u.calls.expire_spec now
    rw [hcalls, hexpired, ← h.timeout_eq]
    exact ⟨rfl, rfl⟩

/-- A limit command that supersedes another, one that is sent and answered, and a stale one. -/
def queueUse : List QueueOp :=
  let request (id : String) (command : ProxyCommand) : CommandRequest := .new 0 id command .mqtt
  let prepared : PreparedCall :=
    { uniqueId := "proxy-0-1", action := "GetConfiguration", raw := "", appliedLimitA := none
      detail := none }
  [.push (request "a" (.setCurrentLimit 16)), .push (request "b" (.getConfiguration [])),
    .push (request "c" .clearCurrentLimit), .popNext, .nextUniqueId 0, .setInFlight prepared 0,
    .popNext, .takeResponse "proxy-0-1", .expire (Duration.fromSecs 30)]

theorem queue_discipline_queueUse : ∃ u, QueueUse.step.run (start (Duration.fromSecs 30) 2)
    queueUse = some u ∧ u.returned.map CommandRequest.id = ["a", "b", "c"] ∧
      u.pushed.Perm (u.calls.queued ++ u.calls.inFlight.toList.map InFlight.request ++
        u.popped.toList ++ u.returned) := by
  have hreturned : (QueueUse.step.run (start (Duration.fromSecs 30) 2) queueUse).map
      (fun u => u.returned.map CommandRequest.id) = some ["a", "b", "c"] := by
    decide +kernel
  obtain ⟨u, hrun, hids⟩ := Option.map_eq_some_iff.mp hreturned
  have h := queue_discipline hrun
  exact ⟨u, hrun, hids, h.2.2.2.2.2.2.2⟩

end

end QueueUse

end OcppProxy

import OcppProxy.Command

namespace OcppProxy

/-- The per-session queue of proxy Calls: one in flight, queued limit commands coalesce. -/
structure LocalCallQueue where
  queued : List CommandRequest
  inFlight : Option InFlight
  timeout : Duration
  capacity : Nat
  sequence : Nat
  capacity_pos : 0 < capacity
  deriving DecidableEq, Repr

namespace LocalCallQueue

def new (timeout : Duration) (capacity : Nat) : LocalCallQueue :=
  { queued := [], inFlight := none, timeout, capacity := max capacity 1, sequence := 0
    capacity_pos := by omega }

/-- Queue a request. Returns the requests it displaces: older unsent limit commands, and the oldest
entry if the queue is full. -/
def push (q : LocalCallQueue) (request : CommandRequest) : List CommandRequest × LocalCallQueue :=
  let isLimit := request.command.isLimitCommand
  let superseded := if isLimit then q.queued.filter (·.command.isLimitCommand) else []
  let kept := if isLimit then q.queued.filter (!·.command.isLimitCommand) else q.queued
  -- `pop_front` when the queue is full
  let full := if q.capacity ≤ kept.length then 1 else 0
  (superseded ++ kept.take full, { q with queued := kept.drop full ++ [request] })

def hasInFlight (q : LocalCallQueue) : Bool := q.inFlight.isSome

def isEmpty (q : LocalCallQueue) : Bool := q.queued.isEmpty && q.inFlight.isNone

def queuedLen (q : LocalCallQueue) : Nat := q.queued.length

def isOurs (q : LocalCallQueue) (uniqueId : String) : Bool :=
  q.inFlight.any fun f => f.prepared.uniqueId == uniqueId

def nextUniqueId (q : LocalCallQueue) (now : Time) : String × LocalCallQueue :=
  let sequence := q.sequence + 1
  (s!"{uniqueIdPrefix}{now.timestampMillis}-{sequence}", { q with sequence })

/-- Pop the next request to send, or `none` while one is in flight or the queue is empty. -/
def popNext (q : LocalCallQueue) : Option (CommandRequest × LocalCallQueue) :=
  if q.inFlight.isSome then none
  else match q.queued with
    | [] => none
    | request :: rest => some (request, { q with queued := rest })

def setInFlight (q : LocalCallQueue) (request : CommandRequest) (prepared : PreparedCall)
    (now : Time) : LocalCallQueue :=
  { q with inFlight := some { request, prepared, sentAt := now } }

def takeResponse (q : LocalCallQueue) (uniqueId : String) : Option (InFlight × LocalCallQueue) :=
  if q.isOurs uniqueId then
    q.inFlight.map fun f => (f, { q with inFlight := none })
  else none

/-- Whether a queued request has waited as long as the timeout, counted from when it was issued. -/
def isStale (q : LocalCallQueue) (now : Time) (request : CommandRequest) : Bool :=
  decide ((q.timeout : Int) ≤ now - request.issuedAt)

/-- The queued requests and the in-flight call that have waited too long, and what remains. The
source takes 30 s for a timeout that `chrono` cannot hold (`Duration::from_std`); `validate` admits
none. -/
def expire (q : LocalCallQueue) (now : Time) :
    List CommandRequest × Option InFlight × LocalCallQueue :=
  let expired := q.queued.filter (q.isStale now)
  let kept := q.queued.filter (!q.isStale now ·)
  match q.inFlight with
  | some f =>
    if (q.timeout : Int) ≤ now - f.sentAt then
      (expired, some f, { q with queued := kept, inFlight := none })
    else (expired, none, { q with queued := kept })
  | none => (expired, none, { q with queued := kept })

def drain (q : LocalCallQueue) : List CommandRequest × Option InFlight × LocalCallQueue :=
  (q.queued, q.inFlight, { q with queued := [], inFlight := none })

def held (q : LocalCallQueue) : List CommandRequest :=
  q.inFlight.toList.map InFlight.request ++ q.queued

section
variable (q : LocalCallQueue) (request : CommandRequest) (now : Time)

/-- What `push` keeps is in the old order, and with what it displaces it is the old queue; a limit
command keeps no other limit command. -/
theorem push_spec : ∃ kept, (q.push request).2 = { q with queued := kept ++ [request] } ∧
    kept.Sublist q.queued ∧ ((q.push request).1 ++ kept).Perm q.queued ∧
    (request.command.isLimitCommand → ∀ r ∈ kept, r.command.isLimitCommand = false) := by
  refine ⟨_, rfl, ?_, ?_, ?_⟩
  · refine (List.drop_sublist _ _).trans ?_
    split
    · exact List.filter_sublist
    · exact List.Sublist.refl _
  · simp only [push, List.append_assoc, List.take_append_drop]
    split
    · exact List.filter_append_perm _ _
    · simp
  · intro hl r hr
    have hmem := List.mem_of_mem_drop hr
    rw [if_pos hl] at hmem
    simpa using (List.mem_filter.mp hmem).2

/-- A displaced request was queued. -/
theorem mem_queued_of_mem_push {r : CommandRequest} (h : r ∈ (q.push request).1) :
    r ∈ q.queued := by
  obtain ⟨kept, -, -, hperm, -⟩ := q.push_spec request
  exact hperm.subset (List.mem_append_left _ h)

theorem popNext_eq_some {r : CommandRequest} {q' : LocalCallQueue} :
    q.popNext = some (r, q') ↔
      q.inFlight = none ∧ ∃ rest, q.queued = r :: rest ∧ q' = { q with queued := rest } := by
  unfold popNext
  cases hf : q.inFlight with
  | some f => simp
  | none => cases hq : q.queued with
    | nil => simp
    | cons head rest =>
      simp only [Option.isSome_none, Bool.false_eq_true, if_false, Option.some.injEq, Prod.mk.injEq,
        List.cons.injEq, true_and]
      constructor
      · rintro ⟨rfl, rfl⟩
        exact ⟨rest, ⟨rfl, rfl⟩, rfl⟩
      · rintro ⟨_, ⟨rfl, rfl⟩, rfl⟩
        exact ⟨rfl, rfl⟩

theorem takeResponse_eq_some {uniqueId : String} {f : InFlight} {q' : LocalCallQueue} :
    q.takeResponse uniqueId = some (f, q') ↔
      q.inFlight = some f ∧ f.prepared.uniqueId = uniqueId ∧ q' = { q with inFlight := none } := by
  unfold takeResponse isOurs
  cases hf : q.inFlight with
  | none => simp
  | some g =>
    by_cases hid : g.prepared.uniqueId = uniqueId
    · simp only [hid, Option.any_some, beq_self_eq_true, if_true, Option.map_some,
        Option.some.injEq, Prod.mk.injEq]
      constructor
      · rintro ⟨rfl, rfl⟩
        exact ⟨rfl, hid, rfl⟩
      · rintro ⟨rfl, -, rfl⟩
        exact ⟨rfl, rfl⟩
    · simp only [Option.any_some, beq_iff_eq, hid, if_false, reduceCtorEq, Option.some.injEq,
        false_iff, not_and]
      rintro rfl h
      exact absurd h hid

theorem takeResponse_eq_none {uniqueId : String} :
    q.takeResponse uniqueId = none ↔ q.isOurs uniqueId = false := by
  unfold takeResponse
  cases hf : q.inFlight with
  | none => simp [isOurs, hf]
  | some f => simp

/-- The loop consumes a frame that is no Call and carries the id in flight. -/
theorem ours_eq_some {frame : OcppFrame} {f : InFlight} {q' : LocalCallQueue} :
    (if frame.messageType.isCall then none else q.takeResponse frame.uniqueId) = some (f, q') ↔
      frame.messageType.isCall = false ∧ q.inFlight = some f ∧
        f.prepared.uniqueId = frame.uniqueId ∧ q' = { q with inFlight := none } := by
  rw [← takeResponse_eq_some]
  cases frame.messageType.isCall <;> simp

theorem ours_eq_none {frame : OcppFrame} :
    (if frame.messageType.isCall then none else q.takeResponse frame.uniqueId) = none ↔
      frame.messageType.isCall = true ∨ q.isOurs frame.uniqueId = false := by
  rw [← takeResponse_eq_none]
  cases frame.messageType.isCall <;> simp

theorem isOurs_of_inFlight {uniqueId : String} {f : InFlight} (hf : q.inFlight = some f)
    (hid : f.prepared.uniqueId = uniqueId) : q.isOurs uniqueId = true := by
  simp [isOurs, hf, hid]

/-- `expire` splits the queue into the stale requests and the rest, and the slot likewise. -/
theorem expire_spec : ∃ slot, (q.expire now).2.2 =
      { q with queued := q.queued.filter (!q.isStale now ·), inFlight := slot } ∧
    (q.expire now).1 = q.queued.filter (q.isStale now) ∧
    ((q.expire now).2.1 = none ∧ slot = q.inFlight ∨
      (∃ f, (q.expire now).2.1 = some f ∧ q.inFlight = some f ∧
        (q.timeout : Int) ≤ now - f.sentAt) ∧ slot = none) := by
  unfold expire
  cases hf : q.inFlight with
  | none => exact ⟨none, by simp, rfl, .inl ⟨rfl, rfl⟩⟩
  | some f =>
    simp only
    split
    · exact ⟨none, rfl, rfl, .inr ⟨⟨f, rfl, rfl, ‹_›⟩, rfl⟩⟩
    · exact ⟨some f, by simp, rfl, .inl ⟨rfl, rfl⟩⟩

/-- An empty queue has nothing that expires. -/
theorem held_expire (h : q.held = []) : (q.expire now).2.2.held = [] := by
  obtain ⟨slot, hcalls, -, hslot⟩ := q.expire_spec now
  obtain ⟨hf, hq⟩ : q.inFlight = none ∧ q.queued = [] := by simpa [held] using h
  rcases hslot with ⟨-, rfl⟩ | ⟨⟨f, -, hbusy, -⟩, -⟩
  · simp [hcalls, held, hf, hq]
  · cases hf.symm.trans hbusy

end

end LocalCallQueue

end OcppProxy

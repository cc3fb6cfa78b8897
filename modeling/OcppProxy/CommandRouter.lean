import OcppProxy.Command
import Mathlib.Data.List.AList

namespace OcppProxy

inductive DispatchError where
  | notConnected
  | queueFull
  deriving DecidableEq, Repr

/-- The bounded channel into one session: what waits in it, whether its receiver lives, and for the
record every request it ever took. -/
structure Inbox where
  queue : List CommandRequest := []
  receiverAlive : Bool := true
  accepted : List CommandRequest := []
  deriving DecidableEq, Repr

def Inbox.put (inbox : Inbox) (request : CommandRequest) : Inbox :=
  { inbox with
    queue := inbox.queue ++ [request]
    accepted := inbox.accepted ++ [request] }

def Inbox.take (inbox : Inbox) (n : Nat) : Inbox := { inbox with queue := inbox.queue.drop n }

/-- The channel after its receiver was dropped, with whatever was left in it. -/
def Inbox.close (inbox : Inbox) : Inbox := { inbox with queue := [], receiverAlive := false }

/-- `mpsc::Sender::try_send` on a channel of `commandChannelCapacity`. -/
def Inbox.trySend (inbox : Inbox) (request : CommandRequest) : Except DispatchError Inbox :=
  if !inbox.receiverAlive then .error .notConnected
  else if commandChannelCapacity ≤ inbox.queue.length then .error .queueFull
  else .ok (inbox.put request)

theorem Inbox.trySend_eq_ok {inbox inbox' : Inbox} {request : CommandRequest} :
    inbox.trySend request = .ok inbox' ↔ inbox.receiverAlive = true ∧
      inbox.queue.length < commandChannelCapacity ∧ inbox' = inbox.put request := by
  unfold trySend
  cases inbox.receiverAlive with
  | false => simp
  | true =>
    by_cases h : commandChannelCapacity ≤ inbox.queue.length
    · simp only [Bool.not_true, Bool.false_eq_true, if_false, h, if_true, reduceCtorEq, true_and,
        false_iff]
      omega
    · simp only [Bool.not_true, Bool.false_eq_true, if_false, h, Except.ok.injEq, true_and]
      constructor
      · rintro rfl
        exact ⟨by omega, rfl⟩
      · rintro ⟨-, rfl⟩
        rfl

/-- The channels of all connections, by connection number. -/
abbrev Inboxes := Nat → Inbox

/-- A registered sender: the connection's generation and the channel it sends into. -/
structure Registration where
  generation : Nat
  tx : Nat
  deriving DecidableEq, Repr

structure CommandRouter where
  registrations : AList fun _ : String => Registration

namespace CommandRouter

def empty : CommandRouter := ⟨∅⟩

def find? (router : CommandRouter) (chargePointId : String) : Option Registration :=
  router.registrations.lookup chargePointId

def register (router : CommandRouter) (chargePointId : String) (generation tx : Nat) :
    CommandRouter :=
  ⟨router.registrations.insert chargePointId { generation, tx }⟩

/-- Remove the registration if it still belongs to this generation. -/
def deregister (router : CommandRouter) (chargePointId : String) (generation : Nat) :
    Bool × CommandRouter :=
  match router.find? chargePointId with
  | some registration =>
    if registration.generation = generation then
      (true, ⟨router.registrations.erase chargePointId⟩)
    else (false, router)
  | none => (false, router)

/-- Hand a request to the session; a full inbox is an error the caller reports. -/
def dispatch (router : CommandRouter) (inboxes : Inboxes) (chargePointId : String)
    (request : CommandRequest) : Except DispatchError Inboxes :=
  match router.find? chargePointId with
  | none => .error .notConnected
  | some registration =>
    ((inboxes registration.tx).trySend request).map (Function.update inboxes registration.tx)

section
variable (router : CommandRouter) (chargePointId : String) (generation tx : Nat)

@[simp] theorem find?_empty : empty.find? chargePointId = none := rfl

@[simp] theorem find?_register (id : String) :
    (router.register chargePointId generation tx).find? id =
      if id = chargePointId then some { generation, tx } else router.find? id := by
  unfold find? register
  by_cases h : id = chargePointId
  · subst h
    simp
  · simp [h]

theorem find?_deregister (id : String) :
    (router.deregister chargePointId generation).2.find? id =
      if id = chargePointId ∧ (router.find? chargePointId).any (·.generation == generation)
      then none else router.find? id := by
  unfold deregister
  cases hf : router.find? chargePointId with
  | none => simp
  | some registration =>
    by_cases hg : registration.generation = generation
    · by_cases h : id = chargePointId
      · subst h
        simp [hg, find?]
      · simp [hg, h, find?]
    · simp [hg]

theorem dispatch_eq_ok {inboxes inboxes' : Inboxes} {request : CommandRequest} :
    router.dispatch inboxes chargePointId request = .ok inboxes' ↔
      ∃ registration, router.find? chargePointId = some registration ∧
        (inboxes registration.tx).receiverAlive = true ∧
        (inboxes registration.tx).queue.length < commandChannelCapacity ∧
        inboxes' = Function.update inboxes registration.tx
          ((inboxes registration.tx).put request) := by
  unfold dispatch
  cases hf : router.find? chargePointId with
  | none => simp
  | some registration =>
    simp only [Option.some.injEq, exists_eq_left']
    cases hs : (inboxes registration.tx).trySend request with
    | error e =>
      simp only [Except.map, reduceCtorEq, false_iff]
      rintro ⟨ha, hl, -⟩
      have hok : (inboxes registration.tx).trySend request = .ok _ :=
        Inbox.trySend_eq_ok.mpr ⟨ha, hl, rfl⟩
      cases hs.symm.trans hok
    | ok inbox' =>
      obtain ⟨ha, hl, rfl⟩ := Inbox.trySend_eq_ok.mp hs
      simp only [Except.map, Except.ok.injEq, ha, hl, true_and]
      exact eq_comm

end

end CommandRouter

end OcppProxy

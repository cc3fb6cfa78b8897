import OcppProxy.CallSteps
import OcppProxy.QueueDiscipline
import OcppProxy.SessionCommands

/-!
# Why a request is displaced

A request leaves the queue for a newer one for two reasons, and the session tells them apart by the
kind of the request that leaves. They disagree where a command that is not a limit command finds the
queue full and a limit command at its front.
-/

namespace OcppProxy

open Relation (ReflTransGen)

/-- Every displaced request was read before the one that displaced it. -/
def DisplacesEarlier (entries : List Entry) : Prop :=
  ∀ before newer request result after,
    entries = before ++ .displaced newer request result :: after →
      ∃ earlier later, before = earlier ++ .received newer :: later ∧
        request ∈ earlier.filterMap Entry.received?

section
variable {cx : SessionContext} {requests : List CommandRequest} {v w : LocalView}
  {entries new : List Entry}

theorem DisplacesEarlier.append (h : DisplacesEarlier entries)
    (hnew : ∀ e ∈ new, e.displaced? = none) : DisplacesEarlier (entries ++ new) := by
  intro before newer request result after hsplit
  obtain ⟨after', hentries⟩ | ⟨before', -, hnew'⟩ := split_append hsplit
  · exact h before newer request result after' hentries
  · have hnone := hnew (.displaced newer request result) (by simp [hnew'])
    cases hnone

theorem DisplacesEarlier.receive (h : DisplacesEarlier entries) {newer : CommandRequest}
    {displaced : List CommandRequest} {resultOf : CommandRequest → CommandResult}
    (hread : ∀ r ∈ displaced, r ∈ entries.filterMap Entry.received?) :
    DisplacesEarlier (entries ++ .received newer ::
      displaced.map fun r => .displaced newer r (resultOf r)) := by
  intro before newer' request result after hsplit
  obtain ⟨after', hentries⟩ | ⟨before', hbefore, hnew⟩ := split_append hsplit
  · exact h before newer' request result after' hentries
  · cases before' with
    | nil => cases hnew
    | cons e before' =>
      obtain ⟨rfl, hdisplaced⟩ := List.cons.inj hnew
      have hmem : Entry.displaced newer' request result ∈
          displaced.map fun r => Entry.displaced newer r (resultOf r) := by
        simp [hdisplaced]
      obtain ⟨r, hr, heq⟩ := List.mem_map.mp hmem
      cases heq
      exact ⟨entries, before', hbefore, hread _ hr⟩

theorem DisplacesEarlier.step (h : LocalStep cx v w) (hv : v.Accounted cx requests)
    (hordered : DisplacesEarlier v.entries) : DisplacesEarlier w.entries := by
  cases h with
  | @receive request inbox q es resultOf hresult =>
    refine hordered.receive fun r hr => ?_
    have hheld : r ∈ q.held := List.mem_append_right _ (q.mem_queued_of_mem_push request hr)
    exact hv.answered.symm.subset (List.mem_append_right _ hheld)
  | renumber => exact hordered
  | _ => exact hordered.append (by simp [Entry.displaced?])

theorem DisplacesEarlier.steps (h : LocalSteps cx v w) (hv : v.Accounted cx requests)
    (hordered : DisplacesEarlier v.entries) : DisplacesEarlier w.entries := by
  induction h with
  | refl => exact hordered
  | tail hsteps hstep ih => exact DisplacesEarlier.step hstep (hv.steps hsteps) ih

end

namespace Session

/-- Whether the request an event brings finds room or may take it from the oldest request. -/
def RoomForOthers (s : Session) (ev : Event) : Prop :=
  s.phase = .forwarding → ∀ request, ev.input = .command (some request) →
    request.command.isLimitCommand = false → s.localCalls.capacity ≤ s.localCalls.queued.length →
      ∀ oldest ∈ s.localCalls.queued.head?, oldest.command.isLimitCommand = false

/-- What a displaced request may be told. -/
structure SupersedesFairly (t : Session) : Prop where
  /-- A limit command goes only for one that was read later and is held or answered. -/
  superseded : ∀ before newer request result after,
    t.trace Entry.local? = before ++ .displaced newer request result :: after →
      request.command.isLimitCommand → ∃ later earlier between,
        later.command.isLimitCommand ∧ before = earlier ++ .received later :: between ∧
          request ∈ earlier.filterMap Entry.received? ∧
            (later ∈ t.localCalls.held ∨ later ∈ (t.trace Entry.answer?).map Prod.fst)
  /-- A request that goes because the queue is full is told so. -/
  rejected : ∀ newer request result, .displaced newer request result ∈ t.trace Entry.local? →
    ¬ (newer.command.isLimitCommand ∧ request.command.isLimitCommand) →
      result.status = .rejected ∧ result.detail = some "command queue full; oldest dropped"
  /-- No other command displaces the last limit command that was read. -/
  latest : ∀ before newer request result after,
    t.trace Entry.local? = before ++ .displaced newer request result :: after →
      newer.command.isLimitCommand = false →
        (limitCommands (before.filterMap Entry.received?)).getLast? ≠ some request

section
variable {cx : SessionContext} {s t : Session} {ev : Event} {events : List Event}

/-- Only a limit command displaces a limit command. -/
def DisplacesLike (displaced : List (CommandRequest × CommandRequest × CommandResult)) : Prop :=
  ∀ newer request result, (newer, request, result) ∈ displaced →
    request.command.isLimitCommand → newer.command.isLimitCommand

/-- A command that is not a limit command displaces the oldest request of a full queue. -/
theorem push_other (q : LocalCallQueue) {request : CommandRequest}
    (h : request.command.isLimitCommand = false) :
    (q.push request).1 = if q.capacity ≤ q.queued.length then q.queued.take 1 else [] := by
  simp only [LocalCallQueue.push, h, Bool.false_eq_true, if_false, List.nil_append]
  split <;> rfl

theorem mem_displacements {newer request : CommandRequest} {result : CommandResult} :
    (newer, request, result) ∈ s.displacements cx ev ↔
      s.phase = .forwarding ∧ ev.input = .command (some newer) ∧
        request ∈ (s.localCalls.push newer).1 ∧
        result = .forRequest cx.crates ev.env.now request (displacedStatus request).1
          (some (displacedStatus request).2) := by
  unfold displacements
  split
  · rename_i read hphase hinput
    simp only [hphase, hinput, List.mem_map, Prod.mk.injEq, Input.command.injEq, Option.some.injEq,
      true_and]
    constructor
    · rintro ⟨r, hr, rfl, rfl, rfl⟩
      exact ⟨rfl, hr, rfl⟩
    · rintro ⟨rfl, hr, rfl⟩
      exact ⟨request, hr, rfl, rfl, rfl⟩
  · rename_i hother
    simp only [List.not_mem_nil, false_iff]
    rintro ⟨hphase, hinput, -⟩
    exact hother newer hphase hinput

theorem displacesLike_displacements :
    DisplacesLike (s.displacements cx ev) ↔ s.RoomForOthers ev := by
  constructor
  · intro h hphase request hinput hother hfull oldest holdest
    rw [Bool.eq_false_iff]
    intro hlimit
    have hpushed : oldest ∈ (s.localCalls.push request).1 := by
      rw [push_other s.localCalls hother, if_pos hfull]
      cases hq : s.localCalls.queued with
      | nil => simp [hq] at holdest
      | cons first rest => simpa [hq, eq_comm] using holdest
    have hnewer := h request oldest _ (mem_displacements.mpr ⟨hphase, hinput, hpushed, rfl⟩) hlimit
    rw [hother] at hnewer
    cases hnewer
  · intro h newer request result hmem hlimit
    obtain ⟨hphase, hinput, hpushed, -⟩ := mem_displacements.mp hmem
    by_contra hother
    have hother : newer.command.isLimitCommand = false := by simpa using hother
    rw [push_other s.localCalls hother] at hpushed
    split at hpushed
    · rename_i hfull
      have hoffer := h hphase newer hinput hother hfull request
      cases hq : s.localCalls.queued with
      | nil => simp [hq] at hpushed
      | cons first rest =>
        obtain rfl : request = first := by simpa [hq] using hpushed
        have hfirst := hoffer (by simp [hq])
        rw [hlimit] at hfirst
        cases hfirst
    · cases hpushed

/-- In a run no limit command goes for another kind of command if and only if none was read while
one was at the front of a full queue. -/
theorem displacesLike_iff {now : Time} {manager : ConnectionStateManager}
    (h : (step cx).run (start cx now manager) events = some t) :
    DisplacesLike (t.trace Entry.displaced?) ↔
      (step cx).Meets RoomForOthers (start cx now manager) events := by
  have hstep (s : Session) (ev : Event) (s' : Session) (_ : True) (hs : step cx s ev = some s') :
      DisplacesLike (s'.trace Entry.displaced?) ↔
        DisplacesLike (s.trace Entry.displaced?) ∧ s.RoomForOthers ev := by
    rw [displaced_of_step hs, ← @displacesLike_displacements cx]
    simp only [DisplacesLike, List.mem_append, or_imp, forall_and]
  have hkept := (step cx).kept_iff (D := fun _ _ => True)
    (P := fun s => DisplacesLike (s.trace Entry.displaced?)) hstep h
    ((step cx).meets_true _ _)
  have hstart : DisplacesLike ((start cx now manager).trace Entry.displaced?) := by
    rw [start_trace cx now manager Entry.displaced? fun _ => rfl]
    intro newer request result hmem
    cases hmem
  rw [hkept]
  exact and_iff_right hstart

/-- What a displaced request is told depends on its own kind. -/
theorem displaced_status {now : Time} {manager : ConnectionStateManager}
    (h : (step cx).run (start cx now manager) events = some t) :
    ∀ d ∈ t.trace Entry.displaced?, d.2.2.status = (displacedStatus d.2.1).1 ∧
      d.2.2.detail = some (displacedStatus d.2.1).2 := by
  refine (step cx).invariant (P := fun t => ∀ d ∈ t.trace Entry.displaced?,
    d.2.2.status = (displacedStatus d.2.1).1 ∧ d.2.2.detail = some (displacedStatus d.2.1).2) ?_ h ?_
  · intro s ev s' hs hall d hd
    rw [displaced_of_step hs] at hd
    obtain hd | hd := List.mem_append.mp hd
    · exact hall d hd
    · obtain ⟨newer, request, result⟩ := d
      obtain ⟨-, -, -, rfl⟩ := mem_displacements.mp hd
      exact ⟨rfl, rfl⟩
  · rw [start_trace cx now manager Entry.displaced? fun _ => rfl]
    simp

theorem displacesEarlier_of_run {now : Time} {manager : ConnectionStateManager}
    (h : (step cx).run (start cx now manager) events = some t) :
    DisplacesEarlier (t.trace Entry.local?) := by
  have hsteps := localSteps_of_run h []
  have hstart := @start_accounted cx now manager (events.flatMap Event.requests ++ [])
  refine DisplacesEarlier.steps hsteps hstart ?_
  rw [start_localView]
  intro before newer request result after hsplit
  simp at hsplit

theorem mem_displaced {newer request : CommandRequest} {result : CommandResult} :
    .displaced newer request result ∈ t.trace Entry.local? ↔
      (newer, request, result) ∈ t.trace Entry.displaced? := by
  have hnone (e : Entry) (he : e.isLocal = false) : e.displaced? = none := by
    cases e <;> first | rfl | cases he
  rw [← filterMap_local hnone, List.mem_filterMap]
  constructor
  · intro h
    exact ⟨_, h, rfl⟩
  · rintro ⟨e, he, heq⟩
    cases e <;> cases heq
    exact he

theorem displacesLike_of_fairly {now : Time} {manager : ConnectionStateManager}
    (h : (step cx).run (start cx now manager) events = some t) (hfair : t.SupersedesFairly) :
    DisplacesLike (t.trace Entry.displaced?) := by
  intro newer request result hmem hlimit
  by_contra hother
  obtain ⟨hrejected, -⟩ := hfair.rejected newer request result (mem_displaced.mpr hmem)
    fun hboth => hother hboth.1
  obtain ⟨hstatus, -⟩ := displaced_status h _ hmem
  rw [hrejected] at hstatus
  simp [displacedStatus, hlimit] at hstatus

theorem fairly_of_displacesLike {now : Time} {manager : ConnectionStateManager}
    (h : (step cx).run (start cx now manager) events = some t)
    (hlike : DisplacesLike (t.trace Entry.displaced?)) : t.SupersedesFairly where
  superseded := by
    intro before newer request result after hsplit hlimit
    have hmem : .displaced newer request result ∈ t.trace Entry.local? := by simp [hsplit]
    have hnewer := hlike newer request result (mem_displaced.mp hmem) hlimit
    obtain ⟨earlier, later, hbefore, hread⟩ := displacesEarlier_of_run h _ _ _ _ _ hsplit
    refine ⟨newer, earlier, later, hnewer, hbefore, hread, ?_⟩
    have hreceived : newer ∈ (t.trace Entry.local?).filterMap Entry.received? := by
      rw [hsplit, hbefore]
      simp [Entry.received?]
    have hview : (t.localView []).Accounted cx (events.flatMap Event.requests ++ []) :=
      (start_accounted now manager _).steps (localSteps_of_run h [])
    have hplace := hview.answered.subset hreceived
    rw [localView, filterMap_local Entry.answer?_of_not_isLocal] at hplace
    exact (List.mem_append.mp hplace).symm
  rejected := by
    intro newer request result hmem hnot
    have hmem := mem_displaced.mp hmem
    have hother : request.command.isLimitCommand = false := by
      rw [Bool.eq_false_iff]
      exact fun hlimit => hnot ⟨hlike newer request result hmem hlimit, hlimit⟩
    obtain ⟨hstatus, hdetail⟩ := displaced_status h _ hmem
    simpa [displacedStatus, hother] using And.intro hstatus hdetail
  latest := by
    intro before newer request result after hsplit hother hlast
    have hmem : .displaced newer request result ∈ t.trace Entry.local? := by simp [hsplit]
    have hlimit : request.command.isLimitCommand = true := by
      have hin := List.mem_of_getLast? hlast
      exact (List.mem_filter.mp hin).2
    have hnewer := hlike newer request result (mem_displaced.mp hmem) hlimit
    rw [hother] at hnewer
    cases hnewer

/-- Displaced requests are told why they go in every state of a run if and only if no command of
another kind is read while a limit command is at the front of a full queue. -/
theorem supersedesFairly_iff {now : Time} {manager : ConnectionStateManager}
    (h : (step cx).run (start cx now manager) events = some t) :
    t.SupersedesFairly ↔ (step cx).Meets RoomForOthers (start cx now manager) events := by
  rw [← displacesLike_iff h]
  exact ⟨displacesLike_of_fairly h, fairly_of_displacesLike h⟩

end

def displacedKinds (t : Session) : List (ProxyCommand × ProxyCommand × CommandStatus) :=
  (t.trace Entry.displaced?).map fun d => (d.1.command, d.2.1.command, d.2.2.status)

def replacedLimit : List Event :=
  let request (id : String) (command : ProxyCommand) : CommandRequest := .new 0 id command .mqtt
  [.at 1 .connected, .at 1 (.command (some (request "a" (.getConfiguration [])))),
    .at 2 (.command (some (request "b" (.setCurrentLimit 16)))),
    .at 3 (.command (some (request "c" .clearCurrentLimit)))]

theorem supersedesFairly_iff_replacedLimit : ∃ t, runOfTable [] replacedLimit = some t ∧
    t.SupersedesFairly ∧ (step (.ofTable [])).Meets RoomForOthers (start (.ofTable []) 0 {})
      replacedLimit := by
  have hkinds : (runOfTable [] replacedLimit).map displacedKinds =
      some [(.clearCurrentLimit, .setCurrentLimit 16, .superseded)] := by
    decide +kernel
  obtain ⟨t, hrun, ht⟩ := Option.map_eq_some_iff.mp hkinds
  have hlike : DisplacesLike (t.trace Entry.displaced?) := by
    intro newer request result hmem _
    have hkind := List.mem_map_of_mem (f := fun d => (d.1.command, d.2.1.command, d.2.2.status)) hmem
    rw [displacedKinds] at ht
    rw [ht, List.mem_singleton] at hkind
    rw [(Prod.mk.inj hkind).1]
    rfl
  have hfair := fairly_of_displacesLike hrun hlike
  exact ⟨t, hrun, hfair, (supersedesFairly_iff hrun).mp hfair⟩

/-- A limit command at the front of a queue that other commands fill. -/
def floodedLimit : List Event :=
  let request (id : String) (command : ProxyCommand) : CommandRequest := .new 0 id command .mqtt
  [.at 1 .connected, .at 1 (.command (some (request "a" (.getConfiguration [])))),
    .at 2 (.command (some (request "b" (.setCurrentLimit 16))))] ++
  List.replicate 32 (.at 3 (.command (some (request "c" (.getConfiguration [])))))

theorem not_supersedesFairly_floodedLimit : ∃ t, runOfTable [] floodedLimit = some t ∧
    ¬ t.SupersedesFairly := by
  have hkinds : (runOfTable [] floodedLimit).map displacedKinds =
      some [(.getConfiguration [], .setCurrentLimit 16, .superseded)] := by
    decide +kernel
  obtain ⟨t, hrun, ht⟩ := Option.map_eq_some_iff.mp hkinds
  refine ⟨t, hrun, fun hfair => ?_⟩
  obtain ⟨⟨newer, request, result⟩, hmem, hkind⟩ := List.mem_map.mp
    (ht ▸ List.mem_singleton.mpr rfl : (ProxyCommand.getConfiguration [],
      ProxyCommand.setCurrentLimit 16, CommandStatus.superseded) ∈ displacedKinds t)
  obtain ⟨hnewer, hkind⟩ := Prod.mk.inj hkind
  obtain ⟨-, hstatus⟩ := Prod.mk.inj hkind
  have hnewer : newer.command = .getConfiguration [] := hnewer
  have hother : ¬ (newer.command.isLimitCommand ∧ request.command.isLimitCommand) := by
    simp [hnewer, ProxyCommand.isLimitCommand]
  have hrejected := (hfair.rejected newer request result (mem_displaced.mpr hmem) hother).1
  rw [show result.status = CommandStatus.superseded from hstatus] at hrejected
  cases hrejected

end Session

end OcppProxy

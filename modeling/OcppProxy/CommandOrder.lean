import OcppProxy.CommandProvenance

/-!
# The order of the commands

Whatever a queue drops, coalesces or lets time out, what reaches the charger does so in the order in
which the publisher handed it on.
-/

namespace OcppProxy

def Entry.calledFor? : Entry → Option CommandRequest
  | call request _ => some request
  | _ => none

/-- What was sent and what is queued is in the order in which it was read. -/
def LocalView.InOrder (v : LocalView) : Prop :=
  (v.entries.filterMap Entry.calledFor? ++ v.calls.queued).Sublist
    (v.entries.filterMap Entry.received?)

section
variable {cx : SessionContext} {v w : LocalView}

theorem LocalView.InOrder.step (h : LocalStep cx v w) (hv : v.InOrder) : w.InOrder := by
  unfold LocalView.InOrder at hv ⊢
  cases h with
  | @receive request inbox q es resultOf hresult =>
    obtain ⟨kept, hpush, hkept, -, -⟩ := q.push_spec request
    have hcalled : (Entry.received request :: (q.push request).1.map fun r =>
        Entry.displaced request r (resultOf r)).filterMap Entry.calledFor? = [] := by
      simp [Entry.calledFor?]
    have hread : (Entry.received request :: (q.push request).1.map fun r =>
        Entry.displaced request r (resultOf r)).filterMap Entry.received? = [request] := by
      simp [Entry.received?]
    rw [hpush, List.filterMap_append, List.filterMap_append, hcalled, hread, List.append_nil,
      ← List.append_assoc]
    exact ((List.Sublist.append (.refl _) hkept).trans hv).append (.refl _)
  | @drop inbox q es before request after result hq hresult =>
    have hqueued : (before ++ after).Sublist q.queued := by
      rw [hq]
      exact (List.Sublist.refl _).append (List.sublist_cons_self ..)
    simpa [Entry.calledFor?, Entry.received?, List.filterMap_cons] using
      (List.Sublist.append (.refl _) hqueued).trans hv
  | renumber => exact hv
  | @send inbox q es request rest uniqueId prepared now hidle hq hp =>
    simpa [Entry.calledFor?, Entry.received?, List.filterMap_cons, LocalCallQueue.setInFlight, hq]
      using hv
  | settle => simpa [Entry.calledFor?, Entry.received?, List.filterMap_cons] using hv
  | @late request inbox q es result hresult =>
    have hread := hv.trans (List.sublist_append_left _ [request])
    simpa [Entry.calledFor?, Entry.received?, List.filterMap_cons] using hread

theorem LocalView.InOrder.steps (h : LocalSteps cx v w) (hv : v.InOrder) : w.InOrder := by
  induction h with
  | refl => exact hv
  | tail _ hmove ih => exact ih.step hmove

end

namespace Process

section
variable {cx : ProxyContext} {config : ProxyConfig} {file : SnapshotMap}
  {events : List ProcessEvent} {x : Process} {n : Nat} {id : String} {s : Session}

theorem inOrder_of_run (hrun : (step cx).run (start config file) events = some x)
    (hs : x.downstream.sessionOf n = some (id, s)) : (s.localView []).InOrder := by
  have hkept : x.Delivered ∧ ∀ n id s, x.downstream.sessionOf n = some (id, s) →
      (s.localView []).InOrder := by
    refine (step cx).invariant (P := fun x => x.Delivered ∧ ∀ n id s,
      x.downstream.sessionOf n = some (id, s) → (s.localView []).InOrder) ?_ hrun
      ⟨delivered_start, by simp [start, DownstreamState.new, DownstreamState.sessionOf]⟩
    rintro x ev y hstep ⟨hdelivered, hordered⟩
    obtain ⟨sent, hmove, -⟩ := downstreamMove_of_moved (moved_of_step hstep).2
    refine ⟨hdelivered.step hstep, DownstreamState.forall_sessions_of_move
      (P := fun _ s => (s.localView []).InOrder) hdelivered.routed hmove
      (fun id now manager => ?_) ?_ hordered⟩
    · rw [Session.start_localView]
      exact .refl _
    · intro id s t manager ev hs hstep
      have hread : (Session.localView { s with manager } (ev.requests ++ [])).InOrder := hs
      exact hread.steps (Session.localSteps_of_step hstep [])
  exact hkept.2 n id s hs

/-- In every run the commands for which a session has sent a Call, followed by those it still queues,
are some of the commands that the publisher handed on for its charge point, each at most once and in
the order in which they were handed on. -/
theorem calls_in_order_of_run (hrun : (step cx).run (start config file) events = some x)
    (hs : x.downstream.sessionOf n = some (id, s)) :
    (s.trace Entry.calledFor? ++ s.localCalls.queued).Sublist
      ((x.sent.filter (·.1 = id)).map Prod.snd) := by
  have hordered := inOrder_of_run hrun hs
  obtain ⟨hdelivered, -⟩ := commanded_of_run hrun
  have hread : (s.trace Entry.calledFor? ++ s.localCalls.queued).Sublist
      (s.trace Entry.received?) := by
    rw [← Session.filterMap_local Entry.received?_of_not_isLocal s,
      ← Session.filterMap_local (fun e he => by cases e <;> first | rfl | cases he) s]
    exact hordered
  obtain ⟨task, htask, hsession⟩ := Option.bind_eq_some_iff.mp hs
  obtain ⟨session, hsome, heq⟩ := Option.map_eq_some_iff.mp hsession
  obtain ⟨rfl, rfl⟩ := Prod.mk.inj heq
  have hreceived : (x.downstream.view n).received = session.trace Entry.received? := by
    rw [DownstreamState.view_of_task n htask]
    simp [ConnectionView.received, ConnectionView.session, hsome]
  have haccepted := hreceived ▸ (hdelivered.routed.accounted n).read.sublist
  have hsent : ((x.downstream.inboxes n).accepted.map (task.chargePointId, ·)).Sublist x.sent := by
    have hpart := hdelivered.accounts.sublist n
    rwa [DownstreamState.acceptedFor, htask, Option.elim_some] at hpart
  refine hread.trans (haccepted.trans ?_)
  have hmine := (hsent.filter (·.1 = task.chargePointId)).map Prod.snd
  rw [List.filter_eq_self.mpr (List.forall_mem_map.mpr fun _ _ => by simp)] at hmine
  rw [List.map_map, Function.comp_def, List.map_id'] at hmine
  exact hmine

end

theorem calls_in_order_of_run_commanded : ∃ x s,
    (step commandedContext).run (start commandedConfig ∅) commandedEvents = some x ∧
      x.downstream.sessionOf 0 = some ("CP01", s) ∧ s.trace Entry.calledFor? ≠ [] ∧
      (s.trace Entry.calledFor? ++ s.localCalls.queued).Sublist
        ((x.sent.filter (·.1 = "CP01")).map Prod.snd) := by
  obtain ⟨x, s, request, prepared, hrun, hs, hcall, -⟩ := commandedEvents_sends
  refine ⟨x, s, hrun, hs, ?_, calls_in_order_of_run hrun hs⟩
  obtain ⟨e, he, hlocal⟩ := List.mem_filterMap.mp hcall
  obtain ⟨-, hentry⟩ := Option.ite_none_right_eq_some.mp hlocal
  have hcalled : request ∈ s.trace Entry.calledFor? :=
    List.mem_filterMap.mpr ⟨e, he, by rw [Option.some.inj hentry, Entry.calledFor?]⟩
  exact List.ne_nil_of_mem hcalled

end Process

end OcppProxy

import Mathlib.Data.List.Nodup
import Mathlib.Data.List.Perm.Basic
import Mathlib.Logic.Relation
import Mathlib.Tactic.Common

/-!
# An outbox

Items wait in a buffer until a receiver accepts them from its front. An entry joins at the back; an
announcement goes ahead of everything that waits. The front may also be evicted. `Sound` is what
holds of an outbox whatever moves it makes.
-/

namespace OcppProxy

/-- What waits in an outbox, and what has happened to the items so far. An announcement is kept
with what was waiting when it was made. -/
structure Outbox (α : Type*) where
  buffer : List α
  accepted : List α
  evicted : List α
  entered : List α
  announced : List (α × List α)

namespace Outbox

variable {α : Type*} {isEntry : α → Bool} {o o' : Outbox α}

def seen (o : Outbox α) : List α := o.entered ++ o.announced.map Prod.fst

/-- What an outbox can do. `isEntry` tells entries from announcements. -/
inductive Move (isEntry : α → Bool) : Outbox α → Outbox α → Prop where
  | enter {o : Outbox α} {x : α} (hx : isEntry x = true) (hfresh : x ∉ o.seen) :
    Move isEntry o { o with buffer := o.buffer ++ [x], entered := o.entered ++ [x] }
  | announce {o : Outbox α} {x : α} (hx : isEntry x = false) (hfresh : x ∉ o.seen) :
    Move isEntry o
      { o with buffer := x :: o.buffer, announced := o.announced ++ [(x, o.buffer)] }
  | accept {o : Outbox α} {x : α} {rest : List α} (h : o.buffer = x :: rest) :
    Move isEntry o { o with buffer := rest, accepted := o.accepted ++ [x] }
  | evict {o : Outbox α} {x : α} {rest : List α} (h : o.buffer = x :: rest) :
    Move isEntry o { o with buffer := rest, evicted := o.evicted ++ [x] }

/-- Each item has one place, entries keep their order, and nothing overtakes an announcement. -/
structure Sound (isEntry : α → Bool) (o : Outbox α) : Prop where
  nodup : o.seen.Nodup
  perm : o.seen.Perm (o.accepted ++ o.evicted ++ o.buffer)
  entries : ∀ x ∈ o.entered, isEntry x = true
  announcements : ∀ a ∈ o.announced, isEntry a.1 = false
  fifo : ((o.accepted ++ o.buffer).filter isEntry).Sublist o.entered
  backlog : ∀ a ∈ o.announced, ∀ w ∈ a.2, w ∈ o.seen
  first : ∀ a ∈ o.announced, ∀ w ∈ a.2, ¬ [w, a.1].Sublist (o.accepted ++ o.buffer)

/-- A sublist that an inserted element does not occur in is a sublist without it. -/
theorem sublist_of_insert {a b : List α} {l : List α} {x : α} (hx : x ∉ l)
    (h : l.Sublist (a ++ x :: b)) : l.Sublist (a ++ b) := by
  obtain ⟨l₁, l₂, rfl, h₁, h₂⟩ := List.sublist_append_iff.mp h
  refine h₁.append ?_
  cases h₂ with
  | cons _ h₂ => exact h₂
  | cons_cons _ h₂ => simp at hx

theorem sound_empty : Sound isEntry (⟨[], [], [], [], []⟩ : Outbox α) where
  nodup := List.nodup_nil
  perm := .nil
  entries := by simp
  announcements := by simp
  fifo := .slnil
  backlog := by simp
  first := by simp

/-- Every item seen is accepted, evicted or waiting. -/
theorem Sound.mem_seen (h : Sound isEntry o) {x : α} :
    x ∈ o.seen ↔ x ∈ o.accepted ∨ x ∈ o.evicted ∨ x ∈ o.buffer := by
  rw [h.perm.mem_iff]
  simp

/-- The entries among the items with a place are those that have entered. -/
theorem Sound.entered_perm (h : Sound isEntry o) :
    o.entered.Perm ((o.accepted ++ o.evicted ++ o.buffer).filter isEntry) := by
  have hfilter := h.perm.filter isEntry
  have hentered : o.entered.filter isEntry = o.entered :=
    List.filter_eq_self.mpr h.entries
  have hannounced : (o.announced.map Prod.fst).filter isEntry = [] := by
    refine List.filter_eq_nil_iff.mpr fun x hx => ?_
    obtain ⟨a, ha, rfl⟩ := List.mem_map.mp hx
    simp [h.announcements a ha]
  rwa [seen, List.filter_append, hentered, hannounced, List.append_nil] at hfilter

/-- An item that has just come in was not waiting for anything. -/
theorem not_mem_pair {x w y : α} {l : List α} (hfresh : x ∉ l) (hw : w ∈ l) (hy : y ∈ l) :
    x ∉ [w, y] := by
  simp only [List.mem_cons, List.not_mem_nil, or_false, not_or]
  exact ⟨fun h => hfresh (h ▸ hw), fun h => hfresh (h ▸ hy)⟩

theorem mem_seen_of_announced {a : α × List α} (ha : a ∈ o.announced) : a.1 ∈ o.seen :=
  List.mem_append_right _ (List.mem_map_of_mem ha)

/-- What waits was not accepted before. -/
theorem Sound.not_mem_accepted (h : Sound isEntry o) {w : α} (hw : w ∈ o.buffer) :
    w ∉ o.accepted := by
  have hnodup := h.perm.nodup_iff.mp h.nodup
  rw [List.append_assoc] at hnodup
  exact fun hacc => List.disjoint_of_nodup_append hnodup hacc (List.mem_append_right _ hw)

/-- An item that has come in was not evicted if and only if it was accepted or waits. -/
theorem Sound.spared_iff (h : Sound isEntry o) {x : α} (hx : x ∈ o.seen) :
    x ∉ o.evicted ↔ x ∈ o.accepted ∨ x ∈ o.buffer := by
  have hnodup := h.perm.nodup_iff.mp h.nodup
  constructor
  · intro hnot
    rcases h.mem_seen.mp hx with hacc | hev | hbuf
    · exact .inl hacc
    · exact absurd hev hnot
    · exact .inr hbuf
  · rintro (hacc | hbuf) hev
    · exact List.disjoint_of_nodup_append (List.nodup_append.mp hnodup).1 hacc hev
    · exact List.disjoint_of_nodup_append hnodup (List.mem_append_right _ hev) hbuf

theorem Move.sound (h : Move isEntry o o') (hs : Sound isEntry o) : Sound isEntry o' := by
  cases h with
  | @enter x hx hfresh =>
    have hseen : (seen { o with buffer := o.buffer ++ [x], entered := o.entered ++ [x] }).Perm
        (x :: o.seen) := by
      simp only [seen, List.append_assoc, List.singleton_append]
      exact List.perm_middle
    refine ⟨?_, ?_, fun y hy => ?_, hs.announcements, ?_, fun a ha w hw => ?_,
      fun a ha w hw hsub => ?_⟩
    · exact hseen.nodup_iff.mpr (List.nodup_cons.mpr ⟨hfresh, hs.nodup⟩)
    · refine hseen.trans ((hs.perm.cons x).trans ?_)
      rw [← List.append_assoc]
      exact (List.perm_append_singleton x _).symm
    · rcases List.mem_append.mp hy with hy | hy
      · exact hs.entries y hy
      · exact List.mem_singleton.mp hy ▸ hx
    · simpa [← List.append_assoc, List.filter_append, hx] using hs.fifo.append_right [x]
    · exact hseen.mem_iff.mpr (List.mem_cons_of_mem _ (hs.backlog a ha w hw))
    · have hpair := not_mem_pair hfresh (hs.backlog a ha w hw) (mem_seen_of_announced ha)
      have hold := @sublist_of_insert _ (o.accepted ++ o.buffer) [] _ _ hpair (by simpa using hsub)
      exact hs.first a ha w hw (by simpa using hold)
  | @announce x hx hfresh =>
    have hseen : seen { o with buffer := x :: o.buffer, announced := o.announced ++ [(x, o.buffer)] } =
        o.seen ++ [x] := by simp [seen]
    have hbuffer (w : α) (hw : w ∈ o.buffer) : w ∈ o.seen := hs.mem_seen.mpr (.inr (.inr hw))
    refine ⟨?_, ?_, hs.entries, fun a ha => ?_, ?_, fun a ha w hw => ?_, fun a ha w hw hsub => ?_⟩
    · rw [hseen, (List.perm_append_singleton x _).nodup_iff]
      exact List.nodup_cons.mpr ⟨hfresh, hs.nodup⟩
    · rw [hseen]
      exact (List.perm_append_singleton x _).trans ((hs.perm.cons x).trans List.perm_middle.symm)
    · rcases List.mem_append.mp ha with ha | ha
      · exact hs.announcements a ha
      · exact List.mem_singleton.mp ha ▸ hx
    · simpa [List.filter_append, hx] using hs.fifo
    · rw [hseen]
      rcases List.mem_append.mp ha with ha | ha
      · exact List.mem_append_left _ (hs.backlog a ha w hw)
      · rw [List.mem_singleton.mp ha] at hw
        exact List.mem_append_left _ (hbuffer w hw)
    · rcases List.mem_append.mp ha with ha | ha
      · exact hs.first a ha w hw (sublist_of_insert
          (not_mem_pair hfresh (hs.backlog a ha w hw) (mem_seen_of_announced ha)) hsub)
      · obtain rfl := List.mem_singleton.mp ha
        have hxw : x ≠ w := fun h => hfresh (h ▸ hbuffer w hw)
        -- `w` is taken from the accepted items, or both from what waits
        obtain ⟨l₁, l₂, hl, h₁, h₂⟩ := List.sublist_append_iff.mp hsub
        cases l₁ with
        | nil =>
          obtain rfl : [w, x] = l₂ := hl
          have h₂ := (List.cons_sublist_cons'.mp h₂).resolve_right fun h => hxw h.1.symm
          exact hfresh (hbuffer x (h₂.subset (by simp)))
        | cons y l₁ =>
          obtain ⟨rfl, -⟩ := List.cons.inj hl
          exact hs.not_mem_accepted hw (h₁.subset List.mem_cons_self)
  | @accept x rest hb =>
    have hmove : o.accepted ++ [x] ++ rest = o.accepted ++ o.buffer := by simp [hb]
    refine ⟨hs.nodup, hs.perm.trans ?_, hs.entries, hs.announcements, hmove ▸ hs.fifo, hs.backlog,
      hmove ▸ hs.first⟩
    simp only [hb, List.append_assoc, List.singleton_append]
    exact List.perm_middle.append_left _
  | @evict x rest hb =>
    have hsub : (o.accepted ++ rest).Sublist (o.accepted ++ o.buffer) := by
      rw [hb]
      exact (List.Sublist.refl _).append (List.sublist_cons_self x rest)
    refine ⟨hs.nodup, hs.perm.trans ?_, hs.entries, hs.announcements,
      (hsub.filter isEntry).trans hs.fifo, hs.backlog,
      fun a ha w hw h => hs.first a ha w hw (h.trans hsub)⟩
    simp [hb]

/-- Whatever moves it makes, an outbox stays sound. -/
theorem Sound.moves (hs : Sound isEntry o) (h : Relation.ReflTransGen (Move isEntry) o o') :
    Sound isEntry o' := by
  induction h with
  | refl => exact hs
  | tail _ hmove ih => exact hmove.sound ih

/-! ## The latest of a class

`P` is a class of entries: its latest is the one that entered last. -/

/-- A sublist that has the last element of a list ends in it. -/
theorem getLast?_of_sublist {l l' : List α} {x : α} (h : l'.Sublist l) (hl : l.Nodup)
    (hlast : l.getLast? = some x) (hx : x ∈ l') : l'.getLast? = some x := by
  obtain ⟨init, rfl⟩ := List.getLast?_eq_some_iff.mp hlast
  obtain ⟨l₁, l₂, rfl, h₁, h₂⟩ := List.sublist_append_iff.mp h
  have hnot : x ∉ init := fun hmem =>
    List.disjoint_of_nodup_append hl hmem (List.mem_singleton_self x)
  rcases List.sublist_singleton.mp h₂ with rfl | rfl
  · rw [List.append_nil] at hx
    exact absurd (h₁.subset hx) hnot
  · simp

section
variable {P : α → Prop} [DecidablePred P]

/-- The latest of a class is the last of it that was accepted, once nothing waits, unless it was
evicted. -/
theorem Sound.latest_accepted (h : Sound isEntry o) (hP : ∀ x ∈ o.seen, P x → isEntry x = true)
    (hempty : o.buffer = []) {x : α} (hlast : (o.entered.filter P).getLast? = some x)
    (hkept : x ∉ o.evicted) : (o.accepted.filter P).getLast? = some x := by
  have hentered : x ∈ o.entered := (List.mem_filter.mp (List.mem_of_getLast? hlast)).1
  have hPx : P x := by simpa using (List.mem_filter.mp (List.mem_of_getLast? hlast)).2
  have haccepted : x ∈ o.accepted := by
    have hplace := (h.spared_iff (List.mem_append_left _ hentered)).mp hkept
    simpa [hempty] using hplace
  have hsub : (o.accepted.filter P).Sublist (o.entered.filter P) := by
    have hfifo := h.fifo.filter P
    rw [hempty, List.append_nil, List.filter_filter] at hfifo
    refine (List.filter_congr fun y hy => ?_) ▸ hfifo
    have hseen : y ∈ o.seen := h.mem_seen.mpr (.inl hy)
    by_cases hPy : P y
    · simp [hPy, hP y hseen hPy]
    · simp [hPy]
  have hnodup : (o.entered.filter P).Nodup := (List.nodup_append.mp h.nodup).1.filter _
  exact getLast?_of_sublist hsub hnodup hlast
    (List.mem_filter.mpr ⟨haccepted, by simpa using hPx⟩)

/-- What has another of its class waiting behind it is not the latest. -/
theorem Sound.not_latest (h : Sound isEntry o) (hP : ∀ x ∈ o.seen, P x → isEntry x = true)
    {x y : α} {rest : List α} (hfront : o.buffer = x :: rest) (hy : y ∈ rest) (hPx : P x)
    (hPy : P y) : (o.entered.filter P).getLast? ≠ some x := by
  intro hlast
  have hwaits (z : α) (hz : z ∈ x :: rest) : z ∈ o.seen :=
    h.mem_seen.mpr (.inr (.inr (hfront ▸ hz)))
  have hentryx := hP x (hwaits x List.mem_cons_self) hPx
  have hentryy := hP y (hwaits y (List.mem_cons_of_mem _ hy)) hPy
  have hpair : [x, y].Sublist (o.entered.filter P) := by
    have hbuffer : [x, y].Sublist (o.accepted ++ o.buffer) := by
      rw [hfront]
      exact ((List.singleton_sublist.mpr hy).cons_cons x).trans (List.sublist_append_right _ _)
    have hentries : [x, y].Sublist ((o.accepted ++ o.buffer).filter isEntry) := by
      simpa [hentryx, hentryy] using hbuffer.filter isEntry
    simpa [hPx, hPy] using (hentries.trans h.fifo).filter P
  have hnodup : (o.entered.filter P).Nodup := (List.nodup_append.mp h.nodup).1.filter _
  have hends := getLast?_of_sublist hpair hnodup hlast List.mem_cons_self
  obtain rfl : y = x := by simpa using hends
  exact absurd (hnodup.sublist hpair) (by simp)

end

end Outbox

end OcppProxy

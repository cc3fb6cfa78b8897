import Mathlib.Data.List.Basic
import Mathlib.Data.List.Sublists
import Mathlib.Tactic.Common

/-!
# A bounded queue delivered from its front

Items join at the back. A full queue gives up its oldest item for a new one, the front may be
delivered, and items may be shed from anywhere. `InOrder` is what holds whatever is done to it.
-/

namespace OcppProxy

namespace Fifo

variable {α : Type*} {delivered waiting joined kept : List α}

/-- Join the back of a queue, where a full one first gives up its front. A queue of capacity 0
still takes the item. -/
def pushBounded (capacity : Nat) (waiting : List α) (x : α) : List α :=
  (if capacity ≤ waiting.length then waiting.tail else waiting) ++ [x]

/-- The delivered items and then the waiting ones are the items that joined, in their order, each
at most once. -/
def InOrder (delivered waiting joined : List α) : Prop := (delivered ++ waiting).Sublist joined

theorem InOrder.empty : InOrder ([] : List α) [] [] := .slnil

theorem InOrder.nodup (h : InOrder delivered waiting joined) (hjoined : joined.Nodup) :
    (delivered ++ waiting).Nodup :=
  hjoined.sublist h

/-- Whatever is shed to make room, an item that joins comes last. -/
theorem InOrder.join (h : InOrder delivered waiting joined) (hkept : kept.Sublist waiting) (x : α) :
    InOrder delivered (kept ++ [x]) (joined ++ [x]) := by
  have hall := ((hkept.append_left delivered).trans h).append_right [x]
  rwa [List.append_assoc] at hall

theorem InOrder.deliver {front rest : List α} (h : InOrder delivered waiting joined)
    (hwaiting : waiting = front ++ rest) : InOrder (delivered ++ front) rest joined := by
  unfold InOrder at h ⊢
  rwa [List.append_assoc, ← hwaiting]

theorem InOrder.shed (h : InOrder delivered waiting joined) (hkept : kept.Sublist waiting) :
    InOrder delivered kept joined :=
  (hkept.append_left delivered).trans h

theorem InOrder.push (h : InOrder delivered waiting joined) (capacity : Nat) (x : α) :
    InOrder delivered (pushBounded capacity waiting x) (joined ++ [x]) := by
  refine h.join ?_ x
  split
  · exact List.tail_sublist waiting
  · exact List.Sublist.refl waiting

/-- One more item moves the window of the newest items on by one. -/
theorem pushBounded_drop (capacity : Nat) (items : List α) (x : α) :
    pushBounded capacity (items.drop (items.length - max capacity 1)) x =
      (items ++ [x]).drop ((items ++ [x]).length - max capacity 1) := by
  unfold pushBounded
  have hlength : (items ++ [x]).length = items.length + 1 := by simp
  rw [hlength, List.length_drop]
  split
  · have hdrop : items.length + 1 - max capacity 1 ≤ items.length := by omega
    rw [List.tail_drop, List.drop_append_of_le_length hdrop]
    congr 1
    by_cases hroom : items.length < max capacity 1
    · -- only a capacity of 0 and no item before this one
      have hnone : items = [] := List.eq_nil_of_length_eq_zero (by omega)
      simp [hnone]
    · congr 1
      omega
  · have hall : items.length - max capacity 1 = 0 := by omega
    have hall' : items.length + 1 - max capacity 1 = 0 := by omega
    rw [hall, hall', List.drop_zero, List.drop_zero]

/-- Items pushed one after the other into an empty queue leave the newest of them. -/
theorem foldl_pushBounded (capacity : Nat) (items : List α) :
    items.foldl (pushBounded capacity) [] = items.drop (items.length - max capacity 1) := by
  induction items using List.reverseRecOn with
  | nil => simp
  | append_singleton items x ih =>
    rw [List.foldl_append, ih]
    exact pushBounded_drop capacity items x

theorem length_foldl_pushBounded (capacity : Nat) (items : List α) :
    (items.foldl (pushBounded capacity) []).length = min items.length (max capacity 1) := by
  rw [foldl_pushBounded, List.length_drop]
  omega

end Fifo

end OcppProxy

import Mathlib.Algebra.BigOperators.Group.Finset.Basic
import Mathlib.Algebra.BigOperators.Group.Finset.Piecewise
import Mathlib.Algebra.Order.BigOperators.Group.Finset
import Mathlib.Tactic.Abel

/-!
# Totals over a table

A table has entries below some number and none from there on. What its entries weigh together
changes, when one entry is set, by the difference of the two weights.
-/

namespace OcppProxy

open Finset

section
variable {α M : Type*} [AddCommMonoid M]

/-- What the entries below `size` weigh together. -/
def tableTotal (weight : α → M) (table : ℕ → Option α) (size : ℕ) : M :=
  ∑ n ∈ range size, (table n).elim 0 weight

variable {weight : α → M} {table : ℕ → Option α} {size size' n : ℕ}

/-- Numbers without an entry add nothing. -/
theorem tableTotal_grow (hnone : ∀ n, size ≤ n → table n = none) (hle : size ≤ size') :
    tableTotal weight table size' = tableTotal weight table size := by
  unfold tableTotal
  symm
  refine sum_subset (range_mono hle) fun n _ hn => ?_
  rw [hnone n (by simpa using hn)]
  rfl

theorem tableTotal_none (hnone : ∀ n, table n = none) : tableTotal weight table size = 0 :=
  sum_eq_zero fun n _ => by rw [hnone n]; rfl

/-- One entry is set. -/
theorem tableTotal_update (hn : n < size) (new : α) :
    tableTotal weight (Function.update table n (some new)) size + (table n).elim 0 weight =
      tableTotal weight table size + weight new := by
  have hweights : (fun k => (Function.update table n (some new) k).elim 0 weight) =
      Function.update (fun k => (table k).elim 0 weight) n (weight new) := by
    funext k
    by_cases hk : k = n
    · subst hk
      simp
    · simp [hk]
  have hmem : n ∈ range size := mem_range.mpr hn
  unfold tableTotal
  rw [hweights, sum_update_of_mem hmem, sdiff_singleton_eq_erase,
    ← add_sum_erase (range size) (fun k => (table k).elim 0 weight) hmem]
  abel

end

end OcppProxy

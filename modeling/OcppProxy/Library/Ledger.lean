import Mathlib.Algebra.BigOperators.Group.List.Basic
import Mathlib.Algebra.BigOperators.Fin
import Mathlib.Algebra.BigOperators.Group.Finset.Piecewise
import Mathlib.Algebra.Order.BigOperators.Group.Finset
import Mathlib.Data.Fintype.Basic

/-!
# Items and their fates

Items come in one order and each meets one fate. `Accounts items part` says that the items of fate
`f`, in the order in which all of them came, are exactly `part f`.
-/

namespace OcppProxy

section
variable {α φ : Type*} [DecidableEq φ]

def withFate (ledger : List (α × φ)) (f : φ) : List α :=
  ledger.filterMap fun entry => if entry.2 = f then some entry.1 else none

/-- Every item met one fate, and `part` lists the items of each fate in order. -/
def Accounts (items : List α) (part : φ → List α) : Prop :=
  ∃ ledger : List (α × φ), ledger.map Prod.fst = items ∧ ∀ f, withFate ledger f = part f

namespace Accounts

variable {items items' : List α} {part part' : φ → List α}

theorem nil : Accounts ([] : List α) fun _ : φ => [] :=
  ⟨[], rfl, fun _ => rfl⟩

/-- Later items are accounted for after the earlier ones. -/
theorem append (h : Accounts items part) (h' : Accounts items' part') :
    Accounts (items ++ items') fun f => part f ++ part' f := by
  obtain ⟨ledger, hitems, hpart⟩ := h
  obtain ⟨ledger', hitems', hpart'⟩ := h'
  refine ⟨ledger ++ ledger', by rw [List.map_append, hitems, hitems'], fun f => ?_⟩
  rw [withFate, List.filterMap_append]
  exact congrArg₂ _ (hpart f) (hpart' f)

/-- Items that all meet the fate `f`. -/
theorem const (items : List α) (f : φ) :
    Accounts items fun g => if f = g then items else [] := by
  refine ⟨items.map fun a => (a, f), by simp [Function.comp_def], fun g => ?_⟩
  rw [withFate, List.filterMap_map, Function.comp_def]
  by_cases hfg : f = g <;> simp [hfg]

theorem congr (h : Accounts items part) (hitems : items = items') (hpart : ∀ f, part f = part' f) :
    Accounts items' part' := by
  obtain rfl := hitems
  obtain rfl : part = part' := funext hpart
  exact h

/-- What met a fate is an item. -/
theorem mem (h : Accounts items part) {a : α} {f : φ} (ha : a ∈ part f) : a ∈ items := by
  obtain ⟨ledger, rfl, hpart⟩ := h
  rw [← hpart f, withFate, List.mem_filterMap] at ha
  obtain ⟨entry, hentry, hfate⟩ := ha
  split at hfate
  · cases hfate
    exact List.mem_map_of_mem hentry
  · cases hfate

theorem exists_fate (h : Accounts items part) {a : α} (ha : a ∈ items) : ∃ f, a ∈ part f := by
  obtain ⟨ledger, rfl, hpart⟩ := h
  obtain ⟨entry, hentry, rfl⟩ := List.mem_map.mp ha
  refine ⟨entry.2, ?_⟩
  rw [← hpart entry.2, withFate, List.mem_filterMap]
  exact ⟨entry, hentry, if_pos rfl⟩

/-- The items of one fate are in the order of all items. -/
theorem sublist (h : Accounts items part) (f : φ) : (part f).Sublist items := by
  obtain ⟨ledger, rfl, hpart⟩ := h
  rw [← hpart f, withFate, ← List.filterMap_eq_map]
  clear hpart
  induction ledger with
  | nil => exact .refl _
  | cons entry ledger ih =>
    by_cases hf : entry.2 = f
    · simpa [hf] using ih
    · simpa [hf] using ih.cons entry.1

/-- Without their order the items are those of all fates together. -/
theorem sum (h : Accounts items part) {S : Finset φ} (hS : ∀ f, f ∉ S → part f = []) :
    (items : Multiset α) = ∑ f ∈ S, (part f : Multiset α) := by
  obtain ⟨ledger, rfl, hpart⟩ := h
  have hmem : ∀ entry ∈ ledger, entry.2 ∈ S := by
    intro entry hentry
    by_contra hf
    have hnone := hS entry.2 hf
    rw [← hpart, withFate, List.filterMap_eq_nil_iff] at hnone
    simpa using hnone entry hentry
  simp only [← hpart]
  clear hpart hS
  induction ledger with
  | nil => simp [withFate]
  | cons entry ledger ih =>
    have hentry (f : φ) : (withFate (entry :: ledger) f : Multiset α) =
        (if entry.2 = f then {entry.1} else 0) + (withFate ledger f : Multiset α) := by
      by_cases hf : entry.2 = f <;> simp [withFate, hf]
    simp only [hentry, Finset.sum_add_distrib, Finset.sum_ite_eq, hmem entry (List.mem_cons_self ..),
      if_true, ← ih fun e he => hmem e (List.mem_cons_of_mem _ he)]
    simp

/-- No item is counted twice or not at all. -/
theorem length [Fintype φ] (h : Accounts items part) :
    items.length = ∑ f, (part f).length := by
  obtain ⟨ledger, rfl, hpart⟩ := h
  simp only [← hpart]
  clear hpart
  induction ledger with
  | nil => simp [withFate]
  | cons entry ledger ih =>
    have hentry (f : φ) : (withFate (entry :: ledger) f).length =
        (if entry.2 = f then 1 else 0) + (withFate ledger f).length := by
      by_cases hf : entry.2 = f <;> simp [withFate, hf, Nat.add_comm]
    simp only [hentry, Finset.sum_add_distrib, ← ih]
    simp [Nat.add_comm]

end Accounts

end

end OcppProxy

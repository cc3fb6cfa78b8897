import Mathlib.Data.List.DropRight
import Mathlib.Tactic.Common

/-!
# Marks and what lies between them

A sequence of which some items are marks. `Spaced` asks something of what came between each mark and
the one before it.
-/

namespace OcppProxy

namespace Gaps

variable {α : Type*} (isMark : α → Bool) (Q : α → List α → Prop)

def since (items : List α) : List α := items.rtakeWhile fun x => !isMark x

/-- Every mark but the first finds in what came since the one before what `Q` asks of it. -/
def Spaced (items : List α) : Prop :=
  ∀ before x after, items = before ++ x :: after → isMark x = true →
    (∃ y ∈ before, isMark y = true) → Q x (since isMark before)

variable {isMark Q} {items others : List α} {x : α}

theorem since_concat : since isMark (items ++ [x]) =
    if isMark x then [] else since isMark items ++ [x] := by
  unfold since
  rw [List.rtakeWhile_concat]
  cases isMark x <;> simp

theorem spaced_nil : Spaced isMark Q ([] : List α) := by
  intro before x after h
  simp at h

theorem Spaced.of_append (h : Spaced isMark Q (items ++ others)) : Spaced isMark Q items := by
  intro before x after hitems
  refine h before x (after ++ others) ?_
  rw [hitems, List.append_assoc, List.cons_append]

/-- One more item asks for no more than its own gap. -/
theorem spaced_concat : Spaced isMark Q (items ++ [x]) ↔ Spaced isMark Q items ∧
    (isMark x = true → (∃ y ∈ items, isMark y = true) → Q x (since isMark items)) := by
  constructor
  · intro h
    exact ⟨h.of_append, h items x [] rfl⟩
  · rintro ⟨h, hx⟩ before y after hitems
    rcases List.eq_nil_or_concat after with rfl | ⟨after', z, rfl⟩
    · obtain ⟨rfl, hxy⟩ := List.append_inj' hitems rfl
      obtain rfl : x = y := by simpa using hxy
      exact hx
    · rw [List.concat_eq_append, ← List.cons_append, ← List.append_assoc] at hitems
      obtain ⟨rfl, -⟩ := List.append_inj' hitems rfl
      exact h before y after' rfl

end Gaps

end OcppProxy

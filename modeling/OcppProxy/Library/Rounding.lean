import Mathlib.Algebra.Order.Round
import Mathlib.Tactic.FieldSimp
import Mathlib.Tactic.Linarith
import Mathlib.Tactic.Positivity
import Mathlib.Tactic.Ring

/-!
# Rounding to a grid

`roundTo d x` is the multiple of `1 / d` that is nearest to `x`, and the upper one where two are.
Bounds on it are bounds on `x`: against a bound that is not on the grid only the first multiple
beyond it counts.
-/

namespace OcppProxy

variable {α : Type*} [Field α] [LinearOrder α] [IsStrictOrderedRing α] [FloorRing α]

def roundTo (d : ℕ) (x : α) : α := round (x * d) / d

section
variable {d : ℕ} {a b x y : α}

theorem roundTo_mono (h : x ≤ y) : roundTo d x ≤ roundTo d y := by
  have hscaled : x * d ≤ y * d := mul_le_mul_of_nonneg_right h (Nat.cast_nonneg d)
  have hround : round (x * d) ≤ round (y * d) := by
    rw [round_eq, round_eq]
    exact Int.floor_mono (by linarith)
  have hcast : (round (x * d) : α) ≤ round (y * d) := Int.cast_le.mpr hround
  exact div_le_div_of_nonneg_right hcast (Nat.cast_nonneg d)

theorem roundTo_nonneg (h : 0 ≤ x) : 0 ≤ roundTo d x := by
  have hzero : roundTo d (0 : α) = 0 := by simp [roundTo]
  rw [← hzero]
  exact roundTo_mono h

variable (hd : 0 < d)

include hd

/-- A multiple of `1 / d` stays as it is. -/
theorem roundTo_intCast_div (n : ℤ) : roundTo d (n / d : α) = n / d := by
  have hne : (d : α) ≠ 0 := Nat.cast_ne_zero.mpr hd.ne'
  rw [roundTo, div_mul_cancel₀ _ hne, round_intCast]

theorem roundTo_roundTo : roundTo d (roundTo d x) = roundTo d x :=
  roundTo_intCast_div hd (round (x * d))

theorem abs_roundTo_sub : |roundTo d x - x| ≤ 1 / (2 * d) := by
  have hpos : (0 : α) < d := Nat.cast_pos.mpr hd
  have hround : |x * d - round (x * d)| ≤ 1 / 2 := abs_sub_round (x * (d : α))
  have hscaled : roundTo d x - x = -(x * d - round (x * d)) / d := by
    rw [roundTo]
    field_simp
    ring
  have hhalf : (1 / (2 * d) : α) = 1 / 2 / d := by field_simp
  rw [hscaled, hhalf, abs_div, abs_neg, abs_of_pos hpos]
  exact div_le_div_of_nonneg_right hround hpos.le

/-- Where a multiple of `1 / d` lies below what `x` is rounded to. -/
theorem div_lt_roundTo_iff (t : ℤ) : (t / d : α) < roundTo d x ↔ t / d + 1 / (2 * d) ≤ x := by
  have hpos : (0 : α) < d := Nat.cast_pos.mpr hd
  rw [roundTo, div_lt_div_iff_of_pos_right hpos, Int.cast_lt, ← Int.add_one_le_iff, round_eq,
    Int.le_floor]
  have hscaled : (t / d + 1 / (2 * d) : α) = (t + 1 / 2) / d := by field_simp
  rw [hscaled, div_le_iff₀ hpos]
  push_cast
  constructor <;> intro h <;> linarith

/-- What `x` is rounded to lies below a multiple of `1 / d`. -/
theorem roundTo_lt_div_iff (t : ℤ) : roundTo d x < (t / d : α) ↔ x + 1 / (2 * d) < t / d := by
  have hpos : (0 : α) < d := Nat.cast_pos.mpr hd
  rw [roundTo, div_lt_div_iff_of_pos_right hpos, Int.cast_lt, round_eq, Int.floor_lt]
  have hscaled : x + 1 / (2 * d) = (x * d + 1 / 2) / d := by field_simp
  rw [hscaled, div_lt_div_iff_of_pos_right hpos]

/-- Rounding stays below a bound when no multiple above the bound is the nearest. -/
theorem roundTo_le_iff : roundTo d x ≤ b ↔ ∀ t : ℤ, b < t / d → x + 1 / (2 * d) < t / d := by
  constructor
  · intro h t ht
    exact (roundTo_lt_div_iff hd t).mp (h.trans_lt ht)
  · intro h
    by_contra hlt
    have hself := (roundTo_lt_div_iff hd _).mpr (h (round (x * d)) (not_le.mp hlt))
    exact lt_irrefl _ hself

/-- Rounding stays above a bound when no multiple below the bound is the nearest. -/
theorem le_roundTo_iff : a ≤ roundTo d x ↔ ∀ t : ℤ, t / d < a → t / d + 1 / (2 * d) ≤ x := by
  constructor
  · intro h t ht
    exact (div_lt_roundTo_iff hd t).mp (ht.trans_le h)
  · intro h
    by_contra hlt
    have hself := (div_lt_roundTo_iff hd _).mpr (h (round (x * d)) (not_le.mp hlt))
    exact lt_irrefl _ hself

/-- Against a bound that `x` meets, only a positive multiple below it counts, or none at all. -/
theorem roundTo_eq_zero_or_le_iff (hx : 0 ≤ x) (hax : a ≤ x) : roundTo d x = 0 ∨ a ≤ roundTo d x ↔
    ∀ t : ℤ, 0 < t → t / d < a → t / d + 1 / (2 * d) ≤ x := by
  have hpos : (0 : α) < d := Nat.cast_pos.mpr hd
  constructor
  · rintro (hzero | hle) t ht hta
    · have hbelow : roundTo d x < (t / d : α) := by
        rw [hzero]
        exact div_pos (Int.cast_pos.mpr ht) hpos
      have hhalf : (0 : α) < 1 / (2 * d) := by positivity
      have hlt := (roundTo_lt_div_iff hd t).mp hbelow
      linarith
    · exact (le_roundTo_iff hd).mp hle t hta
  · intro h
    by_contra hneither
    obtain ⟨hne, hlt⟩ := not_or.mp hneither
    have hrounded : (0 : α) < round (x * d) := by
      have hnonneg : 0 ≤ roundTo d x := roundTo_nonneg hx
      have hquotient : 0 < roundTo d x := lt_of_le_of_ne hnonneg (Ne.symm hne)
      exact (div_pos_iff_of_pos_right hpos).mp hquotient
    have hself := h (round (x * d)) (Int.cast_pos.mp hrounded) (not_le.mp hlt)
    exact lt_irrefl _ ((div_lt_roundTo_iff hd _).mpr hself)

/-- A bound that rounding passes upwards is rounded to the same multiple. -/
theorem roundTo_eq_of_lt (hle : x ≤ b) (hlt : b < roundTo d x) : roundTo d b = roundTo d x := by
  apply le_antisymm
  · apply (roundTo_le_iff hd).mpr
    intro t ht
    have hpos : (0 : α) < d := Nat.cast_pos.mpr hd
    rw [roundTo, div_lt_div_iff_of_pos_right hpos, Int.cast_lt, ← Int.add_one_le_iff] at ht
    have hnext : (round (x * d) + 1 : α) ≤ t := by exact_mod_cast ht
    have hmultiple : roundTo d x + 1 / d ≤ t / d := by
      rw [roundTo, ← add_div]
      exact div_le_div_of_nonneg_right hnext hpos.le
    have hhalf : (1 / (2 * d) : α) < 1 / d := by
      rw [div_lt_div_iff₀ (by linarith) hpos]
      linarith
    linarith
  · exact roundTo_mono hle

end

end OcppProxy

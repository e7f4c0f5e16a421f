import Mathlib.Algebra.BigOperators.Ring.List
import Mathlib.Algebra.Order.BigOperators.Group.List
import Mathlib.Algebra.Order.Field.Basic
import Mathlib.Tactic.Linarith

/-!
# Foundations/WeightedMean — means under positive weights

Under positive weights a mean lies between two of its values: it is neither below all of them nor
above all of them (`weightedMean_between`).
-/

namespace FacLpr

variable {α K : Type*} [Field K]

def weightedMean (weight f : α → K) (l : List α) : K :=
  (l.map fun a => f a * weight a).sum / (l.map weight).sum

variable [LinearOrder K] [IsStrictOrderedRing K] {weight f : α → K} {l : List α}

/-- The total weight is positive. -/
theorem sum_weight_pos (hne : l ≠ []) (h : ∀ a ∈ l, 0 < weight a) : 0 < (l.map weight).sum :=
  List.sum_pos _ (by simpa using h) (by simpa using hne)

/-- The weighted values add up to what the mean would in the place of each. -/
theorem sum_mul_weight (hne : l ≠ []) (h : ∀ a ∈ l, 0 < weight a) :
    (l.map fun a => f a * weight a).sum =
      (l.map fun a => weightedMean weight f l * weight a).sum := by
  rw [List.sum_map_mul_left, weightedMean, div_mul_cancel₀ _ (sum_weight_pos hne h).ne']

/-- **A mean lies between two of its values.** -/
theorem weightedMean_between (hne : l ≠ []) (h : ∀ a ∈ l, 0 < weight a) :
    (∃ a ∈ l, f a ≤ weightedMean weight f l) ∧ ∃ a ∈ l, weightedMean weight f l ≤ f a := by
  have hsum := sum_mul_weight (f := f) hne h
  obtain ⟨low, hlow, hle⟩ := List.exists_le_of_sum_le hne _ _ hsum.le
  obtain ⟨high, hhigh, hge⟩ := List.exists_le_of_sum_le hne _ _ hsum.ge
  exact ⟨⟨low, hlow, le_of_mul_le_mul_right hle (h low hlow)⟩,
    high, hhigh, le_of_mul_le_mul_right hge (h high hhigh)⟩

end FacLpr

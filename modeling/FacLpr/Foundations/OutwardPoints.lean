import Mathlib.Analysis.LocallyConvex.Separation
import Mathlib.Analysis.Normed.Module.Convex
import Mathlib.Topology.Algebra.Module.FiniteDimension

/-!
# Foundations/OutwardPoints — pushing points away from each other

A point is pushed outward when it is moved by nonnegative multiples of its differences from the
others.  The hull of the pushed points has all the points (`convexHull_subset_of_outward`): where a
functional is largest on the points, it is no smaller at the pushed point.
-/

namespace FacLpr

variable {ι E : Type*} [Fintype ι] [AddCommGroup E] [Module ℝ E]

/-- `pushed` moves every point of `points` away from the others. -/
def PushedOutward (points pushed : ι → E) : Prop :=
  ∀ i, ∃ push : ι → ℝ, (∀ j, 0 ≤ push j) ∧
    pushed i = points i + ∑ j, push j • (points i - points j)

/-- A point that moves away from two others is pushed outward. -/
theorem pushedOutward_of_pairs {points pushed : ι → E} (h : ∀ i, ∃ (j k : ι) (a b : ℝ), 0 ≤ a ∧
    0 ≤ b ∧ pushed i = points i + (a • (points i - points j) + b • (points i - points k))) :
    PushedOutward points pushed := by
  classical
  intro i
  obtain ⟨j, k, a, b, ha, hb, hpushed⟩ := h i
  refine ⟨fun m => (if m = j then a else 0) + if m = k then b else 0, fun m => ?_, ?_⟩
  · exact add_nonneg (by split <;> simp [ha]) (by split <;> simp [hb])
  · rw [hpushed]
    simp only [add_smul, ite_smul, zero_smul, Finset.sum_add_distrib, Finset.sum_ite_eq',
      Finset.mem_univ, if_true]

/-- A functional that is largest at a point is no smaller at the pushed one. -/
theorem le_of_pushed {points : ι → E} {i : ι} {push : ι → ℝ} (hpush : ∀ j, 0 ≤ push j)
    (f : E →ₗ[ℝ] ℝ) (hmax : ∀ j, f (points j) ≤ f (points i)) :
    f (points i) ≤ f (points i + ∑ j, push j • (points i - points j)) := by
  rw [map_add, map_sum, le_add_iff_nonneg_right]
  refine Finset.sum_nonneg fun j _ => ?_
  rw [map_smul, map_sub]
  exact mul_nonneg (hpush j) (sub_nonneg.mpr (hmax j))

variable [TopologicalSpace E] [IsTopologicalAddGroup E] [ContinuousSMul ℝ E]
  [LocallyConvexSpace ℝ E] [T2Space E]

/-- **The hull of points pushed outward** has the points. -/
theorem convexHull_subset_of_outward {points pushed : ι → E} (h : PushedOutward points pushed) :
    convexHull ℝ (Set.range points) ⊆ convexHull ℝ (Set.range pushed) := by
  refine convexHull_min ?_ (convex_convexHull ℝ _)
  rintro _ ⟨k, rfl⟩
  by_contra hk
  obtain ⟨f, u, hbelow, habove⟩ := geometric_hahn_banach_closed_point (convex_convexHull ℝ _)
    ((Set.finite_range pushed).isClosed_convexHull ℝ) hk
  -- the point where the separating functional is largest is pushed beyond the bound
  have : Nonempty ι := ⟨k⟩
  obtain ⟨i, hmax⟩ := Finite.exists_max fun j => f (points j)
  obtain ⟨push, hpush, hpushed⟩ := h i
  have hpoint := hbelow (pushed i) (subset_convexHull ℝ _ ⟨i, rfl⟩)
  have hgrows := le_of_pushed hpush f.toLinearMap hmax
  rw [← hpushed] at hgrows
  exact absurd (hgrows.trans_lt hpoint) (not_lt.mpr (habove.le.trans (hmax k)))

end FacLpr

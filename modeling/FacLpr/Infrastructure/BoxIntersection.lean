import FacLpr.Domain.Recognition
import FacLpr.Foundations.ExactFloat

/-!
# Infrastructure/BoxIntersection — the areas two boxes share and cover

In exact arithmetic the areas do not depend on which box comes first, and a box with infinities or
NaN is not valid, so the areas of valid boxes are those of rational ones (`exact`).  What the two
overlap computations divide is the area of the common part by the area the boxes cover (`overlap`).
-/

namespace FacLpr

namespace BoundingBox

variable {F : Type} [Scalar F]

/-- The far edges of the box are finite. -/
def hasFiniteEdges (b : BoundingBox F) : Bool :=
  Scalar.isFinite (b.x + b.width) && Scalar.isFinite (b.y + b.height)

/-- `std::max(0.0F, std::min(left_x2, right_x2) - std::max(left.x, right.x))`, and the same of the
heights, multiplied. -/
def intersectionArea (left right : BoundingBox F) : F :=
  let width := Scalar.max 0
    (Scalar.min (left.x + left.width) (right.x + right.width) - Scalar.max left.x right.x)
  let height := Scalar.max 0
    (Scalar.min (left.y + left.height) (right.y + right.height) - Scalar.max left.y right.y)
  width * height

def unionArea (left right : BoundingBox F) : F :=
  left.area + right.area - left.intersectionArea right

/-! ## Exact arithmetic -/

/-- The part two boxes have in common; its extents are negative where there is none. -/
def shared (left right : BoundingBox ℚ) : BoundingBox ℚ where
  x := left.x ⊔ right.x
  y := left.y ⊔ right.y
  width := (left.x + left.width) ⊓ (right.x + right.width) - left.x ⊔ right.x
  height := (left.y + left.height) ⊓ (right.y + right.height) - left.y ⊔ right.y

theorem shared_comm (left right : BoundingBox ℚ) : left.shared right = right.shared left := by
  rw [shared, shared, inf_comm (left.x + left.width), inf_comm (left.y + left.height),
    sup_comm left.x, sup_comm left.y]

theorem area_eq_max (b : BoundingBox ℚ) : b.area = (0 ⊔ b.width) * (0 ⊔ b.height) := by
  unfold area
  split
  · rename_i h
    rw [max_eq_right h.1.le, max_eq_right h.2.le]
  · rename_i h
    rcases not_and_or.mp h with h | h
    · rw [max_eq_left (not_lt.mp h), zero_mul]
    · rw [max_eq_left (not_lt.mp h), mul_zero]

/-- **The intersection area is the area of the common part.** -/
theorem intersectionArea_eq (left right : BoundingBox ℚ) :
    left.intersectionArea right = (left.shared right).area := by
  rw [area_eq_max]
  simp only [intersectionArea, shared, Scalar.max_rat, Scalar.min_rat]

theorem area_nonneg (b : BoundingBox ℚ) : 0 ≤ b.area := by
  rw [area_eq_max]
  positivity

/-- The common part is no larger than either box. -/
theorem area_shared_le (left right : BoundingBox ℚ) : (left.shared right).area ≤ left.area := by
  rw [area_eq_max, area_eq_max]
  refine mul_le_mul (max_le_max_left 0 ?_) (max_le_max_left 0 ?_) (le_max_left _ _)
    (le_max_left _ _)
  · exact sub_le_iff_le_add'.mpr ((min_le_left _ _).trans
      (add_le_add_left (le_max_left _ _) _))
  · exact sub_le_iff_le_add'.mpr ((min_le_left _ _).trans
      (add_le_add_left (le_max_left _ _) _))

/-- The share of what two boxes cover that they have in common. -/
def overlap (left right : BoundingBox ℚ) : ℚ :=
  (left.shared right).area / (left.area + right.area - (left.shared right).area)

theorem overlap_comm (left right : BoundingBox ℚ) : left.overlap right = right.overlap left := by
  rw [overlap, overlap, shared_comm, add_comm left.area]

/-- Two boxes cover some area if one does. -/
theorem unionArea_pos {left : BoundingBox ℚ} (right : BoundingBox ℚ) (h : left.isValid = true) :
    0 < left.unionArea right := by
  obtain ⟨hwidth, hheight⟩ := isValid_rat.mp h
  have harea : 0 < left.area := by
    rw [area, if_pos ⟨hwidth, hheight⟩]
    exact mul_pos hwidth hheight
  have hleft := area_shared_le left right
  have hright := area_shared_le right left
  rw [shared_comm] at hright
  rw [unionArea, intersectionArea_eq]
  linarith [area_nonneg right]

/-- **The overlap is a share.** -/
theorem overlap_mem {left : BoundingBox ℚ} (right : BoundingBox ℚ) (h : left.isValid = true) :
    0 ≤ left.overlap right ∧ left.overlap right ≤ 1 := by
  have hpos := unionArea_pos right h
  rw [unionArea, intersectionArea_eq] at hpos
  have hleft := area_shared_le left right
  have hright := area_shared_le right left
  rw [shared_comm] at hright
  refine ⟨div_nonneg (area_nonneg _) hpos.le, (div_le_one₀ hpos).mpr ?_⟩
  linarith

/-! ## Infinities and NaN -/

/-- The points of a box. -/
def region (b : BoundingBox ExactFloat) : Set (ℚ × ℚ) :=
  {p | (b.x ≤ .finite p.1 ∧ .finite p.1 ≤ b.x + b.width) ∧
    b.y ≤ .finite p.2 ∧ .finite p.2 ≤ b.y + b.height}

/-- The box with the same coordinates. -/
def exact (b : BoundingBox ℚ) : BoundingBox ExactFloat :=
  ⟨.finite b.x, .finite b.y, .finite b.width, .finite b.height⟩

@[simp] theorem isValid_exact (b : BoundingBox ℚ) : b.exact.isValid = b.isValid := by
  simp [isValid, exact, ExactFloat.zero_eq]

/-- **A valid box is a rational one.** -/
theorem exists_eq_exact {b : BoundingBox ExactFloat} (h : b.isValid = true) :
    ∃ q : BoundingBox ℚ, b = q.exact := by
  simp only [isValid, Bool.and_eq_true] at h
  obtain ⟨⟨⟨⟨⟨hx, hy⟩, hwidth⟩, hheight⟩, -⟩, -⟩ := h
  obtain ⟨x, hx⟩ := ExactFloat.isFinite_iff.mp hx
  obtain ⟨y, hy⟩ := ExactFloat.isFinite_iff.mp hy
  obtain ⟨width, hwidth⟩ := ExactFloat.isFinite_iff.mp hwidth
  obtain ⟨height, hheight⟩ := ExactFloat.isFinite_iff.mp hheight
  refine ⟨⟨x, y, width, height⟩, ?_⟩
  rw [exact, ← hx, ← hy, ← hwidth, ← hheight]

/-- The points of a rational box are those of a rectangle. -/
theorem region_exact (b : BoundingBox ℚ) :
    b.exact.region = Set.Icc b.x (b.x + b.width) ×ˢ Set.Icc b.y (b.y + b.height) := by
  ext p
  simp only [region, exact, ExactFloat.finite_add, ExactFloat.finite_le, Set.mem_ofPred_eq,
    Set.mem_prod, Set.mem_Icc]

/-- **The common part of two boxes** is what their points have in common. -/
theorem region_shared (left right : BoundingBox ℚ) :
    (left.shared right).exact.region = left.exact.region ∩ right.exact.region := by
  rw [region_exact, region_exact, region_exact, Set.prod_inter_prod, Set.Icc_inter_Icc,
    Set.Icc_inter_Icc, shared, add_sub_cancel, add_sub_cancel]

@[simp] theorem hasFiniteEdges_exact (b : BoundingBox ℚ) : b.exact.hasFiniteEdges = true := rfl

theorem area_exact (b : BoundingBox ℚ) : b.exact.area = .finite b.area := by
  simp only [area, exact, ExactFloat.zero_eq, ExactFloat.finite_lt, ExactFloat.finite_mul,
    apply_ite ExactFloat.finite]

theorem intersectionArea_exact (left right : BoundingBox ℚ) :
    left.exact.intersectionArea right.exact = .finite (left.intersectionArea right) := by
  simp only [intersectionArea, exact, ExactFloat.zero_eq, ExactFloat.finite_add,
    ExactFloat.finite_sub, ExactFloat.finite_mul, ExactFloat.finite_max, ExactFloat.finite_min]

theorem unionArea_exact (left right : BoundingBox ℚ) :
    left.exact.unionArea right.exact = .finite (left.unionArea right) := by
  rw [unionArea, area_exact, area_exact, intersectionArea_exact, ExactFloat.finite_add,
    ExactFloat.finite_sub, unionArea]

/-- **What is divided and clamped is the overlap.** -/
theorem clamp01_exact {left : BoundingBox ℚ} (right : BoundingBox ℚ) (h : left.isValid = true) :
    Scalar.clamp01 (left.exact.intersectionArea right.exact / left.exact.unionArea right.exact) =
      .finite (left.overlap right) := by
  have hmem := overlap_mem right h
  rw [intersectionArea_exact, unionArea_exact, ExactFloat.finite_div (unionArea_pos right h).ne',
    Scalar.clamp01, ExactFloat.zero_eq, ExactFloat.one_eq, ExactFloat.finite_clamp, unionArea,
    intersectionArea_eq]
  exact congrArg ExactFloat.finite (Scalar.clamp01_of_mem hmem.1 hmem.2)

end BoundingBox

end FacLpr

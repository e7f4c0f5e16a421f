import Mathlib.Analysis.Convex.Join
import Mathlib.Analysis.SpecialFunctions.Complex.Arg
import Mathlib.Data.Fin.Tuple.Sort
import Mathlib.LinearAlgebra.AffineSpace.FiniteDimensional
import Mathlib.Tactic.FieldSimp
import Mathlib.Tactic.LinearCombination

/-!
# Foundations/Quadrilaterals — four points of the plane, and the way round them

Four points are the corners of a strictly convex quadrilateral exactly when some way round them
turns left at every corner (`strictlyConvex_iff`), and the angles around their center go up along
such a way, but for one step (`IsCcw.exists_strictMono`).  So sorting by angle finds it.
-/

namespace FacLpr

theorem neZero_four : NeZero 4 := ⟨by decide⟩

attribute [local instance] neZero_four

/-! ## Turns -/

section Field

variable {𝕜 : Type*} [Field 𝕜]

/-- The cross product of the sides `a b` and `a c`: positive for a left turn at `b`. -/
def turn (a b c : 𝕜 × 𝕜) : 𝕜 := (b.1 - a.1) * (c.2 - a.2) - (b.2 - a.2) * (c.1 - a.1)

theorem turn_rotate (a b c : 𝕜 × 𝕜) : turn b c a = turn a b c := by
  unfold turn
  ring

theorem turn_comm (a b c : 𝕜 × 𝕜) : turn a c b = -turn a b c := by
  unfold turn
  ring

theorem turn_reverse (a b c : 𝕜 × 𝕜) : turn c b a = -turn a b c := by
  unfold turn
  ring

/-- A triangle is the sum of those of its sides with a fourth point. -/
theorem turn_add (a b c d : 𝕜 × 𝕜) : turn a b d + turn b c d + turn c a d = turn a b c := by
  unfold turn
  ring

/-- A turn by no angle, from a side that is not a point. -/
theorem exists_smul_of_turn_eq_zero {a b c : 𝕜 × 𝕜} (hab : b ≠ a) (h : turn a b c = 0) :
    ∃ r : 𝕜, c - a = r • (b - a) := by
  have hcross : (b.1 - a.1) * (c.2 - a.2) = (b.2 - a.2) * (c.1 - a.1) := sub_eq_zero.mp h
  by_cases hfst : b.1 - a.1 = 0
  · have hsnd : b.2 - a.2 ≠ 0 := fun hsnd =>
      hab (Prod.ext (sub_eq_zero.mp hfst) (sub_eq_zero.mp hsnd))
    rw [hfst, zero_mul, eq_comm, mul_eq_zero] at hcross
    refine ⟨(c.2 - a.2) / (b.2 - a.2), Prod.ext ?_ ?_⟩
    · simp [hfst, hcross.resolve_left hsnd]
    · simp [hsnd]
  · refine ⟨(c.1 - a.1) / (b.1 - a.1), Prod.ext ?_ ?_⟩
    · simp [hfst]
    · simp only [Prod.snd_sub, Prod.smul_snd, smul_eq_mul]
      field_simp
      linear_combination hcross

theorem collinear_iff_turn_eq_zero {a b c : 𝕜 × 𝕜} :
    Collinear 𝕜 ({a, b, c} : Set (𝕜 × 𝕜)) ↔ turn a b c = 0 := by
  rw [collinear_iff_of_mem (Set.mem_insert a _)]
  constructor
  · rintro ⟨v, hv⟩
    obtain ⟨r, hb⟩ := hv b (by simp)
    obtain ⟨s, hc⟩ := hv c (by simp)
    rw [hb, hc]
    simp only [turn, vadd_eq_add, Prod.fst_add, Prod.snd_add, Prod.smul_fst, Prod.smul_snd,
      smul_eq_mul]
    ring
  · intro hturn
    by_cases hab : b = a
    · refine ⟨c - a, fun p hp => ?_⟩
      rcases hp with rfl | rfl | rfl
      · exact ⟨0, by simp⟩
      · exact ⟨0, by simp [hab]⟩
      · exact ⟨1, by simp⟩
    · obtain ⟨r, hr⟩ := exists_smul_of_turn_eq_zero hab hturn
      refine ⟨b - a, fun p hp => ?_⟩
      rcases hp with rfl | rfl | rfl
      · exact ⟨0, by simp⟩
      · exact ⟨1, by simp⟩
      · exact ⟨r, by simp [← hr]⟩

/-- The mean of four points. -/
def center (q : Fin 4 → 𝕜 × 𝕜) : 𝕜 × 𝕜 := ((∑ i, (q i).1) / 4, (∑ i, (q i).2) / 4)

theorem center_comp (q : Fin 4 → 𝕜 × 𝕜) (σ : Equiv.Perm (Fin 4)) : center (q ∘ σ) = center q := by
  unfold center
  rw [← Equiv.sum_comp σ fun i => (q i).1, ← Equiv.sum_comp σ fun i => (q i).2]
  rfl

end Field

section Ordered

variable {𝕜 : Type*} [Field 𝕜] [LinearOrder 𝕜] [IsStrictOrderedRing 𝕜] {a b c d : 𝕜 × 𝕜}

/-- The points of a triangle. -/
theorem mem_convexHull_triple : d ∈ convexHull 𝕜 ({a, b, c} : Set (𝕜 × 𝕜)) ↔
    ∃ u v w : 𝕜, 0 ≤ u ∧ 0 ≤ v ∧ 0 ≤ w ∧ u + v + w = 1 ∧ u • a + v • b + w • c = d := by
  rw [convexHull_insert (Set.insert_nonempty b {c}), convexHull_pair, mem_convexJoin]
  constructor
  · rintro ⟨_, rfl, y, ⟨s, t, hs, ht, hst, rfl⟩, u, v, hu, hv, huv, rfl⟩
    refine ⟨u, v * s, v * t, hu, mul_nonneg hv hs, mul_nonneg hv ht, ?_, ?_⟩
    · rw [add_assoc, ← mul_add, hst, mul_one, huv]
    · rw [smul_add, smul_smul, smul_smul, add_assoc]
  · rintro ⟨u, v, w, hu, hv, hw, hsum, rfl⟩
    rcases eq_or_lt_of_le (add_nonneg hv hw) with hzero | hpos
    · have hv0 : v = 0 := by linarith
      have hw0 : w = 0 := by linarith
      have hu1 : u = 1 := by linarith
      exact ⟨a, rfl, b, left_mem_segment 𝕜 b c, 1, 0, zero_le_one, le_rfl, add_zero 1, by
        simp [hv0, hw0, hu1]⟩
    · refine ⟨a, rfl, (v / (v + w)) • b + (w / (v + w)) • c,
        ⟨_, _, div_nonneg hv hpos.le, div_nonneg hw hpos.le, ?_, rfl⟩, u, v + w, hu, hpos.le,
        by rw [← add_assoc, hsum], ?_⟩
      · rw [← add_div, div_self hpos.ne']
      · rw [smul_add, smul_smul, smul_smul, mul_div_cancel₀ _ hpos.ne',
          mul_div_cancel₀ _ hpos.ne', add_assoc]

/-- A point beyond no side of a triangle that turns left is in it. -/
theorem mem_convexHull_of_turn (h : 0 < turn a b c) (hab : 0 ≤ turn a b d) (hbc : 0 ≤ turn b c d)
    (hca : 0 ≤ turn c a d) : d ∈ convexHull 𝕜 ({a, b, c} : Set (𝕜 × 𝕜)) := by
  refine mem_convexHull_triple.mpr ⟨turn b c d / turn a b c, turn c a d / turn a b c,
    turn a b d / turn a b c, div_nonneg hbc h.le, div_nonneg hca h.le, div_nonneg hab h.le, ?_, ?_⟩
  · rw [← add_div, ← add_div, add_right_comm, add_comm (turn b c d), turn_add, div_self h.ne']
  · refine Prod.ext ?_ ?_
    · simp only [Prod.fst_add, Prod.smul_fst, smul_eq_mul]
      field_simp
      unfold turn
      ring
    · simp only [Prod.snd_add, Prod.smul_snd, smul_eq_mul]
      field_simp
      unfold turn
      ring

/-- A point of a triangle is beyond none of its sides. -/
theorem turn_mul_nonneg_of_mem (h : d ∈ convexHull 𝕜 ({a, b, c} : Set (𝕜 × 𝕜))) :
    0 ≤ turn a b c * turn c a d := by
  obtain ⟨u, v, w, hu, hv, hw, hsum, rfl⟩ := mem_convexHull_triple.mp h
  have hu' : u = 1 - v - w := by linarith
  have hturn : turn c a (u • a + v • b + w • c) = v * turn a b c := by
    simp only [turn, Prod.fst_add, Prod.snd_add, Prod.smul_fst, Prod.smul_snd, smul_eq_mul, hu']
    ring
  rw [hturn, mul_left_comm]
  exact mul_nonneg hv (mul_self_nonneg _)

/-! ## Strictly convex quadrilaterals -/

/-- The way round the points turns left at every corner. -/
def IsCcw (q : Fin 4 → 𝕜 × 𝕜) : Prop := ∀ i, 0 < turn (q i) (q (i + 1)) (q (i + 2))

variable (𝕜) in
/-- No three of the points are on a line, and none is in the triangle of the others. -/
def StrictlyConvex (p : Fin 4 → 𝕜 × 𝕜) : Prop :=
  ∀ i, ¬ Collinear 𝕜 (p '' {i}ᶜ) ∧ p i ∉ convexHull 𝕜 (p '' {i}ᶜ)

omit [IsStrictOrderedRing 𝕜] in
/-- Convexity does not depend on the order of the points. -/
theorem strictlyConvex_comp {p : Fin 4 → 𝕜 × 𝕜} (σ : Equiv.Perm (Fin 4)) :
    StrictlyConvex 𝕜 (p ∘ σ) ↔ StrictlyConvex 𝕜 p := by
  have himage : ∀ i, (p ∘ σ) '' {i}ᶜ = p '' {σ i}ᶜ := fun i => by
    rw [Set.image_comp, Set.image_compl_eq σ.bijective, Set.image_singleton]
  exact σ.forall_congr fun {i} => by rw [himage, Function.comp_apply]

/-- The other three points. -/
theorem image_compl_singleton {α : Type*} (p : Fin 4 → α) (i : Fin 4) :
    p '' {i}ᶜ = {p (i + 1), p (i + 2), p (i + 3)} := by
  have hcompl : ({i}ᶜ : Set (Fin 4)) = {i + 1, i + 2, i + 3} := by
    ext j
    simp only [Set.mem_compl_iff, Set.mem_singleton_iff, Set.mem_insert_iff]
    revert i j
    decide
  rw [hcompl, Set.image_insert_eq, Set.image_pair]

omit [IsStrictOrderedRing 𝕜] in
theorem IsCcw.shift {q : Fin 4 → 𝕜 × 𝕜} (h : IsCcw q) (k : Fin 4) : IsCcw fun i => q (k + i) := by
  intro i
  have hk := h (k + i)
  rwa [add_assoc, add_assoc] at hk

omit [IsStrictOrderedRing 𝕜] in
/-- Any three corners turn the same way. -/
theorem IsCcw.turn_pos {q : Fin 4 → 𝕜 × 𝕜} (h : IsCcw q) (i : Fin 4) :
    0 < turn (q i) (q (i + 1)) (q (i + 3)) := by
  have hlast := h (i + 3)
  rw [add_assoc, add_assoc, show (3 + 1 : Fin 4) = 0 from rfl, show (3 + 2 : Fin 4) = 1 from rfl,
    add_zero, ← turn_rotate] at hlast
  exact hlast

/-- **A way round that turns left at every corner** is that of a strictly convex quadrilateral. -/
theorem IsCcw.strictlyConvex {q : Fin 4 → 𝕜 × 𝕜} (h : IsCcw q) : StrictlyConvex 𝕜 q := by
  intro i
  have hcorner := h (i + 1)
  rw [add_assoc, add_assoc] at hcorner
  rw [image_compl_singleton]
  refine ⟨fun hline => hcorner.ne' (collinear_iff_turn_eq_zero.mp hline), fun hmem => ?_⟩
  have hbeyond : turn (q (i + 3)) (q (i + 1)) (q i) < 0 := by
    rw [← turn_rotate, turn_comm, turn_rotate]
    exact neg_neg_of_pos (h.turn_pos i)
  exact absurd (turn_mul_nonneg_of_mem hmem) (not_le.mpr (mul_neg_of_pos_of_neg hcorner hbeyond))

omit [IsStrictOrderedRing 𝕜] in
theorem exists_isCcw {p : Fin 4 → 𝕜 × 𝕜} {a b c d : Fin 4} (h : Function.Bijective ![a, b, c, d])
    (ha : 0 < turn (p a) (p b) (p c)) (hb : 0 < turn (p b) (p c) (p d))
    (hc : 0 < turn (p c) (p d) (p a)) (hd : 0 < turn (p d) (p a) (p b)) :
    ∃ σ : Equiv.Perm (Fin 4), IsCcw (p ∘ σ) := by
  refine ⟨Equiv.ofBijective _ h, fun i => ?_⟩
  match i with
  | 0 => exact ha
  | 1 => exact hb
  | 2 => exact hc
  | 3 => exact hd

/-- A fourth point beyond the side `a b` of a triangle, and no other, goes between `a` and `b`. -/
theorem exists_isCcw_of_beyond_side {p : Fin 4 → 𝕜 × 𝕜} {a b c d : Fin 4}
    (h : Function.Bijective ![a, d, b, c]) (hpos : 0 < turn (p a) (p b) (p c))
    (hab : turn (p a) (p b) (p d) < 0) (hbc : 0 < turn (p b) (p c) (p d))
    (hca : 0 < turn (p c) (p a) (p d)) : ∃ σ : Equiv.Perm (Fin 4), IsCcw (p ∘ σ) := by
  refine exists_isCcw h ?_ ?_ ?_ hca
  · rw [turn_comm]
    exact neg_pos.mpr hab
  · rwa [← turn_rotate]
  · rwa [turn_rotate]

/-- A fourth point beyond the sides at `b` of a triangle, and not beyond the third, makes one with
`a` and `c` that `b` is in. -/
theorem mem_convexHull_of_beyond_corner (hpos : 0 < turn a b c) (hab : turn a b d < 0)
    (hbc : turn b c d < 0) (hca : 0 < turn c a d) :
    b ∈ convexHull 𝕜 ({a, d, c} : Set (𝕜 × 𝕜)) := by
  refine mem_convexHull_of_turn ?_ ?_ ?_ ?_
  · rwa [turn_rotate]
  · rw [turn_comm]
    exact neg_nonneg.mpr hab.le
  · rw [turn_rotate, turn_comm]
    exact neg_nonneg.mpr hbc.le
  · rw [← turn_rotate]
    exact hpos.le

/-- The way round when the first three points turn left. -/
theorem StrictlyConvex.exists_isCcw_of_turn_pos {p : Fin 4 → 𝕜 × 𝕜} (h : StrictlyConvex 𝕜 p)
    (hpos : 0 < turn (p 0) (p 1) (p 2)) : ∃ σ : Equiv.Perm (Fin 4), IsCcw (p ∘ σ) := by
  have hline : ∀ i : Fin 4, turn (p (i + 1)) (p (i + 2)) (p (i + 3)) ≠ 0 := fun i hzero =>
    (h i).1 (by rwa [image_compl_singleton, collinear_iff_turn_eq_zero])
  have hout : ∀ i : Fin 4, p i ∉ convexHull 𝕜 ({p (i + 1), p (i + 2), p (i + 3)} : Set _) :=
    fun i => image_compl_singleton p i ▸ (h i).2
  have hsum := turn_add (p 0) (p 1) (p 2) (p 3)
  have hpos' : 0 < turn (p 1) (p 2) (p 0) := by rwa [turn_rotate]
  have hpos'' : 0 < turn (p 2) (p 0) (p 1) := by rwa [turn_rotate]
  have hab : turn (p 0) (p 1) (p 3) ≠ 0 := by
    rw [← turn_rotate, ← turn_rotate]
    exact hline 2
  have hbc : turn (p 1) (p 2) (p 3) ≠ 0 := hline 0
  have hca : turn (p 2) (p 0) (p 3) ≠ 0 := by
    rw [turn_comm, neg_ne_zero]
    exact hline 1
  -- The sides the fourth point is beyond: one, since two would put a corner in a triangle.
  rcases lt_or_gt_of_ne hab with hab | hab <;> rcases lt_or_gt_of_ne hbc with hbc | hbc <;>
    rcases lt_or_gt_of_ne hca with hca | hca
  · linarith
  · refine absurd (mem_convexHull_of_beyond_corner hpos hab hbc hca) ?_
    rw [Set.insert_comm, Set.pair_comm, Set.insert_comm]
    exact hout 1
  · refine absurd (mem_convexHull_of_beyond_corner hpos'' hca hab hbc) ?_
    rw [Set.pair_comm, Set.insert_comm]
    exact hout 0
  · exact exists_isCcw_of_beyond_side (by decide) hpos hab hbc hca
  · refine absurd (mem_convexHull_of_beyond_corner hpos' hbc hca hab) ?_
    rw [Set.insert_comm, Set.pair_comm]
    exact hout 2
  · exact exists_isCcw_of_beyond_side (by decide) hpos' hbc hca hab
  · exact exists_isCcw_of_beyond_side (by decide) hpos'' hca hab hbc
  · exact absurd (mem_convexHull_of_turn hpos hab.le hbc.le hca.le) (hout 3)

/-- **Four points are strictly convex** exactly when some way round them turns left at every
corner. -/
theorem strictlyConvex_iff {p : Fin 4 → 𝕜 × 𝕜} :
    StrictlyConvex 𝕜 p ↔ ∃ σ : Equiv.Perm (Fin 4), IsCcw (p ∘ σ) := by
  refine ⟨fun h => ?_, fun ⟨σ, hσ⟩ => (strictlyConvex_comp σ).mp hσ.strictlyConvex⟩
  have hturn : turn (p 0) (p 1) (p 2) ≠ 0 := fun hzero =>
    (h 3).1 (by rwa [image_compl_singleton, collinear_iff_turn_eq_zero])
  rcases lt_or_gt_of_ne hturn with hneg | hpos
  · -- The first three points backwards turn left.
    have hpos : 0 < turn (p 2) (p 1) (p 0) := turn_reverse (p 0) _ _ ▸ neg_pos.mpr hneg
    obtain ⟨σ, hσ⟩ := ((strictlyConvex_comp (Equiv.swap 0 2)).mpr h).exists_isCcw_of_turn_pos hpos
    exact ⟨σ.trans (Equiv.swap 0 2), hσ⟩
  · exact h.exists_isCcw_of_turn_pos hpos

/-- A way round that turns right at every corner, backwards. -/
theorem strictlyConvex_of_turn_neg {q : Fin 4 → 𝕜 × 𝕜}
    (h : ∀ i, turn (q i) (q (i + 1)) (q (i + 2)) < 0) : StrictlyConvex 𝕜 q := by
  refine strictlyConvex_iff.mpr ⟨Fin.revPerm, fun i => ?_⟩
  have hback : ∀ {a b c : 𝕜 × 𝕜}, turn a b c < 0 → 0 < turn c b a := fun {a b c} hneg =>
    turn_reverse a b c ▸ neg_pos.mpr hneg
  match i with
  | 0 => exact hback (h 1)
  | 1 => exact hback (h 0)
  | 2 => exact hback (h 3)
  | 3 => exact hback (h 2)

/-- The center is to the left of every side. -/
theorem IsCcw.turn_center_pos {q : Fin 4 → 𝕜 × 𝕜} (h : IsCcw q) (i : Fin 4) :
    0 < turn (center q) (q i) (q (i + 1)) := by
  have hmean : turn (center q) (q i) (q (i + 1)) =
      (turn (q i) (q (i + 1)) (q (i + 2)) + turn (q i) (q (i + 1)) (q (i + 3))) / 4 := by
    unfold center turn
    simp only [Fin.sum_univ_four]
    match i with
    | 0 | 1 | 2 | 3 => 
      simp only [Fin.reduceAdd]
      ring
  rw [hmean]
  exact div_pos (add_pos (h i) (h.turn_pos i)) four_pos

end Ordered

/-! ## Angles -/

/-- The angle of a vector, in `(-π, π]`, and zero for the zero vector. -/
noncomputable def angle (v : ℝ × ℝ) : ℝ := Complex.arg ⟨v.1, v.2⟩

theorem cross_eq_sin (z w : ℂ) :
    z.re * w.im - z.im * w.re = ‖z‖ * ‖w‖ * Real.sin (w.arg - z.arg) :=
  calc z.re * w.im - z.im * w.re
      = ‖z‖ * Real.cos z.arg * (‖w‖ * Real.sin w.arg) -
          ‖z‖ * Real.sin z.arg * (‖w‖ * Real.cos w.arg) := by
        rw [Complex.norm_mul_cos_arg, Complex.norm_mul_sin_arg, Complex.norm_mul_cos_arg,
          Complex.norm_mul_sin_arg]
    _ = ‖z‖ * ‖w‖ * Real.sin (w.arg - z.arg) := by
        rw [Real.sin_sub]
        ring

/-- A left turn about a point goes up by less than a half turn, or down by more. -/
theorem angle_of_turn_pos {c a b : ℝ × ℝ} (h : 0 < turn c a b) :
    (angle (a - c) < angle (b - c) ∧ angle (b - c) < angle (a - c) + Real.pi) ∨
      angle (b - c) + Real.pi < angle (a - c) := by
  by_contra hnot
  rw [not_or, not_and_or, not_lt, not_lt, not_lt] at hnot
  obtain ⟨hsmall, hdown⟩ := hnot
  have hlow := Complex.neg_pi_lt_arg ⟨(a - c).1, (a - c).2⟩
  have hhigh := Complex.arg_le_pi ⟨(b - c).1, (b - c).2⟩
  change -Real.pi < angle (a - c) at hlow
  change angle (b - c) ≤ Real.pi at hhigh
  have hsin : Real.sin (angle (b - c) - angle (a - c)) ≤ 0 := by
    rcases hsmall with hle | hge
    · exact Real.sin_nonpos_of_nonpos_of_neg_pi_le (by linarith) (by linarith)
    · have hpi : 0 ≤ Real.sin (angle (b - c) - angle (a - c) - Real.pi) :=
        Real.sin_nonneg_of_nonneg_of_le_pi (by linarith) (by linarith)
      rw [Real.sin_sub_pi] at hpi
      linarith
  have hturn : turn c a b = _ := cross_eq_sin ⟨(a - c).1, (a - c).2⟩ ⟨(b - c).1, (b - c).2⟩
  rw [hturn] at h
  exact absurd h (not_lt.mpr (mul_nonpos_of_nonneg_of_nonpos (by positivity) hsin))

theorem strictMono_of_steps {α : Type*} [Preorder α] {f : Fin 4 → α} (h0 : f 0 < f 1)
    (h1 : f 1 < f 2) (h2 : f 2 < f 3) : StrictMono f :=
  Fin.strictMono_iff_lt_succ.mpr fun i => match i with
    | 0 => h0
    | 1 => h1
    | 2 => h2

/-- **The angles around the center** go up along a way that turns left, from some corner on. -/
theorem IsCcw.exists_strictMono {q : Fin 4 → ℝ × ℝ} (h : IsCcw q) :
    ∃ k : Fin 4, StrictMono fun i => angle (q (k + i) - center q) := by
  have hpi := Real.pi_pos
  have h0 := angle_of_turn_pos (h.turn_center_pos 0)
  have h1 := angle_of_turn_pos (h.turn_center_pos 1)
  have h2 := angle_of_turn_pos (h.turn_center_pos 2)
  have h3 := angle_of_turn_pos (h.turn_center_pos 3)
  simp only [Fin.reduceAdd, zero_add] at h0 h1 h2 h3
  -- One of the four steps goes down, and only one: two would go down by more than a full turn.
  rcases h0 with h0 | h0
  · rcases h1 with h1 | h1
    · rcases h2 with h2 | h2
      · exact ⟨0, strictMono_of_steps h0.1 h1.1 h2.1⟩
      · rcases h3 with h3 | h3
        · exact ⟨3, strictMono_of_steps h3.1 h0.1 h1.1⟩
        · linarith
    · rcases h2 with h2 | h2 <;> rcases h3 with h3 | h3
      · exact ⟨2, strictMono_of_steps h2.1 h3.1 h0.1⟩
      · linarith
      · linarith
      · linarith
  · rcases h1 with h1 | h1 <;> rcases h2 with h2 | h2 <;> rcases h3 with h3 | h3
    · exact ⟨1, strictMono_of_steps h1.1 h2.1 h3.1⟩
    all_goals linarith

end FacLpr

import FacLpr.Foundations.Quadrilaterals
import FacLpr.Infrastructure.Geometry.PlateGeometryValidator
import Mathlib.Data.List.GetD

/-!
# Infrastructure/Geometry/CornerOrder — the order of the corners forgets the order of the keypoints

In exact arithmetic the sort by angle breaks every tie, so the ordered corners, and with them the
whole evaluation, depend on the set of keypoints only (`evaluate_permuted`); and the order it finds
goes round the four points, so the convexity test is exact (`polygonIsConvex_iff`).
-/

namespace FacLpr

namespace PlateGeometryValidator

attribute [local instance] neZero_four realScalar

variable {points : Fin 4 → Point2f ℝ}

/-! ## The sort -/

theorem angleBefore_eq_lexOrder (centerX centerY : ℝ) : angleBefore (F := ℝ) centerX centerY =
    lexOrder (angleAround centerX centerY) (· < ·)
      (lexOrder Point2f.y (· < ·) fun left right => decide (left.x < right.x)) := rfl

theorem strictWeakOrder_angleBefore (centerX centerY : ℝ) :
    StrictWeakOrder (angleBefore (F := ℝ) centerX centerY) := by
  have hx : StrictWeakOrder fun left right : Point2f ℝ => decide (left.x < right.x) := by
    convert strictWeakOrder_key (Point2f.x (F := ℝ))
  rw [angleBefore_eq_lexOrder]
  exact (hx.lexOrder (κ := ℝ)).lexOrder (κ := ℝ)

/-- **The sort breaks every tie.** -/
theorem eq_of_angleBefore_eq_false {centerX centerY : ℝ} {a b : Point2f ℝ}
    (h : angleBefore centerX centerY a b = false) (h' : angleBefore centerX centerY b a = false) :
    a = b := by
  rw [angleBefore_eq_lexOrder] at h h'
  obtain ⟨-, h, h'⟩ := lexOrder_tie (κ := ℝ) h h'
  obtain ⟨hy, h, h'⟩ := lexOrder_tie (κ := ℝ) h h'
  have hx : a.x = b.x :=
    le_antisymm (not_lt.mp (of_decide_eq_false h')) (not_lt.mp (of_decide_eq_false h))
  cases a
  cases b
  exact congrArg₂ Point2f.mk hx hy

theorem centerOf_comp (coordinate : Point2f ℝ → ℝ) (points : Fin 4 → Point2f ℝ)
    (σ : Equiv.Perm (Fin 4)) :
    centerOf ℝ coordinate (points ∘ σ) = centerOf ℝ coordinate points := by
  have : RightCommutative fun (value : ℝ) (point : Point2f ℝ) =>
      value + GeometryArithmetic.widen (coordinate point) := ⟨fun _ _ _ => add_right_comm _ _ _⟩
  unfold centerOf
  rw [(σ.ofFn_comp_perm points).foldl_eq]

/-- **The ordered corners forget the order of the points.** -/
theorem orderedCorners_comp (points : Fin 4 → Point2f ℝ) (σ : Equiv.Perm (Fin 4)) :
    orderedCorners ℝ (points ∘ σ) = orderedCorners ℝ points := by
  have hsort : ∀ centerX centerY : ℝ,
      stableSort (angleBefore centerX centerY) (List.ofFn (points ∘ σ)) =
        stableSort (angleBefore centerX centerY) (List.ofFn points) := fun centerX centerY =>
    StdSort.stable.sort_eq_of_perm (strictWeakOrder_angleBefore centerX centerY)
      (fun _ _ _ _ => eq_of_angleBefore_eq_false) (σ.ofFn_comp_perm points)
  unfold orderedCorners
  rw [centerOf_comp, centerOf_comp, hsort]

/-- Reading four elements in a circle. -/
theorem getD_ofFn_add {α : Type*} (f : Fin 4 → α) (t : ℕ) (i : Fin 4) (fallback : α) :
    (List.ofFn f).getD ((t + i) % 4) fallback = f (Fin.ofNat 4 t + i) := by
  have hlt : (t + i) % 4 < 4 := Nat.mod_lt _ (by decide)
  have hindex : (⟨(t + i) % 4, hlt⟩ : Fin 4) = Fin.ofNat 4 t + i := by
    refine Fin.ext ?_
    simp [Fin.val_add]
  rw [List.getD_eq_getElem _ _ (by rwa [List.length_ofFn]), List.getElem_ofFn, ← hindex]

/-- The corners are the sorted points, read in a circle. -/
theorem orderedCorners_of_sort {f : Fin 4 → Point2f ℝ}
    (h : stableSort (angleBefore (centerOf ℝ Point2f.x points) (centerOf ℝ Point2f.y points))
      (List.ofFn points) = List.ofFn f) :
    ∃ k : Fin 4, orderedCorners ℝ points = fun i => f (k + i) := by
  refine ⟨Fin.ofNat 4 (minElement topLeftBefore (List.ofFn f)), funext fun i => ?_⟩
  unfold orderedCorners
  rw [h]
  exact getD_ofFn_add f _ i _

/-- **The ordered corners are the points**, in some order. -/
theorem exists_orderedCorners_eq (points : Fin 4 → Point2f ℝ) :
    ∃ τ : Equiv.Perm (Fin 4), orderedCorners ℝ points = points ∘ τ := by
  obtain ⟨σ, hσ⟩ := exists_perm_stableSort
    (angleBefore (centerOf ℝ Point2f.x points) (centerOf ℝ Point2f.y points)) points
  obtain ⟨k, hk⟩ := orderedCorners_of_sort hσ
  exact ⟨(Equiv.addLeft k).trans σ, hk⟩

/-! ## The evaluation -/

theorem distance_comm (a b : Point2f ℝ) : distance ℝ a b = distance ℝ b a := by
  change √((b.x - a.x) ^ 2 + (b.y - a.y) ^ 2) = √((a.x - b.x) ^ 2 + (a.y - b.y) ^ 2)
  rw [← neg_sub a.x, ← neg_sub a.y, neg_sq, neg_sq]

theorem pointsAreUnique_iff {points : Fin 4 → Point2f ℝ} : pointsAreUnique ℝ points = true ↔
    ∀ i j, i ≠ j → ¬ distance ℝ (points i) (points j) ≤ epsilon := by
  unfold pointsAreUnique
  rw [decide_eq_true_eq]
  refine ⟨fun h i j hne => ?_, fun h i j hlt => h i j hlt.ne⟩
  rcases lt_or_gt_of_ne hne with hlt | hlt
  · exact h i j hlt
  · rw [distance_comm]
    exact h j i hlt

theorem pointsAreUnique_comp (points : Fin 4 → Point2f ℝ) (σ : Equiv.Perm (Fin 4)) :
    pointsAreUnique ℝ (points ∘ σ) = pointsAreUnique ℝ points := by
  rw [Bool.eq_iff_iff, pointsAreUnique_iff, pointsAreUnique_iff]
  constructor
  · intro h i j hne
    have hij := h (σ.symm i) (σ.symm j) (σ.symm.injective.ne hne)
    simpa only [Function.comp_apply, Equiv.apply_symm_apply] using hij
  · exact fun h i j hne => h (σ i) (σ j) (σ.injective.ne hne)

/-- A sum that stops at a bad term does not depend on the order. -/
theorem foldlM_add_perm {bad : ℝ → Prop} [DecidablePred bad] {l l' : List ℝ} (h : l.Perm l')
    (sum : ℝ) :
    l.foldlM (fun sum x => if bad x then none else some (sum + x)) sum =
      l'.foldlM (fun sum x => if bad x then none else some (sum + x)) sum := by
  induction h generalizing sum with
  | nil => rfl
  | cons x _ ih =>
    simp only [List.foldlM_cons]
    exact bind_congr ih
  | swap x y l =>
    simp only [List.foldlM_cons]
    by_cases hx : bad x <;> by_cases hy : bad y <;> simp [hx, hy, add_right_comm]
  | trans _ _ ih ih' => exact (ih sum).trans (ih' sum)

theorem keypointSum_comp (config : GeometryConfig ℝ) (confidences : Fin 4 → ℝ)
    (σ : Equiv.Perm (Fin 4)) :
    keypointSum config (confidences ∘ σ) = keypointSum config confidences :=
  foldlM_add_perm (σ.ofFn_comp_perm confidences) 0

/-- The detection with its keypoints and their confidences in another order. -/
def permuted (detection : Detection ℝ) (σ : Equiv.Perm (Fin 4)) : Detection ℝ :=
  { detection with
    quadrilateral := detection.quadrilateral.map fun quadrilateral =>
      ⟨quadrilateral.points ∘ σ, quadrilateral.confidences ∘ σ⟩ }

theorem isFinite_real (p : Point2f ℝ) : p.isFinite = true := rfl

theorem orderPlateCorners_real (points : Fin 4 → Point2f ℝ) :
    orderPlateCorners ℝ points = .ok (orderedCorners ℝ points) := by
  unfold orderPlateCorners
  rw [decide_eq_true fun i => isFinite_real (points i)]
  rfl

theorem evaluateOrdered_comp (config : GeometryConfig ℝ) (box : BoundingBox ℝ) (boxRatioScore : ℝ)
    (confidences : Fin 4 → ℝ) (ordered : Fin 4 → Point2f ℝ) (σ : Equiv.Perm (Fin 4)) :
    evaluateOrdered ℝ config box boxRatioScore (confidences ∘ σ) ordered =
      evaluateOrdered ℝ config box boxRatioScore confidences ordered := by
  unfold evaluateOrdered
  rw [keypointSum_comp]

theorem evaluate_permuted_eq (c : Config ℝ) (detection : Detection ℝ) (σ : Equiv.Perm (Fin 4)) :
    evaluate ℝ c (permuted detection σ) = evaluate ℝ c detection := by
  unfold evaluate permuted
  cases detection.quadrilateral with
  | none => rfl
  | some quadrilateral =>
    simp only [Option.map_some, pointsAreUnique_comp, orderPlateCorners_real, orderedCorners_comp,
      isFinite_real, implies_true, not_true_eq_false, if_false]
    refine ite_congr rfl (fun _ => rfl) fun _ => ite_congr rfl (fun _ => rfl) fun _ =>
      ite_congr rfl (fun _ => rfl) fun _ => ?_
    exact congrArg Except.ok (evaluateOrdered_comp _ _ _ _ _ σ)

/-- **The evaluation ignores the order of the keypoints**, and the ordered corners are the points in
an order of their own. -/
theorem evaluate_permuted (c : Config ℝ) (detection : Detection ℝ) (points : Fin 4 → Point2f ℝ)
    (σ : Equiv.Perm (Fin 4)) :
    evaluate ℝ c (permuted detection σ) = evaluate ℝ c detection ∧
      orderPlateCorners ℝ (points ∘ σ) = orderPlateCorners ℝ points ∧
      ∃ τ : Equiv.Perm (Fin 4), orderPlateCorners ℝ points = .ok (points ∘ τ) := by
  obtain ⟨τ, hτ⟩ := exists_orderedCorners_eq points
  refine ⟨evaluate_permuted_eq c detection σ, ?_, τ, ?_⟩
  · rw [orderPlateCorners_real, orderPlateCorners_real, orderedCorners_comp]
  · rw [orderPlateCorners_real, hτ]

/-! ## Convexity -/

/-- The point, as a pair. -/
def toPair (p : Point2f ℝ) : ℝ × ℝ := (p.x, p.y)

/-- The turn of a polygon at a corner. -/
noncomputable def cornerCross (corners : Fin 4 → Point2f ℝ) (i : Fin 4) : ℝ :=
  cross (corners i) (corners (i + 1)) (corners (i + 2))

variable {ε : ℝ} {corners : Fin 4 → Point2f ℝ}

/-- What the loop does at a corner. -/
theorem convexStep_real (sign : ℝ) (i : Fin 4) : convexStep ℝ ε corners sign i =
    if |cornerCross corners i| ≤ ε then none
    else if sign = 0 then some (cornerCross corners i)
    else if 0 < sign ↔ 0 < cornerCross corners i then some sign else none := by
  change (if false = true ∨ |cornerCross corners i| ≤ ε then none
    else if sign == 0 then some (cornerCross corners i)
    else if decide (0 < sign) != decide (0 < cornerCross corners i) then none
    else some sign) = _
  rw [if_congr (or_iff_right Bool.false_ne_true) rfl rfl]
  refine ite_congr rfl (fun _ => rfl) fun _ => ?_
  refine ite_congr (beq_iff_eq (a := sign)).eq (fun _ => rfl) fun _ => ?_
  by_cases hsame : 0 < sign ↔ 0 < cornerCross corners i
  · rw [if_neg (by simp [hsame]), if_pos hsame]
  · have hne : (decide (0 < sign) != decide (0 < cornerCross corners i)) = true :=
      bne_iff_ne.mpr fun h => hsame (decide_eq_decide.mp h)
    rw [if_pos hne, if_neg hsame]

/-- **The loop**, once it has a sign: every turn is of that sign, and large enough. -/
theorem isSome_foldlM_convexStep {sign : ℝ} (hsign : sign ≠ 0) (l : List (Fin 4)) :
    (l.foldlM (convexStep ℝ ε corners) sign).isSome = true ↔
      ∀ i ∈ l, ε < |cornerCross corners i| ∧ (0 < sign ↔ 0 < cornerCross corners i) := by
  induction l with
  | nil => simp
  | cons i l ih =>
    rw [List.foldlM_cons, convexStep_real, if_neg hsign, List.forall_mem_cons, ← ih]
    by_cases hlarge : |cornerCross corners i| ≤ ε
    · simp [hlarge, not_lt.mpr hlarge]
    · by_cases hsame : 0 < sign ↔ 0 < cornerCross corners i <;>
        simp [hlarge, hsame, not_le.mp hlarge]

theorem polygonIsConvexWithin_iff (hε : 0 ≤ ε) :
    polygonIsConvexWithin ℝ ε corners = true ↔ ∀ i, ε < |cornerCross corners i| ∧
      (0 < cornerCross corners 0 ↔ 0 < cornerCross corners i) := by
  unfold polygonIsConvexWithin
  rw [show List.finRange 4 = [0, 1, 2, 3] from rfl, List.foldlM_cons, convexStep_real,
    if_pos rfl]
  by_cases hlarge : |cornerCross corners 0| ≤ ε
  · rw [if_pos hlarge]
    exact ⟨fun h => (Bool.false_ne_true h).elim, fun h => absurd (h 0).1 (not_lt.mpr hlarge)⟩
  · have hne : cornerCross corners 0 ≠ 0 := fun hzero => hlarge (by rwa [hzero, abs_zero])
    rw [if_neg hlarge]
    refine (isSome_foldlM_convexStep hne [1, 2, 3]).trans ⟨fun h i => ?_, fun h i _ => h i⟩
    match i with
    | 0 => exact ⟨not_le.mp hlarge, Iff.rfl⟩
    | 1 => exact h 1 (by decide)
    | 2 => exact h 2 (by decide)
    | 3 => exact h 3 (by decide)

/-- A polygon that passes goes round its corners one way. -/
theorem strictlyConvex_of_polygonIsConvexWithin (hε : 0 ≤ ε)
    (h : polygonIsConvexWithin ℝ ε corners = true) : StrictlyConvex ℝ (toPair ∘ corners) := by
  rw [polygonIsConvexWithin_iff hε] at h
  by_cases hpos : 0 < cornerCross corners 0
  · exact IsCcw.strictlyConvex fun i => (h i).2.mp hpos
  · refine strictlyConvex_of_turn_neg fun i => ?_
    have hne : cornerCross corners i ≠ 0 := abs_pos.mp (hε.trans_lt (h i).1)
    exact lt_of_le_of_ne (not_lt.mp fun hi => hpos ((h i).2.mpr hi)) hne

/-- A polygon that goes round its corners to the left passes. -/
theorem polygonIsConvexWithin_of_isCcw (hε : 0 ≤ ε) (h : IsCcw (toPair ∘ corners))
    (hexact : ∀ i, cornerCross corners i ≠ 0 → ε < |cornerCross corners i|) :
    polygonIsConvexWithin ℝ ε corners = true :=
  (polygonIsConvexWithin_iff hε).mpr fun i =>
    ⟨hexact i (h i).ne', iff_of_true (h 0) (h i)⟩

theorem centerOf_eq (points : Fin 4 → Point2f ℝ) :
    (centerOf ℝ Point2f.x points, centerOf ℝ Point2f.y points) = center (toPair ∘ points) := by
  have hcast : (Scalar.ofRat 4 : ℝ) = 4 := Rat.cast_ofNat 4
  unfold centerOf center
  rw [hcast, Fin.sum_univ_four, Fin.sum_univ_four, ← zero_add ((toPair ∘ points) 0).1,
    ← zero_add ((toPair ∘ points) 0).2]
  rfl

/-- **The ordered corners of four points in convex position** go round them to the left. -/
theorem isCcw_orderedCorners (h : StrictlyConvex ℝ (toPair ∘ points)) :
    IsCcw (toPair ∘ orderedCorners ℝ points) := by
  obtain ⟨σ, hσ⟩ := strictlyConvex_iff.mp h
  obtain ⟨k, hk⟩ := hσ.exists_strictMono
  let ρ : Equiv.Perm (Fin 4) := (Equiv.addLeft k).trans σ
  let f : Fin 4 → Point2f ℝ := points ∘ ρ
  have hcenter := centerOf_eq points
  rw [center_comp, ← hcenter] at hk
  -- Along the way round the points are in the order of the sort already.
  have hsorted : (List.ofFn f).Pairwise fun a b =>
      angleBefore (centerOf ℝ Point2f.x points) (centerOf ℝ Point2f.y points) b a = false := by
    rw [List.pairwise_ofFn]
    intro i j hij
    have hlt : angleAround (centerOf ℝ Point2f.x points) (centerOf ℝ Point2f.y points) (f i) <
        angleAround (centerOf ℝ Point2f.x points) (centerOf ℝ Point2f.y points) (f j) := hk hij
    rw [angleBefore_eq_lexOrder, lexOrder_of_ne hlt.ne']
    exact decide_eq_false (not_lt.mpr hlt.le)
  have hsort : stableSort
      (angleBefore (centerOf ℝ Point2f.x points) (centerOf ℝ Point2f.y points))
      (List.ofFn points) = List.ofFn f :=
    calc stableSort (angleBefore _ _) (List.ofFn points)
        = stableSort (angleBefore _ _) (List.ofFn f) :=
          StdSort.stable.sort_eq_of_perm (strictWeakOrder_angleBefore _ _)
            (fun _ _ _ _ => eq_of_angleBefore_eq_false) (ρ.ofFn_comp_perm points).symm
      _ = List.ofFn f := stableSort_eq_self hsorted
  obtain ⟨t, ht⟩ := orderedCorners_of_sort hsort
  rw [ht]
  have hshift := hσ.shift (k + t)
  simp only [add_assoc] at hshift
  exact hshift

theorem polygonIsConvexWithin_orderedCorners_iff (hε : 0 ≤ ε)
    (hexact : ∀ i j k, cross (points i) (points j) (points k) ≠ 0 →
      ε < |cross (points i) (points j) (points k)|) :
    polygonIsConvexWithin ℝ ε (orderedCorners ℝ points) = true ↔
      StrictlyConvex ℝ (toPair ∘ points) := by
  obtain ⟨τ, hτ⟩ := exists_orderedCorners_eq points
  constructor
  · intro hconvex
    have hcorners := strictlyConvex_of_polygonIsConvexWithin hε hconvex
    rw [hτ] at hcorners
    exact (strictlyConvex_comp τ).mp hcorners
  · intro hconvex
    refine polygonIsConvexWithin_of_isCcw hε (isCcw_orderedCorners hconvex) fun i => ?_
    rw [hτ]
    exact hexact (τ i) (τ (i + 1)) (τ (i + 2))

theorem epsilon_nonneg : (0 : ℝ) ≤ epsilon := by
  change (0 : ℝ) ≤ ((1 / 10000 : ℚ) : ℝ)
  norm_num

/-- **The convexity test is exact** on the corners in the order that the validator puts them in: with
no bound on the cross products, and with the bound where it takes no turn for a straight line. -/
theorem polygonIsConvex_iff (points : Fin 4 → Point2f ℝ) :
    ∃ corners, orderPlateCorners ℝ points = .ok corners ∧
      (polygonIsConvexWithin ℝ 0 corners = true ↔ StrictlyConvex ℝ (toPair ∘ points)) ∧
      ((∀ i j k, cross (points i) (points j) (points k) ≠ 0 →
          epsilon < |cross (points i) (points j) (points k)|) →
        (polygonIsConvex ℝ corners = true ↔ StrictlyConvex ℝ (toPair ∘ points))) :=
  ⟨orderedCorners ℝ points, orderPlateCorners_real points,
    polygonIsConvexWithin_orderedCorners_iff le_rfl fun _ _ _ => abs_pos.mpr,
    polygonIsConvexWithin_orderedCorners_iff epsilon_nonneg⟩

/-- A square, its corners crosswise. -/
noncomputable def crossedSquare : Fin 4 → Point2f ℝ
  | 0 => ⟨0, 0⟩
  | 1 => ⟨8, 8⟩
  | 2 => ⟨8, 0⟩
  | 3 => ⟨0, 8⟩

theorem strictlyConvex_crossedSquare : StrictlyConvex ℝ (toPair ∘ crossedSquare) := by
  refine strictlyConvex_iff.mpr (exists_isCcw (a := 0) (b := 2) (c := 1) (d := 3) (by decide)
    ?_ ?_ ?_ ?_)
  all_goals norm_num [turn, toPair, crossedSquare]

theorem epsilon_lt_cross_crossedSquare (i j k : Fin 4)
    (h : cross (crossedSquare i) (crossedSquare j) (crossedSquare k) ≠ 0) :
    epsilon < |cross (crossedSquare i) (crossedSquare j) (crossedSquare k)| := by
  have hbound : (epsilon : ℝ) = 1 / 10000 := by
    change ((1 / 10000 : ℚ) : ℝ) = 1 / 10000
    norm_num
  rw [hbound]
  revert h
  fin_cases i <;> fin_cases j <;> fin_cases k <;> norm_num [cross, crossedSquare]

/-- Both forms of the test accept the square, whose corners are in no order round it. -/
theorem polygonIsConvex_crossedSquare :
    ∃ corners, orderPlateCorners ℝ crossedSquare = .ok corners ∧
      polygonIsConvexWithin ℝ 0 corners = true ∧ polygonIsConvex ℝ corners = true := by
  obtain ⟨corners, hok, hzero, hepsilon⟩ := polygonIsConvex_iff crossedSquare
  exact ⟨corners, hok, hzero.mpr strictlyConvex_crossedSquare,
    (hepsilon epsilon_lt_cross_crossedSquare).mpr strictlyConvex_crossedSquare⟩

end PlateGeometryValidator

end FacLpr

import FacLpr.Foundations.OutwardPoints
import FacLpr.Infrastructure.Geometry.CornerOrder
import FacLpr.Infrastructure.Opencv.AlignedImages

/-!
# Infrastructure/Opencv/CoveredPlates — a rectified plate is all there

In exact arithmetic the corners of a plausible plate are pushed outward, so what they span covers
the plate; only clamping to the image may cut it.  What OpenCV is handed are those corners
(`align_covers`), and none of the edges is too short to be pushed along.
-/

namespace FacLpr

open Program

/-- The exact conversions. -/
@[reducible] noncomputable def realImageArithmetic : ImageArithmetic ℝ ℝ where
  floor x := ⌊x⌋.toNat
  ceil x := ⌈x⌉.toNat
  floorWide x := ⌊x⌋.toNat
  widen x := x
  narrow x := x
  absolute x := |x|
  roundWide x := ⌊x + ((1 / 2 : ℚ) : ℝ)⌋.toNat

namespace OpenCvPerspectiveAligner

open PlateGeometryValidator

attribute [local instance] neZero_four realScalar realImageArithmetic

variable {σ : Type} {corners : Fin 4 → Point2f ℝ} {config : PerspectiveAlignerConfig ℝ}
  {source : ImageView}

/-! ## The edges of a plausible plate -/

theorem orderedCorners_evaluateEdges (c : GeometryConfig ℝ) (box : BoundingBox ℝ)
    (boxRatioScore keypointScore : ℝ) (ordered : Fin 4 → Point2f ℝ) :
    (evaluateEdges ℝ c box boxRatioScore keypointScore ordered).orderedCorners = ordered := by
  unfold evaluateEdges
  dsimp only
  split_ifs <;> rfl

/-- **A valid evaluation** orders the corners of a quadrilateral, none of them near another. -/
theorem exists_quadrilateral {c : Config ℝ} {detection : Detection ℝ}
    {evaluation : GeometryEvaluation ℝ} (h : evaluate ℝ c detection = .ok evaluation)
    (hvalid : evaluation.valid = true) :
    ∃ quadrilateral, detection.quadrilateral = some quadrilateral ∧
      pointsAreUnique ℝ quadrilateral.points = true ∧
        evaluation.orderedCorners = orderedCorners ℝ quadrilateral.points := by
  have hinvalid (reason : String) (ordered : Fin 4 → Point2f ℝ)
      (hreturned : Except.ok (invalidEvaluation reason ordered) =
        (Except.ok evaluation : Except EngineError _)) : False := by
    obtain rfl := Except.ok.inj hreturned
    cases hvalid
  unfold evaluate at h
  dsimp only at h
  split at h
  · exact (hinvalid _ _ h).elim
  split at h
  · exact (hinvalid _ _ h).elim
  split at h
  · exact (hinvalid _ _ h).elim
  rename_i quadrilateral hquadrilateral
  split at h
  · exact (hinvalid _ _ h).elim
  split at h
  · exact (hinvalid _ _ h).elim
  rename_i hunique
  rw [orderPlateCorners_real] at h
  obtain rfl := Except.ok.inj h
  refine ⟨quadrilateral, hquadrilateral, by simpa using hunique, ?_⟩
  unfold evaluateOrdered
  split
  · rfl
  split
  · rfl
  split
  · rfl
  · exact orderedCorners_evaluateEdges _ _ _ _ _

/-- No corner is near another. -/
def Spread (corners : Fin 4 → Point2f ℝ) : Prop :=
  ∀ i j, i ≠ j → ¬ distance ℝ (corners i) (corners j) ≤ epsilon

/-- The landscape corners are the corners in some order. -/
theorem exists_landscapeCorners_eq (config : PerspectiveAlignerConfig ℝ)
    (corners : Fin 4 → Point2f ℝ) :
    ∃ τ : Equiv.Perm (Fin 4), landscapeCorners ℝ config corners = corners ∘ τ := by
  unfold landscapeCorners
  split
  · refine ⟨finRotate 4 ^ 3, funext fun i => ?_⟩
    fin_cases i <;> rfl
  · exact ⟨1, rfl⟩

theorem Spread.comp (h : Spread corners) (τ : Equiv.Perm (Fin 4)) : Spread (corners ∘ τ) :=
  fun i j hne => h (τ i) (τ j) (τ.injective.ne hne)

/-! ## The pushed corners -/

theorem normalizedDirection_ok {start finish : Point2f ℝ}
    (h : ¬ distance ℝ start finish ≤ epsilon) :
    normalizedDirection ℝ start finish =
      .ok ⟨(finish.x - start.x) / distance ℝ start finish,
        (finish.y - start.y) / distance ℝ start finish⟩ := by
  have hcheck : (Scalar.isFinite (distance ℝ start finish) &&
      !decide (distance ℝ start finish ≤ Scalar.ofRat (1 / 10000))) = true := by
    change (true && !decide (distance ℝ start finish ≤ epsilon)) = true
    rw [decide_eq_false h]
    rfl
  exact require_bind_of_true hcheck

theorem averageWidth_nonneg (corners : Fin 4 → Point2f ℝ) : 0 ≤ averageWidth ℝ corners :=
  mul_nonneg (add_nonneg (Real.sqrt_nonneg _) (Real.sqrt_nonneg _)) (by
    change (0 : ℝ) ≤ ((1 / 2 : ℚ) : ℝ)
    norm_num)

theorem averageHeight_nonneg (corners : Fin 4 → Point2f ℝ) : 0 ≤ averageHeight ℝ corners :=
  mul_nonneg (add_nonneg (Real.sqrt_nonneg _) (Real.sqrt_nonneg _)) (by
    change (0 : ℝ) ≤ ((1 / 2 : ℚ) : ℝ)
    norm_num)

/-- **The corners are pushed outward**, each along its two edges. -/
theorem exists_pushedCorners (h : Spread corners) (hhorizontal : 0 ≤ config.horizontalPaddingRatio)
    (hvertical : 0 ≤ config.verticalPaddingRatio) :
    ∃ pushed, pushedCorners ℝ corners config = .ok pushed ∧
      PushedOutward (toPair ∘ corners) (toPair ∘ pushed) := by
  have hdirection (i j : Fin 4) (hne : i ≠ j) := normalizedDirection_ok (h i j hne)
  have hpushed := (except_bind_eq_ok.mpr ⟨_, hdirection 0 1 (by decide),
    except_bind_eq_ok.mpr ⟨_, hdirection 3 2 (by decide),
      except_bind_eq_ok.mpr ⟨_, hdirection 0 3 (by decide),
        except_bind_eq_ok.mpr ⟨_, hdirection 1 2 (by decide), rfl⟩⟩⟩⟩ :
    pushedCorners ℝ corners config = .ok _)
  refine ⟨_, hpushed, pushedOutward_of_pairs fun i => ?_⟩
  have hwidth := mul_nonneg (averageWidth_nonneg corners) hhorizontal
  have hheight := mul_nonneg (averageHeight_nonneg corners) hvertical
  generalize averageWidth ℝ corners * config.horizontalPaddingRatio = horizontal at *
  generalize averageHeight ℝ corners * config.verticalPaddingRatio = vertical at *
  have hside {side : ℝ} (hside : 0 ≤ side) (j k : Fin 4) :
      0 ≤ side / distance ℝ (corners j) (corners k) := div_nonneg hside (Real.sqrt_nonneg _)
  fin_cases i
  · refine ⟨1, 3, _, _, hside hwidth 0 1, hside hheight 0 3, Prod.ext ?_ ?_⟩ <;>
    · dsimp [toPair]
      ring
  · refine ⟨0, 2, _, _, hside hwidth 0 1, hside hheight 1 2, Prod.ext ?_ ?_⟩ <;>
    · dsimp [toPair]
      ring
  · refine ⟨3, 1, _, _, hside hwidth 3 2, hside hheight 1 2, Prod.ext ?_ ?_⟩ <;>
    · dsimp [toPair]
      ring
  · refine ⟨2, 0, _, _, hside hwidth 3 2, hside hheight 0 3, Prod.ext ?_ ?_⟩ <;>
    · dsimp [toPair]
      ring

/-! ## The clamped corners -/

/-- A point between the centers of the first and the last pixels. -/
def InImage (source : ImageView) (p : Point2f ℝ) : Prop :=
  (0 ≤ p.x ∧ p.x ≤ (source.width - 1 : ℕ)) ∧ 0 ≤ p.y ∧ p.y ≤ (source.height - 1 : ℕ)

theorem clamp_count_mem (x : ℝ) (n : ℕ) :
    (0 ≤ Scalar.clamp x 0 (Scalar.ofRat n) ∧ Scalar.clamp x 0 (Scalar.ofRat n) ≤ n) ∧
      (0 ≤ x ∧ x ≤ n → Scalar.clamp x 0 (Scalar.ofRat n) = x) := by
  have hcount : (Scalar.ofRat (n : ℚ) : ℝ) = n := Rat.cast_natCast n
  have hnonneg : (0 : ℝ) ≤ n := Nat.cast_nonneg n
  rw [hcount]
  unfold Scalar.clamp
  split_ifs with hlow hhigh
  · exact ⟨⟨le_rfl, hnonneg⟩, fun h => absurd h.1 (not_le.mpr hlow)⟩
  · exact ⟨⟨hnonneg, le_rfl⟩, fun h => absurd h.2 (not_le.mpr hhigh)⟩
  · exact ⟨⟨not_lt.mp hlow, not_lt.mp hhigh⟩, fun _ => rfl⟩

/-- **A clamped point is in the image**, and a point in the image is not clamped. -/
theorem clampPoint_mem (p : Point2f ℝ) (source : ImageView) :
    InImage source (clampPoint p source) ∧ (InImage source p → clampPoint p source = p) := by
  obtain ⟨hx, hx'⟩ := clamp_count_mem p.x (source.width - 1)
  obtain ⟨hy, hy'⟩ := clamp_count_mem p.y (source.height - 1)
  exact ⟨⟨hx, hy⟩, fun h => congrArg₂ Point2f.mk (hx' h.1) (hy' h.2)⟩

/-! ## The rectified plate -/

/-- What the constructor checked of the paddings. -/
theorem paddings_nonneg (aligner : OpenCvPerspectiveAligner ℝ) :
    0 ≤ aligner.config.horizontalPaddingRatio ∧ 0 ≤ aligner.config.verticalPaddingRatio := by
  have haccepted := require_eq_ok.mp aligner.accepted
  simp only [Bool.and_eq_true, validPaddingRatio, Bool.not_eq_true', decide_eq_false_iff_not,
    not_lt] at haccepted
  obtain ⟨⟨⟨⟨⟨⟨-, hhorizontal⟩, -⟩, ⟨-, hvertical⟩, -⟩, -⟩, -⟩, -⟩ := haccepted
  exact ⟨hhorizontal, hvertical⟩

/-- What the corners of a quadrilateral span. -/
def span (corners : Fin 4 → Point2f ℝ) : Set (ℝ × ℝ) := convexHull ℝ (Set.range (toPair ∘ corners))

/-- **A rectified plate**: OpenCV warped it from the clamped corners of a quadrilateral that covers
the plate, and from those of the quadrilateral itself when it is in the image. -/
structure Rectified (library : WarpLibrary ℝ) (source : ImageView) (points : Fin 4 → Point2f ℝ)
    (image : ImageBuffer) (pushed : Fin 4 → Point2f ℝ) : Prop where
  covers : span points ⊆ span pushed
  inside : ∀ i, InImage source (clampPoint (pushed i) source)
  unclamped : (∀ i, InImage source (pushed i)) →
    span points ⊆ span fun i => clampPoint (pushed i) source
  warps : ∃ blank transform pixel,
    library.getPerspectiveTransform (fun i => clampPoint (pushed i) source)
      (destinationCorners blank) = .ok transform ∧
    library.usable transform = true ∧
    library.warpPerspective source transform blank = .ok pixel ∧
    image = { blank with bytes := (List.range blank.bytes.length).map pixel }

/-- The corners of a plausible plate are pushed outward, and cover it. -/
theorem exists_pushedCorners_of_valid (aligner : OpenCvPerspectiveAligner ℝ)
    {detection : Detection ℝ} {evaluation : GeometryEvaluation ℝ}
    (h : evaluate ℝ aligner.geometry detection = .ok evaluation)
    (hvalid : evaluation.valid = true) :
    ∃ quadrilateral pushed, detection.quadrilateral = some quadrilateral ∧
      pushedCorners ℝ (landscapeCorners ℝ aligner.config evaluation.orderedCorners)
        aligner.config = .ok pushed ∧
      span quadrilateral.points ⊆ span pushed := by
  obtain ⟨quadrilateral, hquadrilateral, hunique, hordered⟩ := exists_quadrilateral h hvalid
  obtain ⟨τ, hτ⟩ := exists_orderedCorners_eq quadrilateral.points
  obtain ⟨τ', hτ'⟩ := exists_landscapeCorners_eq aligner.config evaluation.orderedCorners
  have hcorners : landscapeCorners ℝ aligner.config evaluation.orderedCorners =
      quadrilateral.points ∘ (τ'.trans τ) := by
    rw [hτ', hordered, hτ]
    rfl
  have hspread : Spread quadrilateral.points := pointsAreUnique_iff.mp hunique
  obtain ⟨pushed, hpushed, houtward⟩ := exists_pushedCorners (hspread.comp (τ'.trans τ))
    aligner.paddings_nonneg.1 aligner.paddings_nonneg.2
  refine ⟨quadrilateral, pushed, hquadrilateral, hcorners ▸ hpushed, ?_⟩
  have hrange : Set.range (toPair ∘ quadrilateral.points ∘ (τ'.trans τ)) =
      Set.range (toPair ∘ quadrilateral.points) :=
    (τ'.trans τ).surjective.range_comp (toPair ∘ quadrilateral.points)
  unfold span
  rw [← hrange]
  exact convexHull_subset_of_outward houtward

variable [World σ]

/-- What a rectification returns: a copy of the box, or what OpenCV warped. -/
theorem returns_rectify (library : WarpLibrary ℝ) (aligner : OpenCvPerspectiveAligner ℝ)
    (validated : ValidatedImage) (detection : Detection ℝ) (ordered : Fin 4 → Point2f ℝ)
    (context : OperationContext) :
    Returns (rectify ℝ library aligner validated detection ordered context :
      Run σ (Option ImageBuffer)) fun aligned =>
        bboxFallback ℝ library aligner validated.view detection = .ok aligned ∨
          ∃ corners blank image, paddedCorners ℝ (landscapeCorners ℝ aligner.config ordered)
              validated.view aligner.config = .ok corners ∧
            aligned = some image ∧
            warped library validated.view corners blank = .ok (some image) := by
  refine (returns_runOfExcept fun _ hcorners => hcorners).bind fun corners hcorners => ?_
  refine (returns_self _).bind fun _ _ => (returns_self _).bind fun _ _ =>
    (returns_self _).bind fun _ _ => (returns_self _).bind fun _ _ =>
      (returns_self _).bind fun blank _ => ?_
  split
  · exact returns_runOfExcept fun _ => Or.inl
  · exact returns_runOfExcept fun _ => Or.inl
  · exact returns_throw _ _
  · rename_i image himage
    exact (returns_self _).bind fun _ _ =>
      returns_pure (Or.inr ⟨corners, blank, image, hcorners, rfl, himage⟩)

/-- **An alignment is a copy of the box or a rectified plate**, whatever OpenCV does: no edge of a
plausible plate is too short, and what is warped covers the plate but where it leaves the image. -/
theorem align_covers (library : WarpLibrary ℝ) (aligner : OpenCvPerspectiveAligner ℝ)
    (source : ImageView) (detection : Detection ℝ) (context : OperationContext) :
    Returns (align ℝ library aligner source detection context : Run σ (Option ImageBuffer))
      (fun aligned => bboxFallback ℝ library aligner source detection = .ok aligned ∨
        ∃ quadrilateral image pushed, detection.quadrilateral = some quadrilateral ∧
          aligned = some image ∧
          Rectified library source quadrilateral.points image pushed) ∧
      ∀ evaluation, evaluate ℝ aligner.geometry detection = .ok evaluation →
        evaluation.valid = true →
          ∃ corners, paddedCorners ℝ
            (landscapeCorners ℝ aligner.config evaluation.orderedCorners) source
              aligner.config = .ok corners := by
  refine ⟨?_, fun evaluation h hvalid => ?_⟩
  · refine (returns_self _).bind fun _ _ => ?_
    refine (returns_runOfExcept fun _ => validateImage_view).bind fun validated hview => ?_
    refine (returns_runOfExcept fun _ h => h).bind fun evaluation h => ?_
    split
    · exact returns_runOfExcept fun _ hfallback => Or.inl (hview ▸ hfallback)
    rename_i hvalid
    obtain ⟨quadrilateral, pushed, hquadrilateral, hpushed, hspan⟩ :=
      exists_pushedCorners_of_valid aligner h (by simpa using hvalid)
    refine (returns_rectify library aligner validated detection evaluation.orderedCorners
      context).mono fun aligned halternative => ?_
    rcases halternative with hfallback | ⟨corners, blank, image, hcorners, haligned, hwarped⟩
    · exact Or.inl (hview ▸ hfallback)
    obtain rfl : corners = fun i => clampPoint (pushed i) source := by
      obtain ⟨pushed', hpushed', hclamped⟩ := except_bind_eq_ok.mp hcorners
      obtain rfl := Except.ok.inj (hpushed.symm.trans hpushed')
      rw [hview] at hclamped
      exact (Except.ok.inj hclamped).symm
    refine Or.inr ⟨quadrilateral, image, pushed, hquadrilateral, haligned, ⟨hspan, fun i =>
      (clampPoint_mem _ _).1, fun hinside => ?_, ?_⟩⟩
    · rw [funext fun i => (clampPoint_mem (pushed i) source).2 (hinside i)]
      exact hspan
    · rw [hview] at hwarped
      exact ⟨blank, warped_eq_some hwarped⟩
  · obtain ⟨-, pushed, -, hpushed, -⟩ := exists_pushedCorners_of_valid aligner h hvalid
    exact ⟨_, except_bind_eq_ok.mpr ⟨pushed, hpushed, rfl⟩⟩

end OpenCvPerspectiveAligner

end FacLpr

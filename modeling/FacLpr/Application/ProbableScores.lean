import FacLpr.Application.CandidateFusion
import FacLpr.Application.ConfidenceCalibration
import FacLpr.Foundations.BinaryScalar

/-!
# Application/ProbableScores — the scores of machine arithmetic stay probabilities

With every operation rounded, the calibrators, the weighting of a candidate and the fusion still
give numbers of the unit interval: a clamp removes what rounding adds, and what is clamped is never
a NaN.
-/

namespace FacLpr

variable {B D : Type} [FloatEncoding B]

namespace Scalar

/-- A finite value, or zero, clamped. -/
theorem isProbability_clamp01_of_isFinite {a : B} (h : isFinite a = true) :
    isProbability (clamp01 a) = true :=
  isProbability_clamp01 (isNumber_of_isFinite h)

end Scalar

/-! ## Calibration -/

/-- A calibrator of the repository; the logistic one with its `std::log` and `std::exp`. -/
inductive ConfidenceCalibrator (F : Type) [Scalar F] where
  | identity
  | logistic (arithmetic : LogisticArithmetic F) (calibrator : LogisticConfidenceCalibrator F)

/-- `calibrate`. -/
def ConfidenceCalibrator.calibrate {F : Type} [Scalar F] :
    ConfidenceCalibrator F → Text → F → F → Text → Except EngineError F
  | .identity => IdentityConfidenceCalibrator.calibrate
  | .logistic _ calibrator => calibrator.calibrate

/-- **Every calibrator gives a probability**, whatever `std::log` and `std::exp` do. -/
theorem isProbability_calibrate (calibrator : ConfidenceCalibrator B) {source cropType : Text}
    {rawConfidence cropQuality calibrated : B}
    (h : calibrator.calibrate source rawConfidence cropQuality cropType = .ok calibrated) :
    Scalar.isProbability calibrated = true := by
  have hcommon : ∀ {u : Unit}, validateCommonInput rawConfidence cropQuality = .ok u →
      Scalar.isProbability rawConfidence = true := by
    intro u hu
    simp only [validateCommonInput, except_bind_eq_ok, require_eq_ok] at hu
    obtain ⟨-, hraw, -⟩ := hu
    exact hraw
  cases calibrator with
  | identity =>
    obtain ⟨_, hinput, hpure⟩ := except_bind_eq_ok.mp h
    cases hpure
    exact hcommon hinput
  | logistic arithmetic calibrator =>
    obtain ⟨_, hinput, h⟩ := except_bind_eq_ok.mp h
    obtain ⟨_, -, h⟩ := except_bind_eq_ok.mp h
    split at h
    · cases h
      exact hcommon hinput
    · split at h
      · cases h
        exact hcommon hinput
      · obtain ⟨_, hfinite, hpure⟩ := except_bind_eq_ok.mp h
        cases hpure
        exact Scalar.isProbability_clamp01_of_isFinite (require_eq_ok.mp hfinite)

/-! ## Fusion -/

namespace CandidateFusion

theorem isProbability_effectiveConfidence (candidate : PlateCandidate B) :
    Scalar.isProbability (effectiveConfidence candidate) = true := by
  unfold effectiveConfidence
  split
  · rename_i h
    exact Scalar.isProbability_clamp01_of_isFinite h.1
  · split
    · rename_i h
      exact Scalar.isProbability_clamp01_of_isFinite h
    · exact isProbability_zero

theorem isProbability_candidateMargin (item : RecognitionEvidence B D)
    (candidate : PlateCandidate B) (candidateIndex : ℕ) :
    Scalar.isProbability (candidateMargin item candidate candidateIndex) = true := by
  refine isProbability_clamp01 (isNumber_sub ?_ ?_)
  · exact Scalar.isFinite_of_isProbability (isProbability_effectiveConfidence candidate)
  · refine Scalar.isFinite_of_isProbability (List.foldlRecOn (motive := fun highest =>
      Scalar.isProbability highest = true) _ _ isProbability_zero fun highest h other _ => ?_)
    obtain ⟨other, index⟩ := other
    by_cases hskipped : index = candidateIndex ∨ other.text = candidate.text
    · simpa only [if_pos hskipped] using h
    · simpa only [if_neg hskipped] using
        Scalar.isProbability_max h (isProbability_effectiveConfidence other)

theorem isProbability_layoutQuality (layoutEvidence : List (LayoutEvidence B)) (index : ℕ) :
    Scalar.isProbability (layoutQuality layoutEvidence index) = true := by
  unfold layoutQuality
  split
  · split
    · rename_i h
      exact Scalar.isProbability_clamp01_of_isFinite h.2
    · exact isProbability_zero
  · exact isProbability_zero

/-- **A score** is a probability: a sum of products of probabilities is not negative, so dividing it
by the total weight gives a number. -/
theorem isProbability_score (c : Config B) {item : RecognitionEvidence B D}
    (hquality : Scalar.isFinite item.cropQuality = true) {layout : B}
    (hlayout : Scalar.isProbability layout = true) (candidate : PlateCandidate B)
    (candidateIndex : ℕ) :
    Scalar.isProbability (score c.config item layout candidate candidateIndex) = true := by
  have hterm : ∀ {a b : B}, Scalar.isProbability a = true → Scalar.isProbability b = true →
      IsNonnegNumber (a * b) := fun ha hb =>
    isNonnegNumber_of_isProbability (isProbability_mul ha hb)
  refine isProbability_mul (isProbability_sourceWeight c item.source) (isProbability_clamp01 ?_)
  refine isNumber_div ?_ c.weighted.total.1 c.weighted.total.2
  refine (isNonnegNumber_add (isNonnegNumber_add (isNonnegNumber_add ?_ ?_) ?_) ?_).1
  · exact hterm (isProbability_effectiveConfidence candidate) c.weighted.recognition
  · exact hterm (Scalar.isProbability_clamp01_of_isFinite hquality) c.weighted.cropQuality
  · exact hterm (isProbability_candidateMargin item candidate candidateIndex)
      c.weighted.candidateMargin
  · exact hterm hlayout c.weighted.layout

theorem isProbability_voteFor (c : Config B) (layoutEvidence : List (LayoutEvidence B))
    {text : Text} {evidence : List (RecognitionEvidence B D)} {voter : RecognitionEvidence B D × ℕ}
    (hvoter : voter ∈ voters c.config text evidence) :
    Scalar.isProbability (voteFor c.config layoutEvidence text voter).support = true := by
  have husable := (List.mem_filter.mp hvoter).2
  simp only [isUsable, Bool.and_eq_true, Bool.not_eq_true', Bool.or_eq_false_iff,
    Bool.not_eq_false'] at husable
  refine Scalar.isProbability_foldl_max isProbability_zero fun x hx => ?_
  obtain ⟨⟨candidate, index⟩, -, rfl⟩ := List.mem_map.mp hx
  exact isProbability_score c husable.1.2 (isProbability_layoutQuality _ _) candidate index

/-- **A fused candidate** is supported by a probability. -/
theorem isProbability_of_mem_fuse {c : Config B} {evidence : List (RecognitionEvidence B D)}
    {layoutEvidence : List (LayoutEvidence B)} {fused : PlateCandidate B}
    (h : fused ∈ fuse c evidence layoutEvidence) :
    Scalar.isProbability fused.confidence = true ∧
      Scalar.isProbability fused.calibratedConfidence = true := by
  have hvote : ∀ stored : Option (Aggregate B),
      (∀ value, stored = some value → Scalar.isProbability value.support = true) →
      ∀ voter ∈ voters c.config fused.text evidence, Scalar.isProbability
        (addVote (voteFor c.config layoutEvidence fused.text voter) stored).support = true := by
    intro stored hstored voter hvoter
    have htarget : Scalar.isProbability (stored.getD ⟨0, false⟩).support = true := by
      cases stored with
      | none => exact isProbability_zero
      | some value => exact hstored value rfl
    have hproduct := isProbability_mul (isProbability_one_sub htarget)
      (isProbability_one_sub (isProbability_voteFor c layoutEvidence hvoter))
    exact Scalar.isProbability_clamp01_of_isFinite
      (Scalar.isFinite_of_isProbability (isProbability_one_sub hproduct))
  obtain ⟨value, hfind, heq⟩ := mem_ranked.mp (List.mem_of_mem_take h)
  rw [find?_aggregate] at hfind
  have hnone : ∀ value : Aggregate B, none = some value →
      Scalar.isProbability value.support = true :=
    fun _ h => nomatch h
  have hsupport : Scalar.isProbability value.support = true := by
    refine List.foldlRecOn (motive := fun stored : Option (Aggregate B) => ∀ value,
      stored = some value → Scalar.isProbability value.support = true) _ _ hnone
        (fun stored hstored voter hvoter value hvalue => ?_) value hfind
    obtain rfl := Option.some.inj hvalue
    exact hvote stored hstored voter hvoter
  rw [← heq]
  exact ⟨hsupport, hsupport⟩

end CandidateFusion

end FacLpr

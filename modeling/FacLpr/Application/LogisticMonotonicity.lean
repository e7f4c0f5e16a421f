import FacLpr.Application.ConfidenceCalibration
import FacLpr.Foundations.DefinedReal
import Mathlib.Analysis.SpecialFunctions.Log.Basic
import Mathlib.Analysis.SpecialFunctions.Sigmoid

/-!
# Application/LogisticMonotonicity — the logistic calibrator keeps the order of its confidences

A segment is a curve (`calibrationCurve`): the sigmoid of an increasing line through the log-odds of
the clamped confidence.  Over `DefinedReal` the calibrator returns the value of that curve, so it
divides by no zero and takes no logarithm outside its domain; and which curve it is, or whether it
is the identity, does not depend on the confidence.
-/

namespace FacLpr

/-! ## The curve of a segment -/

/-- The log-odds of a probability. -/
noncomputable def logit (p : ℝ) : ℝ := Real.log (p / (1 - p))

theorem odds_pos {p : ℝ} (hp : p ∈ Set.Ioo (0 : ℝ) 1) : 0 < p / (1 - p) :=
  div_pos hp.1 (sub_pos.mpr hp.2)

theorem monotoneOn_logit : MonotoneOn logit (Set.Ioo 0 1) := by
  intro p hp q hq hpq
  refine Real.log_le_log (odds_pos hp) ?_
  exact div_le_div₀ hq.1.le hpq (sub_pos.mpr hq.2) (sub_le_sub_left hpq 1)

/-- The confidence, no nearer than `ε` to the ends of the unit interval. -/
def clampedProbability (ε p : ℝ) : ℝ := ε ⊔ (p ⊓ (1 - ε))

theorem clampedProbability_mem {ε : ℝ} (hpos : 0 < ε) (hhalf : ε < 1 / 2) (p : ℝ) :
    clampedProbability ε p ∈ Set.Ioo (0 : ℝ) 1 := by
  refine ⟨hpos.trans_le (le_max_left _ _), max_lt (by linarith) ?_⟩
  exact (min_le_right _ _).trans_lt (by linarith)

/-- A calibrated confidence, as a function of the raw one. -/
noncomputable def calibrationCurve (ε slope intercept p : ℝ) : ℝ :=
  Real.sigmoid (slope * logit (clampedProbability ε p) + intercept)

/-- **A curve with a positive slope** does not go down. -/
theorem monotone_calibrationCurve {ε slope : ℝ} (hpos : 0 < ε) (hhalf : ε < 1 / 2)
    (hslope : 0 < slope) (intercept : ℝ) : Monotone (calibrationCurve ε slope intercept) := by
  intro p q hpq
  have hclamped : clampedProbability ε p ≤ clampedProbability ε q :=
    max_le_max_left ε (min_le_min_right (1 - ε) hpq)
  have hlogit : logit (clampedProbability ε p) ≤ logit (clampedProbability ε q) :=
    monotoneOn_logit (clampedProbability_mem hpos hhalf p) (clampedProbability_mem hpos hhalf q)
      hclamped
  exact Real.sigmoid_le (add_le_add_left (mul_le_mul_of_nonneg_left hlogit hslope.le) intercept)

namespace LogisticConfidenceCalibrator

/-! ## What the constructor checked -/

section Segments

variable {F : Type} [Scalar F]

/-- A segment the constructor stores. -/
def AcceptedSegment (segment : LogisticCalibrationSegment F) : Prop :=
  Scalar.isFinite segment.slope = true ∧ ¬ segment.slope ≤ 0 ∧
    Scalar.isFinite segment.intercept = true

theorem accepted_of_addSegment {segments segments' : OrdMap Text (LogisticCalibrationSegment F)}
    {segment : LogisticCalibrationSegment F} (h : addSegment segments segment = .ok segments')
    (hsegments : ∀ k found, segments.find? k = some found → AcceptedSegment found) {k : Text}
    {found : LogisticCalibrationSegment F} (hfound : segments'.find? k = some found) :
    AcceptedSegment found := by
  simp only [addSegment, except_bind_eq_ok, require_eq_ok, Bool.and_eq_true, Bool.not_eq_true',
    decide_eq_false_iff_not, and_assoc] at h
  obtain ⟨-, -, -, hslope, hpositive, hintercept, -, -, h⟩ := h
  cases h
  by_cases hk : k = key segment.provider segment.cropType
  · rw [hk, OrdMap.find?_upsert_self] at hfound
    cases hfound
    exact ⟨hslope, hpositive, hintercept⟩
  · rw [OrdMap.find?_upsert_of_ne _ _ hk] at hfound
    exact hsegments k found hfound

theorem accepted_of_foldlM_addSegment {given : List (LogisticCalibrationSegment F)}
    {segments segments' : OrdMap Text (LogisticCalibrationSegment F)}
    (h : given.foldlM addSegment segments = .ok segments')
    (hsegments : ∀ k found, segments.find? k = some found → AcceptedSegment found) :
    ∀ k found, segments'.find? k = some found → AcceptedSegment found := by
  induction given generalizing segments with
  | nil =>
    cases h
    exact hsegments
  | cons segment given ih =>
    rw [List.foldlM_cons] at h
    obtain ⟨next, hnext, hrest⟩ := except_bind_eq_ok.mp h
    exact ih hrest fun k found => accepted_of_addSegment hnext hsegments

/-- What the constructor leaves of the configuration and the segments. -/
theorem built_accepted (calibrator : LogisticConfidenceCalibrator F) :
    (Scalar.isFinite calibrator.config.probabilityEpsilon = true ∧
        ¬ calibrator.config.probabilityEpsilon ≤ 0 ∧
        ¬ Scalar.ofRat (1 / 2) ≤ calibrator.config.probabilityEpsilon) ∧
      ∀ k found, calibrator.segments.find? k = some found → AcceptedSegment found := by
  obtain ⟨given, h⟩ := calibrator.built
  simp only [build, except_bind_eq_ok, require_eq_ok, Bool.and_eq_true, Bool.not_eq_true',
    decide_eq_false_iff_not, and_assoc] at h
  obtain ⟨-, -, -, hfinite, hpos, hhalf, h⟩ := h
  refine ⟨⟨hfinite, hpos, hhalf⟩, accepted_of_foldlM_addSegment h fun k found hfound => ?_⟩
  rw [OrdMap.find?_empty] at hfound
  cases hfound

theorem accepted_of_findSegment {calibrator : LogisticConfidenceCalibrator F}
    {provider cropType : Text} {segment : LogisticCalibrationSegment F}
    (h : calibrator.findSegment provider cropType = some segment) : AcceptedSegment segment := by
  unfold findSegment at h
  split at h
  · rename_i exact' hexact
    cases h
    exact calibrator.built_accepted.2 _ _ hexact
  · split at h
    · cases h
    · exact calibrator.built_accepted.2 _ _ h

end Segments

/-! ## The calibrator over the reals -/

open Classical in
/-- The functions of `<cmath>`, on the reals they are defined of. -/
noncomputable instance : LogisticArithmetic DefinedReal where
  log
    | .value x => if 0 < x then .value (Real.log x) else .undefined
    | .undefined => .undefined
  exp
    | .value x => .value (Real.exp x)
    | .undefined => .undefined

open DefinedReal

theorem log_value {x : ℝ} (hx : 0 < x) :
    LogisticArithmetic.log (value x) = value (Real.log x) := if_pos hx

theorem exp_value (x : ℝ) : LogisticArithmetic.exp (value x) = value (Real.exp x) := rfl

/-- **The formula of a segment has a value**: no quotient and no logarithm leaves its domain. -/
theorem logistic_value {p : ℝ} (hp : p ∈ Set.Ioo (0 : ℝ) 1) (slope intercept : ℝ) :
    1 / (1 + LogisticArithmetic.exp (0 - (value slope *
      LogisticArithmetic.log (value p / (1 - value p)) + value intercept))) =
        value (Real.sigmoid (slope * logit p + intercept)) := by
  have hrest : 1 - p ≠ 0 := (sub_pos.mpr hp.2).ne'
  have hdenominator : 1 + Real.exp (0 - (slope * logit p + intercept)) ≠ 0 :=
    (add_pos one_pos (Real.exp_pos _)).ne'
  rw [one_eq, value_sub, value_div hrest, log_value (odds_pos hp), value_mul, value_add, zero_eq,
    value_sub, exp_value, value_add, ← logit, value_div hdenominator, Real.sigmoid_def, one_div,
    zero_sub]

/-- The parameters of an accepted segment are reals, in the ranges the constructor checks. -/
theorem exists_parameters (calibrator : LogisticConfidenceCalibrator DefinedReal)
    {segment : LogisticCalibrationSegment DefinedReal} (h : AcceptedSegment segment) :
    ∃ ε slope intercept : ℝ, calibrator.config.probabilityEpsilon = value ε ∧
      segment.slope = value slope ∧ segment.intercept = value intercept ∧
      0 < ε ∧ ε < 1 / 2 ∧ 0 < slope := by
  obtain ⟨⟨hfinite, hpos, hhalf⟩, -⟩ := calibrator.built_accepted
  obtain ⟨ε, hε⟩ := isFinite_iff.mp hfinite
  obtain ⟨slope, hslope⟩ := isFinite_iff.mp h.1
  obtain ⟨intercept, hintercept⟩ := isFinite_iff.mp h.2.2
  rw [hε, zero_eq, value_le, not_le] at hpos
  rw [hε, ofRat_eq, value_le, not_le] at hhalf
  have hpositive := h.2.1
  rw [hslope, zero_eq, value_le, not_le] at hpositive
  refine ⟨ε, slope, intercept, hε, hslope, hintercept, hpos, ?_, hpositive⟩
  calc ε < ((1 / 2 : ℚ) : ℝ) := hhalf
    _ = 1 / 2 := by norm_num

/-- What a segment makes of a confidence. -/
theorem segment_value {calibrator : LogisticConfidenceCalibrator DefinedReal}
    {segment : LogisticCalibrationSegment DefinedReal} {ε slope intercept : ℝ}
    (hε : calibrator.config.probabilityEpsilon = value ε) (hslope : segment.slope = value slope)
    (hintercept : segment.intercept = value intercept) (hpos : 0 < ε) (hhalf : ε < 1 / 2)
    (raw : ℝ) :
    (do
      let probability := Scalar.clamp (value raw) calibrator.config.probabilityEpsilon
        (1 - calibrator.config.probabilityEpsilon)
      let logit := LogisticArithmetic.log (probability / (1 - probability))
      let calibratedLogit := segment.slope * logit + segment.intercept
      let calibrated := 1 / (1 + LogisticArithmetic.exp (0 - calibratedLogit))
      require (Scalar.isFinite calibrated)
        (providerError "calibration produced a non-finite confidence")
      return Scalar.clamp01 calibrated : Except EngineError DefinedReal) =
        .ok (value (calibrationCurve ε slope intercept raw)) := by
  have hclamp : Scalar.clamp (value raw) (value ε) (1 - value ε) =
      value (clampedProbability ε raw) := by
    rw [one_eq, value_sub, value_clamp (by linarith)]
    rfl
  simp only [hε, hslope, hintercept, hclamp,
    logistic_value (clampedProbability_mem hpos hhalf raw)]
  rw [value_clamp01_of_mem (Real.sigmoid_nonneg _) (Real.sigmoid_le_one _)]
  rfl

theorem calibrationCurve_mem (ε slope intercept p : ℝ) :
    calibrationCurve ε slope intercept p ∈ Set.Icc (0 : ℝ) 1 :=
  ⟨Real.sigmoid_nonneg _, Real.sigmoid_le_one _⟩

theorem checked_of_mem {source : Text} (hsource : source ≠ []) {raw quality : ℝ}
    (hraw : raw ∈ Set.Icc (0 : ℝ) 1) (hquality : quality ∈ Set.Icc (0 : ℝ) 1) :
    validateCommonInput (value raw) (value quality) = .ok () ∧ (!source.isEmpty) = true := by
  constructor
  · unfold validateCommonInput
    rw [isProbability_value.mpr hraw, isProbability_value.mpr hquality]
    rfl
  · rw [Bool.not_eq_true', List.isEmpty_eq_false_iff]
    exact hsource

/-- **Logistic calibration is a monotone map of the unit interval**, for every source and crop type:
the one of a segment, or the identity where there is none with enough samples. -/
theorem calibrate_monotone (calibrator : LogisticConfidenceCalibrator DefinedReal) {source : Text}
    (hsource : source ≠ []) (cropType : Text) :
    ∃ curve : ℝ → ℝ, Monotone curve ∧ Set.MapsTo curve (Set.Icc 0 1) (Set.Icc 0 1) ∧
      ∀ raw ∈ Set.Icc (0 : ℝ) 1, ∀ quality ∈ Set.Icc (0 : ℝ) 1,
        calibrator.calibrate source (value raw) (value quality) cropType =
          .ok (value (curve raw)) := by
  have hcalibrate : ∀ {raw quality result : ℝ}, raw ∈ Set.Icc (0 : ℝ) 1 →
      quality ∈ Set.Icc (0 : ℝ) 1 → _ = Except.ok (value result) →
      calibrator.calibrate source (value raw) (value quality) cropType = .ok (value result) :=
    fun hraw hquality h => except_bind_eq_ok.mpr ⟨(), (checked_of_mem hsource hraw hquality).1,
      except_bind_eq_ok.mpr ⟨(), require_eq_ok.mpr (checked_of_mem hsource hraw hquality).2, h⟩⟩
  cases hsegment : calibrator.findSegment source cropType with
  | none =>
    refine ⟨id, monotone_id, fun _ h => h, fun raw hraw quality hquality =>
      hcalibrate hraw hquality ?_⟩
    rw [hsegment]
    rfl
  | some segment =>
    by_cases hsamples : segment.sampleCount < calibrator.config.minimumSamples
    · refine ⟨id, monotone_id, fun _ h => h, fun raw hraw quality hquality =>
        hcalibrate hraw hquality ?_⟩
      rw [hsegment]
      exact if_pos hsamples
    · obtain ⟨ε, slope, intercept, hε, hslope, hintercept, hpos, hhalf, hpositive⟩ :=
        exists_parameters calibrator (accepted_of_findSegment hsegment)
      refine ⟨calibrationCurve ε slope intercept,
        monotone_calibrationCurve hpos hhalf hpositive intercept,
        fun p _ => calibrationCurve_mem ε slope intercept p, fun raw hraw quality hquality =>
        hcalibrate hraw hquality ?_⟩
      rw [hsegment]
      exact (if_neg hsamples).trans (segment_value hε hslope hintercept hpos hhalf raw)

/-- A steep segment, with the one sample it needs. -/
noncomputable def steepSegment : LogisticCalibrationSegment DefinedReal :=
  { provider := ascii "ocr", slope := value 3, intercept := value 1, sampleCount := 1 }

theorem build_steepSegment :
    build { minimumSamples := 1, probabilityEpsilon := value (1 / 10) } [steepSegment] =
      .ok (OrdMap.empty.upsert (key steepSegment.provider steepSegment.cropType)
        fun _ => steepSegment) := by
  have hepsilon : (Scalar.isFinite (value (1 / 10)) && !decide (value (1 / 10) ≤ 0) &&
      !decide (Scalar.ofRat (1 / 2) ≤ value (1 / 10))) = true := by
    simp only [zero_eq, ofRat_eq, value_le, isFinite_value]
    norm_num
  have hslope : (Scalar.isFinite (value 3) && !decide (value 3 ≤ 0) &&
      Scalar.isFinite (value 1)) = true := by
    simp [zero_eq]
  have hadd : addSegment OrdMap.empty steepSegment = .ok (OrdMap.empty.upsert
      (key steepSegment.provider steepSegment.cropType) fun _ => steepSegment) :=
    except_bind_eq_ok.mpr ⟨(), require_eq_ok.mpr rfl, except_bind_eq_ok.mpr
      ⟨(), require_eq_ok.mpr hslope, except_bind_eq_ok.mpr ⟨(), require_eq_ok.mpr rfl, rfl⟩⟩⟩
  exact except_bind_eq_ok.mpr ⟨(), require_eq_ok.mpr rfl, except_bind_eq_ok.mpr
    ⟨(), require_eq_ok.mpr hepsilon, except_bind_eq_ok.mpr ⟨_, hadd, rfl⟩⟩⟩

/-- The calibrator of that segment. -/
noncomputable def steepCalibrator : LogisticConfidenceCalibrator DefinedReal :=
  ⟨_, _, _, build_steepSegment⟩

/-- The ends of the unit interval have values too. -/
theorem calibrate_monotone_steep :
    ∃ low high : ℝ, low ≤ high ∧ low ∈ Set.Icc (0 : ℝ) 1 ∧ high ∈ Set.Icc (0 : ℝ) 1 ∧
      steepCalibrator.calibrate (ascii "ocr") (value 0) (value 1) (ascii "aligned") =
        .ok (value low) ∧
      steepCalibrator.calibrate (ascii "ocr") (value 1) (value 1) (ascii "aligned") =
        .ok (value high) := by
  obtain ⟨curve, hmonotone, hmaps, hcalibrate⟩ :=
    calibrate_monotone steepCalibrator (List.cons_ne_nil _ _) (ascii "aligned")
  have hzero : (0 : ℝ) ∈ Set.Icc (0 : ℝ) 1 := ⟨le_rfl, zero_le_one⟩
  have hone : (1 : ℝ) ∈ Set.Icc (0 : ℝ) 1 := ⟨zero_le_one, le_rfl⟩
  exact ⟨curve 0, curve 1, hmonotone zero_le_one, hmaps hzero, hmaps hone,
    hcalibrate 0 hzero 1 hone, hcalibrate 1 hone 1 hone⟩

end LogisticConfidenceCalibrator

end FacLpr

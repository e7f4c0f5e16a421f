import FacLpr.Application.LogisticMonotonicity
import FacLpr.Foundations.RealScalar
import FacLpr.Tools.FittedCalibrations
import Mathlib.Analysis.SpecialFunctions.Log.Deriv
import Mathlib.Analysis.SpecialFunctions.Sigmoid
import Mathlib.Tactic.Positivity

/-!
# Tools/ExactFits — the fit in exact arithmetic

Over the reals no iteration divides by zero or takes a logarithm outside its domain: the regularized
Hessian is positive definite (`Sums.Definite`), so its determinant stays above the bound of the
script, and the step is the one that solves the normal equations of the regularized cross-entropy
(`objective`).  What the script predicts for a sample is the curve that the engine calibrates with.
Samples that mirror each other are always fitted (`exists_fitLogistic_mirrored`).
-/

namespace FacLpr

namespace CalibrationFit

/-- What `float` and `int` make of a text. -/
class NumberReader where
  ofText : Unicode → Except PythonError ℝ
  intOfText : Unicode → Except PythonError ℤ

/-- Exact arithmetic, as Python would compute it, of the numbers that are read. -/
@[reducible] noncomputable def realFloat [NumberReader] : PythonFloat ℝ where
  toScalar := realScalar
  neg x := -x
  abs x := |x|
  square x := .ok (x ^ 2)
  exp x := .ok (Real.exp x)
  log x := if 0 < x then .ok (Real.log x) else .error (.valueError "math domain error")
  sum := List.sum
  ofText := NumberReader.ofText
  intOfText := NumberReader.intOfText

attribute [local instance] realFloat realScalar

variable {ε slope intercept : ℝ} {samples : List (Sample ℝ)}

section Exact

variable [NumberReader]

omit [NumberReader] in
theorem ofRat_eq_cast (q : ℚ) : (Scalar.ofRat q : ℝ) = q := rfl

theorem divide_eq {a b : ℝ} (hb : b ≠ 0) : divide a b = .ok (a / b) :=
  if_neg (by simpa using hb)

/-! ## The prediction of a sample -/

theorem sigmoid_eq (value : ℝ) : sigmoid value = .ok (Real.sigmoid value) := by
  have hpos (x : ℝ) : 1 + Real.exp x ≠ 0 := (add_pos one_pos (Real.exp_pos x)).ne'
  rw [sigmoid]
  split_ifs with hvalue
  · change divide (1 : ℝ) (1 + Real.exp (-value)) = _
    rw [divide_eq (hpos _), Real.sigmoid_def, one_div]
  · change divide (Real.exp value) (1 + Real.exp value) = _
    rw [divide_eq (hpos _), Real.sigmoid_def, Real.exp_neg]
    congr 1
    have := Real.exp_pos value
    field_simp
    exact add_comm _ _

omit [NumberReader] in
theorem clamp_eq (hhalf : ε < 1 / 2) (raw : ℝ) :
    Scalar.min (Scalar.max raw ε) (1 - ε) = clampedProbability ε raw := by
  have hbounds : ε < 1 - ε := by linarith
  rw [clampedProbability, Scalar.max, Scalar.min]
  by_cases hlow : raw < ε
  · rw [if_pos hlow, if_neg (not_lt.mpr hbounds.le),
      max_eq_left ((min_le_left _ _).trans hlow.le)]
  · rw [if_neg hlow]
    by_cases hhigh : 1 - ε < raw
    · rw [if_pos hhigh, min_eq_right hhigh.le, max_eq_right hbounds.le]
    · rw [if_neg hhigh, min_eq_left (not_lt.mp hhigh), max_eq_right (not_lt.mp hlow)]

theorem logit_eq (hpos : 0 < ε) (hhalf : ε < 1 / 2) (raw : ℝ) :
    logit raw ε = .ok (FacLpr.logit (clampedProbability ε raw)) := by
  have hp := clampedProbability_mem hpos hhalf raw
  rw [logit, clamp_eq hhalf, divide_eq (sub_pos.mpr hp.2).ne']
  exact if_pos (odds_pos hp)

/-- **What the script predicts** is the curve that the engine calibrates with. -/
theorem predict_eq (hpos : 0 < ε) (hhalf : ε < 1 / 2) (slope intercept raw : ℝ) :
    (do
      let x ← logit raw ε
      sigmoid (slope * x + intercept)) = .ok (calibrationCurve ε slope intercept raw) := by
  rw [logit_eq hpos hhalf]
  exact sigmoid_eq _

/-! ## An iteration -/

/-- What is left of the Hessian without the regularization is not indefinite. -/
structure Sums.Definite (sums : Sums ℝ) : Prop where
  hSS : l2 ≤ sums.hSS
  hII : l2 ≤ sums.hII
  hSI : sums.hSI ^ 2 ≤ (sums.hSS - l2) * (sums.hII - l2)

theorem definite_regularization : (regularization slope intercept).Definite :=
  ⟨le_rfl, le_rfl, by simp [regularization]⟩

omit [NumberReader] in
theorem quadratic_nonneg {a b c : ℝ} (ha : 0 ≤ a) (hc : 0 ≤ c) (h : b ^ 2 ≤ a * c) (x : ℝ) :
    0 ≤ a + c * x ^ 2 - 2 * b * x := by
  rcases hc.eq_or_lt with rfl | hc
  · have hb : b = 0 := by nlinarith
    simpa [hb] using ha
  · have hscaled : 0 ≤ c * (a + c * x ^ 2 - 2 * b * x) := by nlinarith [sq_nonneg (b - c * x)]
    exact nonneg_of_mul_nonneg_right hscaled hc

/-- One more sample with a nonnegative weight. -/
theorem Sums.Definite.add {sums : Sums ℝ} (h : sums.Definite) {weight : ℝ} (hweight : 0 ≤ weight)
    (x gS gI : ℝ) : Sums.Definite {
      gS, gI
      hSS := sums.hSS + weight * x * x
      hSI := sums.hSI + weight * x
      hII := sums.hII + weight } := by
  have ha : 0 ≤ sums.hSS - l2 := sub_nonneg.mpr h.hSS
  have hc : 0 ≤ sums.hII - l2 := sub_nonneg.mpr h.hII
  have hquadratic := quadratic_nonneg ha hc h.hSI x
  refine ⟨?_, ?_, ?_⟩
  · have : 0 ≤ weight * x * x := by
      rw [mul_assoc]
      exact mul_nonneg hweight (mul_self_nonneg x)
    linarith
  · linarith
  · have hproduct := mul_nonneg hweight hquadratic
    have hSI := h.hSI
    dsimp only
    nlinarith

/-- The determinant is out of reach of the bound that the script tests. -/
theorem Sums.Definite.determinant {sums : Sums ℝ} (h : sums.Definite) :
    (Scalar.ofRat (1 / 10 ^ 18) : ℝ) < sums.hSS * sums.hII - sums.hSI * sums.hSI := by
  have ha : 0 ≤ sums.hSS - l2 := sub_nonneg.mpr h.hSS
  have hc : 0 ≤ sums.hII - l2 := sub_nonneg.mpr h.hII
  have hl2 : (l2 : ℝ) = 1 / 10 ^ 6 := by
    rw [l2, ofRat_eq_cast]
    norm_num
  have hbound : (Scalar.ofRat (1 / 10 ^ 18) : ℝ) = 1 / 10 ^ 18 := by
    rw [ofRat_eq_cast]
    norm_num
  have hSI := h.hSI
  rw [hl2] at ha hc hSI
  rw [hbound]
  nlinarith

/-- What the slope of a sample multiplies. -/
noncomputable def predictor (ε : ℝ) (sample : Sample ℝ) : ℝ :=
  FacLpr.logit (clampedProbability ε sample.raw)

/-- How far a prediction is from its label. -/
noncomputable def residual (ε slope intercept : ℝ) (sample : Sample ℝ) : ℝ :=
  calibrationCurve ε slope intercept sample.raw - sample.label

/-- What a sample weighs in the Hessian. -/
noncomputable def weight (ε slope intercept : ℝ) (sample : Sample ℝ) : ℝ :=
  Scalar.max (calibrationCurve ε slope intercept sample.raw *
    (1 - calibrationCurve ε slope intercept sample.raw)) (Scalar.ofRat (1 / 10 ^ 12))

omit [NumberReader] in
theorem weight_nonneg (sample : Sample ℝ) : 0 ≤ weight ε slope intercept sample := by
  obtain ⟨hzero, hone⟩ :=
    LogisticConfidenceCalibrator.calibrationCurve_mem ε slope intercept sample.raw
  rw [weight, Scalar.max]
  split_ifs
  · rw [ofRat_eq_cast]
    positivity
  · exact mul_nonneg hzero (sub_nonneg.mpr hone)

/-- The sums with one more sample. -/
noncomputable def Sums.advance (ε slope intercept : ℝ) (sums : Sums ℝ) (sample : Sample ℝ) :
    Sums ℝ where
  gS := sums.gS + residual ε slope intercept sample * predictor ε sample
  gI := sums.gI + residual ε slope intercept sample
  hSS := sums.hSS + weight ε slope intercept sample * predictor ε sample * predictor ε sample
  hSI := sums.hSI + weight ε slope intercept sample * predictor ε sample
  hII := sums.hII + weight ε slope intercept sample

theorem addSample_eq (hpos : 0 < ε) (hhalf : ε < 1 / 2) (slope intercept : ℝ) (sums : Sums ℝ)
    (sample : Sample ℝ) :
    addSample ε slope intercept sums sample = .ok (sums.advance ε slope intercept sample) :=
  except_bind_eq_ok.mpr ⟨_, logit_eq hpos hhalf _,
    except_bind_eq_ok.mpr ⟨_, sigmoid_eq _, rfl⟩⟩

theorem foldlM_addSample (hpos : 0 < ε) (hhalf : ε < 1 / 2) (slope intercept : ℝ)
    (samples : List (Sample ℝ)) (sums : Sums ℝ) :
    samples.foldlM (addSample ε slope intercept) sums =
      .ok (samples.foldl (Sums.advance ε slope intercept) sums) := by
  have hpure : addSample ε slope intercept =
      fun sums sample => pure (Sums.advance ε slope intercept sums sample) :=
    funext fun sums => funext fun sample => addSample_eq hpos hhalf slope intercept sums sample
  rw [hpure, List.foldlM_pure]
  rfl

theorem Sums.Definite.foldl_advance {sums : Sums ℝ} (h : sums.Definite) :
    (samples.foldl (Sums.advance ε slope intercept) sums).Definite := by
  induction samples generalizing sums with
  | nil => exact h
  | cons sample samples ih => exact ih (h.add (weight_nonneg sample) (predictor ε sample) _ _)

omit [NumberReader] in
/-- A field that each sample adds a term to is a sum of them. -/
theorem foldl_advance_eq (field : Sums ℝ → ℝ) {term : Sample ℝ → ℝ}
    (h : ∀ sums sample,
      field (Sums.advance ε slope intercept sums sample) = field sums + term sample)
    (samples : List (Sample ℝ)) (sums : Sums ℝ) :
    field (samples.foldl (Sums.advance ε slope intercept) sums) =
      field sums + (samples.map term).sum := by
  induction samples generalizing sums with
  | nil => simp
  | cons sample samples ih =>
    rw [List.foldl_cons, ih, h, List.map_cons, List.sum_cons, add_assoc]

/-! ## The objective -/

/-- The cross-entropy of a label and the prediction at `z`. -/
noncomputable def crossEntropy (label z : ℝ) : ℝ :=
  -(label * Real.log (Real.sigmoid z) + (1 - label) * Real.log (1 - Real.sigmoid z))

/-- What the fit goes to the minimum of: the cross-entropy of the predictions, regularized. -/
noncomputable def objective (ε : ℝ) (samples : List (Sample ℝ)) (slope intercept : ℝ) : ℝ :=
  l2 * (slope * slope + intercept * intercept) * Scalar.ofRat (1 / 2) +
    (samples.map fun sample =>
      crossEntropy sample.label (slope * predictor ε sample + intercept)).sum

omit [NumberReader] in
theorem hasDerivAt_crossEntropy (label z : ℝ) :
    HasDerivAt (crossEntropy label) (Real.sigmoid z - label) z := by
  have hsigmoid := Real.hasDerivAt_sigmoid z
  have hpos := Real.sigmoid_pos z
  have hlt := sub_pos.mpr (Real.sigmoid_lt_one z)
  have hlog := (hsigmoid.log hpos.ne').const_mul label
  have hlog' := ((hsigmoid.const_sub 1).log hlt.ne').const_mul (1 - label)
  refine (hlog.fun_add hlog').fun_neg.congr_deriv ?_
  field_simp
  ring

omit [NumberReader] in
theorem hasDerivAt_sum {f : Sample ℝ → ℝ → ℝ} {f' : Sample ℝ → ℝ} {x : ℝ}
    (h : ∀ sample, HasDerivAt (f sample) (f' sample) x) (samples : List (Sample ℝ)) :
    HasDerivAt (fun x => (samples.map fun sample => f sample x).sum) (samples.map f').sum x := by
  induction samples with
  | nil => exact hasDerivAt_const x 0
  | cons sample samples ih =>
    simp only [List.map_cons, List.sum_cons]
    exact (h sample).fun_add ih

theorem hasDerivAt_regularization (x c : ℝ) :
    HasDerivAt (fun x => l2 * (x * x + c) * Scalar.ofRat (1 / 2)) (l2 * x) x := by
  have hsquare := (hasDerivAt_id' x).fun_mul (hasDerivAt_id' x)
  refine (((hsquare.add_const c).const_mul l2).mul_const _).congr_deriv ?_
  rw [ofRat_eq_cast]
  push_cast
  ring

theorem hasDerivAt_slope (ε slope intercept : ℝ) (samples : List (Sample ℝ)) :
    HasDerivAt (fun slope => objective ε samples slope intercept)
      (l2 * slope + (samples.map fun sample =>
        residual ε slope intercept sample * predictor ε sample).sum) slope := by
  have hline (sample : Sample ℝ) : HasDerivAt
      (fun slope => slope * predictor ε sample + intercept) (predictor ε sample) slope := by
    simpa using ((hasDerivAt_id' slope).mul_const (predictor ε sample)).add_const intercept
  exact (hasDerivAt_regularization slope _).fun_add (hasDerivAt_sum
    (fun sample => (hasDerivAt_crossEntropy _ _).comp slope (hline sample)) samples)

theorem hasDerivAt_intercept (ε slope intercept : ℝ) (samples : List (Sample ℝ)) :
    HasDerivAt (fun intercept => objective ε samples slope intercept)
      (l2 * intercept + (samples.map (residual ε slope intercept)).sum) intercept := by
  have hline (sample : Sample ℝ) : HasDerivAt
      (fun intercept => slope * predictor ε sample + intercept) 1 intercept :=
    (hasDerivAt_id' intercept).const_add _
  have hregularized := hasDerivAt_regularization intercept (slope * slope)
  have hentropy := hasDerivAt_sum
    (fun sample => (hasDerivAt_crossEntropy (sample.label : ℝ) _).comp intercept (hline sample))
    samples
  simp only [mul_one] at hentropy
  simp only [objective, add_comm (slope * slope)]
  exact hregularized.fun_add hentropy

/-- The sums of an iteration: the gradient of the objective and its Hessian, but for a bound that
the weights do not fall below; such a Hessian can be inverted. -/
structure Sums.Exact (sums : Sums ℝ) (ε slope intercept : ℝ) (samples : List (Sample ℝ)) :
    Prop where
  gS : HasDerivAt (fun slope => objective ε samples slope intercept) sums.gS slope
  gI : HasDerivAt (fun intercept => objective ε samples slope intercept) sums.gI intercept
  hSS : sums.hSS = l2 + (samples.map fun sample =>
    weight ε slope intercept sample * predictor ε sample * predictor ε sample).sum
  hSI : sums.hSI = (samples.map fun sample =>
    weight ε slope intercept sample * predictor ε sample).sum
  hII : sums.hII = l2 + (samples.map (weight ε slope intercept)).sum
  definite : sums.Definite

theorem exact_foldl_advance (ε slope intercept : ℝ) (samples : List (Sample ℝ)) :
    (samples.foldl (Sums.advance ε slope intercept) (regularization slope intercept)).Exact
      ε slope intercept samples where
  gS := by
    rw [foldl_advance_eq Sums.gS fun _ _ => rfl]
    exact hasDerivAt_slope ε slope intercept samples
  gI := by
    rw [foldl_advance_eq Sums.gI fun _ _ => rfl]
    exact hasDerivAt_intercept ε slope intercept samples
  hSS := foldl_advance_eq Sums.hSS (fun _ _ => rfl) samples _
  hSI := (foldl_advance_eq Sums.hSI (fun _ _ => rfl) samples _).trans (zero_add _)
  hII := foldl_advance_eq Sums.hII (fun _ _ => rfl) samples _
  definite := definite_regularization.foldl_advance

/-- A step down to the zero of the linearized gradient. -/
structure Sums.Solves (sums : Sums ℝ) (step : ℝ × ℝ) : Prop where
  slope : sums.hSS * step.1 + sums.hSI * step.2 = sums.gS
  intercept : sums.hSI * step.1 + sums.hII * step.2 = sums.gI

omit [NumberReader] in
/-- Cramer's rule for a symmetric system. -/
theorem cramer {a b c g h d : ℝ} (hd : a * c - b * b = d) (hne : d ≠ 0) :
    a * ((c * g - b * h) / d) + b * ((-b * g + a * h) / d) = g ∧
      b * ((c * g - b * h) / d) + c * ((-b * g + a * h) / d) = h := by
  constructor
  · field_simp
    rw [← hd]
    ring
  · field_simp
    rw [← hd]
    ring

/-- **An iteration** finds the step of Newton's method. -/
theorem exists_newtonStep (hpos : 0 < ε) (hhalf : ε < 1 / 2) (samples : List (Sample ℝ))
    (slope intercept : ℝ) :
    ∃ sums : Sums ℝ, sums.Exact ε slope intercept samples ∧
      ∃ step, newtonStep samples ε slope intercept = .ok step ∧ sums.Solves step := by
  have hexact := exact_foldl_advance ε slope intercept samples
  have hsums := foldlM_addSample hpos hhalf slope intercept samples (regularization slope intercept)
  generalize samples.foldl (Sums.advance ε slope intercept) (regularization slope intercept) =
    sums at hexact hsums
  refine ⟨sums, hexact, ?_⟩
  have hdeterminant := hexact.definite.determinant
  have hne : sums.hSS * sums.hII - sums.hSI * sums.hSI ≠ 0 := by
    refine (lt_trans ?_ hdeterminant).ne'
    rw [ofRat_eq_cast]
    positivity
  refine ⟨((sums.hII * sums.gS - sums.hSI * sums.gI) /
      (sums.hSS * sums.hII - sums.hSI * sums.hSI),
    (-sums.hSI * sums.gS + sums.hSS * sums.gI) / (sums.hSS * sums.hII - sums.hSI * sums.hSI)),
    ?_, (cramer rfl hne).1, (cramer rfl hne).2⟩
  rw [newtonStep, hsums]
  refine (if_neg (not_or.mpr ⟨not_le.mpr hdeterminant, by simp⟩)).trans ?_
  exact except_bind_eq_ok.mpr ⟨_, divide_eq hne, except_bind_eq_ok.mpr ⟨_, divide_eq hne, rfl⟩⟩

/-! ## The fit -/

/-- An iteration goes on from where its step leads, unless the step is small. -/
theorem iterate_succ {step : ℝ × ℝ} (hstep : newtonStep samples ε slope intercept = .ok step)
    (left : ℕ) :
    iterate samples ε (left + 1) slope intercept =
      if Scalar.max (PythonFloat.abs step.1) (PythonFloat.abs step.2) <
          Scalar.ofRat (1 / 10 ^ 8) then .ok (slope - step.1, intercept - step.2)
      else iterate samples ε left (slope - step.1) (intercept - step.2) := by
  have hfinite : ¬ (Scalar.isFinite (slope - step.1) = false ∨
      Scalar.isFinite (intercept - step.2) = false) := by
    simp
  simp only [iterate, hstep, bind, Except.bind, if_neg hfinite]

theorem exists_iterate (hpos : 0 < ε) (hhalf : ε < 1 / 2) (samples : List (Sample ℝ)) (left : ℕ)
    (slope intercept : ℝ) :
    ∃ fitted, iterate samples ε left slope intercept = .ok fitted := by
  induction left generalizing slope intercept with
  | zero => exact ⟨_, rfl⟩
  | succ left ih =>
    obtain ⟨-, -, step, hstep, -⟩ := exists_newtonStep hpos hhalf samples slope intercept
    rw [iterate_succ hstep]
    split_ifs
    · exact ⟨_, rfl⟩
    · exact ih _ _

theorem fitLogistic_cases (hpos : 0 < ε) (hhalf : ε < 1 / 2) (samples : List (Sample ℝ)) :
    (∃ fitted, fitLogistic samples ε = .ok fitted ∧ 0 < fitted.1) ∨
      fitLogistic samples ε = .error (.valueError
        "fitted calibration slope is non-positive; segment is not usable") := by
  obtain ⟨fitted, hfitted⟩ := exists_iterate hpos hhalf samples 100 1 0
  rw [fitLogistic, hfitted]
  by_cases hslope : fitted.1 ≤ 0
  · exact .inr (if_pos hslope)
  · exact .inl ⟨fitted, if_neg hslope, not_le.mp hslope⟩

/-- **In exact arithmetic the fit fails for a slope alone**: every iteration finds the step of
Newton's method on the regularized cross-entropy, of predictions that are the curve the engine
calibrates with. -/
theorem fitLogistic_exact (hpos : 0 < ε) (hhalf : ε < 1 / 2) (samples : List (Sample ℝ)) :
    (∀ slope intercept, ∃ sums : Sums ℝ, sums.Exact ε slope intercept samples ∧
      ∃ step, newtonStep samples ε slope intercept = .ok step ∧ sums.Solves step) ∧
    ((∃ fitted, fitLogistic samples ε = .ok fitted ∧ 0 < fitted.1) ∨
      fitLogistic samples ε = .error (.valueError
        "fitted calibration slope is non-positive; segment is not usable")) :=
  ⟨exists_newtonStep hpos hhalf samples, fitLogistic_cases hpos hhalf samples⟩

/-! ## Mirrored samples

A fit is not always refused.  Samples that come in pairs, a confidence above one half that was right
and its complement that was wrong, keep the intercept at zero, and no step takes all of the
slope. -/

section Mirrored

variable {confidences : List ℝ}

/-- Each confidence with a label of one, and its complement with a label of zero. -/
noncomputable def mirrored (confidences : List ℝ) : List (Sample ℝ) :=
  confidences.flatMap fun p => [{ raw := p, label := 1 }, { raw := 1 - p, label := 0 }]

omit [NumberReader] in
theorem sum_mirrored (term : Sample ℝ → ℝ) (confidences : List ℝ) :
    ((mirrored confidences).map term).sum = (confidences.map fun p =>
      term { raw := p, label := 1 } + term { raw := 1 - p, label := 0 }).sum := by
  induction confidences with
  | nil => rfl
  | cons p confidences ih =>
    have hcons : mirrored (p :: confidences) =
      { raw := p, label := 1 } :: { raw := 1 - p, label := 0 } :: mirrored confidences := rfl
    rw [hcons, List.map_cons, List.map_cons, List.sum_cons, List.sum_cons, ih, List.map_cons,
      List.sum_cons, add_assoc]

omit [NumberReader] in
theorem clampedProbability_one_sub (hhalf : ε < 1 / 2) (p : ℝ) :
    clampedProbability ε (1 - p) = 1 - clampedProbability ε p := by
  simp only [clampedProbability]
  grind

omit [NumberReader] in
theorem predictor_one_sub (hpos : 0 < ε) (hhalf : ε < 1 / 2) (p : ℝ) (label label' : ℤ) :
    predictor ε { raw := 1 - p, label } = -predictor ε { raw := p, label := label' } := by
  have hp := clampedProbability_mem hpos hhalf p
  rw [predictor, predictor, clampedProbability_one_sub hhalf, FacLpr.logit, FacLpr.logit,
    sub_sub_cancel, ← Real.log_inv, inv_div]

omit [NumberReader] in
theorem predictor_pos (hpos : 0 < ε) (hhalf : ε < 1 / 2) {p : ℝ} (hp : 1 / 2 < p) (label : ℤ) :
    0 < predictor ε { raw := p, label } := by
  have hclamped := clampedProbability_mem hpos hhalf p
  have habove : 1 / 2 < clampedProbability ε p :=
    lt_sup_of_lt_right (lt_min hp (by linarith))
  refine Real.log_pos ((one_lt_div (sub_pos.mpr hclamped.2)).mpr ?_)
  linarith

omit [NumberReader] in
theorem calibrationCurve_one_sub (hpos : 0 < ε) (hhalf : ε < 1 / 2) (slope p : ℝ) :
    calibrationCurve ε slope 0 (1 - p) = 1 - calibrationCurve ε slope 0 p := by
  have hmirror : FacLpr.logit (clampedProbability ε (1 - p)) =
      -FacLpr.logit (clampedProbability ε p) := predictor_one_sub hpos hhalf p 0 0
  rw [calibrationCurve, calibrationCurve, hmirror, add_zero, add_zero, mul_neg, Real.sigmoid_neg]

omit [NumberReader] in
/-- The two samples of a pair pull at the intercept by opposite amounts. -/
theorem residual_one_sub (hpos : 0 < ε) (hhalf : ε < 1 / 2) (slope p : ℝ) :
    residual ε slope 0 { raw := 1 - p, label := 0 } =
      -residual ε slope 0 { raw := p, label := 1 } := by
  rw [residual, residual, calibrationCurve_one_sub hpos hhalf]
  push_cast
  ring

omit [NumberReader] in
theorem weight_one_sub (hpos : 0 < ε) (hhalf : ε < 1 / 2) (slope p : ℝ) :
    weight ε slope 0 { raw := 1 - p, label := 0 } = weight ε slope 0 { raw := p, label := 1 } := by
  rw [weight, weight, calibrationCurve_one_sub hpos hhalf, sub_sub_cancel, mul_comm]

omit [NumberReader] in
/-- Both of them pull the slope up. -/
theorem sum_residual_mirrored_neg (hpos : 0 < ε) (hhalf : ε < 1 / 2) (hne : confidences ≠ [])
    (habove : ∀ p ∈ confidences, 1 / 2 < p) (slope : ℝ) :
    ((mirrored confidences).map fun sample =>
      residual ε slope 0 sample * predictor ε sample).sum < 0 := by
  rw [sum_mirrored, ← neg_pos, List.sum_neg, List.map_map]
  refine List.sum_pos _ (fun _ hterm => ?_) (by simpa using hne)
  obtain ⟨p, hp, rfl⟩ := List.mem_map.mp hterm
  have hx := predictor_pos hpos hhalf (habove p hp) 1
  have hr : residual ε slope 0 { raw := p, label := 1 } < 0 := by
    have hlt : calibrationCurve ε slope 0 p < 1 := Real.sigmoid_lt_one _
    rw [residual]
    push_cast
    linarith
  rw [Function.comp_apply, neg_pos, residual_one_sub hpos hhalf,
    predictor_one_sub hpos hhalf p 0 1, neg_mul_neg]
  exact add_neg (mul_neg_of_neg_of_pos hr hx) (mul_neg_of_neg_of_pos hr hx)

/-- **A step on mirrored samples** keeps the intercept and leaves some of the slope. -/
theorem exists_newtonStep_mirrored (hpos : 0 < ε) (hhalf : ε < 1 / 2) (hne : confidences ≠ [])
    (habove : ∀ p ∈ confidences, 1 / 2 < p) (hslope : 0 < slope) :
    ∃ step, newtonStep (mirrored confidences) ε slope 0 = .ok step ∧ step.1 < slope ∧
      step.2 = 0 := by
  obtain ⟨sums, hexact, step, hstep, hsolves⟩ :=
    exists_newtonStep hpos hhalf (mirrored confidences) slope 0
  have hl2 : (0 : ℝ) < l2 := by
    rw [l2, ofRat_eq_cast]
    norm_num
  have hSS := hexact.definite.hSS
  have hII := hexact.definite.hII
  have hgS : sums.gS < l2 * slope := by
    rw [hexact.gS.unique (hasDerivAt_slope ε slope 0 (mirrored confidences))]
    linarith [sum_residual_mirrored_neg hpos hhalf hne habove slope]
  have hgI : sums.gI = 0 := by
    rw [hexact.gI.unique (hasDerivAt_intercept ε slope 0 (mirrored confidences)), sum_mirrored]
    simp [residual_one_sub hpos hhalf]
  have hSI : sums.hSI = 0 := by
    rw [hexact.hSI, sum_mirrored]
    simp [weight_one_sub hpos hhalf, predictor_one_sub hpos hhalf _ 0 1]
  obtain ⟨hslopeSolved, hinterceptSolved⟩ := hsolves
  rw [hSI, zero_mul, add_zero] at hslopeSolved
  rw [hSI, zero_mul, zero_add, hgI] at hinterceptSolved
  refine ⟨step, hstep, ?_, (mul_eq_zero.mp hinterceptSolved).resolve_left (by linarith)⟩
  by_contra hnot
  have hproduct : sums.hSS * slope ≤ sums.hSS * step.1 :=
    mul_le_mul_of_nonneg_left (not_lt.mp hnot) (hl2.le.trans hSS)
  have hscaled : l2 * slope ≤ sums.hSS * slope := mul_le_mul_of_nonneg_right hSS hslope.le
  linarith

theorem exists_iterate_mirrored (hpos : 0 < ε) (hhalf : ε < 1 / 2) (hne : confidences ≠ [])
    (habove : ∀ p ∈ confidences, 1 / 2 < p) (left : ℕ) (hslope : 0 < slope) :
    ∃ fitted, iterate (mirrored confidences) ε left slope 0 = .ok fitted ∧ 0 < fitted.1 := by
  induction left generalizing slope with
  | zero => exact ⟨_, rfl, hslope⟩
  | succ left ih =>
    obtain ⟨step, hstep, hless, hkept⟩ :=
      exists_newtonStep_mirrored hpos hhalf hne habove hslope
    rw [iterate_succ hstep]
    split_ifs
    · exact ⟨_, rfl, sub_pos.mpr hless⟩
    · rw [hkept, sub_zero]
      exact ih (sub_pos.mpr hless)

/-- **Mirrored samples are fitted.** -/
theorem exists_fitLogistic_mirrored (hpos : 0 < ε) (hhalf : ε < 1 / 2) (hne : confidences ≠ [])
    (habove : ∀ p ∈ confidences, 1 / 2 < p) :
    ∃ fitted, fitLogistic (mirrored confidences) ε = .ok fitted ∧ 0 < fitted.1 := by
  obtain ⟨fitted, hfitted, hslope⟩ :=
    exists_iterate_mirrored hpos hhalf hne habove 100 one_pos
  rw [fitLogistic, hfitted]
  exact ⟨fitted, if_neg (not_le.mpr hslope), hslope⟩

end Mirrored

end Exact

section Samples

/-- A reader of the numbers of two rows. -/
@[reducible] noncomputable def sampleNumbers : NumberReader where
  ofText text :=
    if text = "0.9".toList then .ok (Scalar.ofRat (9 / 10))
    else if text = "0.1".toList then .ok (Scalar.ofRat (1 / 10))
    else .error (.valueError "could not convert string to float")
  intOfText text :=
    if text = "1".toList then .ok 1
    else if text = "0".toList then .ok 0
    else .error (.valueError "invalid literal for int()")

attribute [local instance] sampleNumbers

/-- A sure sample of either label. -/
noncomputable def sureSamples : List (Sample ℝ) :=
  [{ raw := Scalar.ofRat (9 / 10), label := 1 }, { raw := Scalar.ofRat (1 / 10), label := 0 }]

theorem sureSamples_eq : sureSamples = mirrored [Scalar.ofRat (9 / 10)] := by
  have hcomplement : (Scalar.ofRat (1 / 10) : ℝ) = 1 - Scalar.ofRat (9 / 10) := by
    rw [ofRat_eq_cast, ofRat_eq_cast]
    norm_num
  rw [sureSamples, hcomplement]
  rfl

theorem exists_fitLogistic_sureSamples (hpos : 0 < ε) (hhalf : ε < 1 / 2) :
    ∃ fitted, fitLogistic sureSamples ε = .ok fitted ∧ 0 < fitted.1 := by
  rw [sureSamples_eq]
  refine exists_fitLogistic_mirrored hpos hhalf (List.cons_ne_nil _ _) fun p hp => ?_
  rw [List.mem_singleton.mp hp, ofRat_eq_cast]
  norm_num

theorem fitLogistic_exact_sureSamples :
    ∃ fitted, fitLogistic sureSamples (1 / 4) = .ok fitted ∧ 0 < fitted.1 := by
  have hpos : (0 : ℝ) < 1 / 4 := by norm_num
  have hhalf : (1 / 4 : ℝ) < 1 / 2 := by norm_num
  rcases (fitLogistic_exact hpos hhalf sureSamples).2 with hfitted | hfailed
  · exact hfitted
  · obtain ⟨fitted, hfitted, -⟩ := exists_fitLogistic_sureSamples hpos hhalf
    cases hfailed.symm.trans hfitted

end Samples

/-! ## The fit, served -/

section Served

open CalibrationJson JsonConfig LogisticConfidenceCalibrator DefinedReal

/-- **The engine calibrates with what was fitted**: loaded from the document of the script, in exact
arithmetic, it maps a raw confidence to the prediction of the script for a sample with it. -/
theorem calibrate_eq_predicted [NumberReader] {lib : CalibrationLibrary ℝ DefinedReal}
    (hlib : lib.Documented) (hnarrow : ∀ x, lib.narrow x = value x)
    {openBinary : Text → Option InputFile} {path : Text} {input : InputFile} {payload : Payload ℝ}
    (h : payload.Written)
    (hcounts : ∀ segment ∈ payload.segments, segment.sampleCount < 2 ^ 64)
    (hopen : openBinary path = some input) (hgood : input.bad = false) (htext : input.content ≠ [])
    (hparse : lib.parse input.content = .ok payload.document)
    {calibrator : LogisticConfidenceCalibrator DefinedReal}
    (hmade : makeLogisticCalibratorJsonFile lib openBinary path = .ok calibrator)
    {segment : FittedSegment ℝ} (hsegment : segment ∈ payload.segments) {raw quality : ℝ}
    (hraw : raw ∈ Set.Icc (0 : ℝ) 1) (hquality : quality ∈ Set.Icc (0 : ℝ) 1) :
    ∃ prediction,
      (do
        let x ← logit raw payload.probabilityEpsilon
        sigmoid (segment.slope * x + segment.intercept)) = .ok prediction ∧
      calibrator.calibrate segment.provider.utf8 (value raw) (value quality)
        segment.cropType.utf8 = .ok (value prediction) := by
  obtain ⟨hconfig, hfinds⟩ := finds_of_made hlib h hcounts hopen hgood htext hparse hmade
  obtain ⟨hfound, henough⟩ := hfinds segment hsegment
  have hε : calibrator.config.probabilityEpsilon = value payload.probabilityEpsilon := by
    rw [hconfig]
    exact hnarrow _
  obtain ⟨ε, -, -, hε', -, -, hpos, hhalf, -⟩ :=
    exists_parameters calibrator (accepted_of_findSegment hfound)
  obtain rfl : ε = payload.probabilityEpsilon := value.inj (hε'.symm.trans hε)
  refine ⟨_, predict_eq hpos hhalf segment.slope segment.intercept raw, ?_⟩
  have hsource : segment.provider.utf8 ≠ [] := fun hnone =>
    h.providers segment hsegment (Unicode.utf8_eq_nil.mp hnone)
  obtain ⟨hcommon, hnamed⟩ := checked_of_mem hsource hraw hquality
  refine except_bind_eq_ok.mpr ⟨(), hcommon,
    except_bind_eq_ok.mpr ⟨(), require_eq_ok.mpr hnamed, ?_⟩⟩
  rw [hfound]
  exact (if_neg (not_lt.mpr henough)).trans
    (segment_value hε (hnarrow _) (hnarrow _) hpos hhalf raw)

/-- The library of the reals. -/
noncomputable def realLibrary : CalibrationLibrary ℝ DefinedReal := sampleLibrary value Int.floor

theorem representable_realLibrary : (samplePayload ℝ).Representable realLibrary where
  finiteEpsilon := rfl
  positiveEpsilon := by
    change ¬ value ((1 / 4 : ℚ) : ℝ) ≤ 0
    rw [DefinedReal.zero_eq, value_le]
    norm_num
  epsilonBelowHalf := by
    change ¬ value ((1 / 2 : ℚ) : ℝ) ≤ value ((1 / 4 : ℚ) : ℝ)
    rw [value_le]
    norm_num
  finiteSlope _ _ := rfl
  positiveSlope := List.forall_mem_singleton.mpr (by
    change ¬ value ((3 / 2 : ℚ) : ℝ) ≤ 0
    rw [DefinedReal.zero_eq, value_le]
    norm_num)
  finiteIntercept _ _ := rfl
  keys := keys_samplePayload

attribute [local instance] sampleNumbers

theorem calibrate_eq_predicted_samplePayload :
    ∃ calibrator, makeLogisticCalibratorJsonFile realLibrary sampleFiles
        (ascii "calibration.json") = .ok calibrator ∧
      ∃ segment ∈ (samplePayload ℝ).segments, ∃ prediction,
        (do
          let x ← logit (9 / 10) (samplePayload ℝ).probabilityEpsilon
          sigmoid (segment.slope * x + segment.intercept)) = .ok prediction ∧
        calibrator.calibrate segment.provider.utf8 (value (9 / 10)) (value 1)
          segment.cropType.utf8 = .ok (value prediction) := by
  have hopen : sampleFiles (ascii "calibration.json") =
    some { content := sampleText, bad := false } := rfl
  have hlib : realLibrary.Documented := documented_sampleLibrary value Int.floor
  obtain ⟨calibrator, hmade⟩ := exists_made hlib written_samplePayload counts_samplePayload hopen
    rfl (List.cons_ne_nil _ _) (parse_sampleText value Int.floor) representable_realLibrary
  exact ⟨calibrator, hmade, _, List.mem_singleton_self _,
    calibrate_eq_predicted hlib (fun _ => rfl) written_samplePayload counts_samplePayload hopen rfl
      (List.cons_ne_nil _ _) (parse_sampleText value Int.floor) hmade (List.mem_singleton_self _)
      (by norm_num) (by norm_num)⟩

end Served

end CalibrationFit

end FacLpr

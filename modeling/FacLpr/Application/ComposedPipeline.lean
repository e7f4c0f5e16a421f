import FacLpr.Application.ProbableScores
import FacLpr.Application.SteadyClock
import FacLpr.Infrastructure.Crop.CropHypothesisGenerator

/-!
# Application/ComposedPipeline — the repository's stages around any providers

With the repository's crop generator, calibrator, fusion and policy, and a detector that returns
finite coordinates and probabilities, every number of a result is in range whatever the recognizers
and the evaluators return (`returns_recognize_composed`).
-/

namespace FacLpr

section

variable {F D : Type} [Scalar F]

structure ProbableCandidate (candidate : PlateCandidate F) : Prop where
  confidence : Scalar.isProbability candidate.confidence = true
  calibratedConfidence : Scalar.isProbability candidate.calibratedConfidence = true

structure FiniteBox (box : BoundingBox F) : Prop where
  x : Scalar.isFinite box.x = true
  y : Scalar.isFinite box.y = true
  width : Scalar.isFinite box.width = true
  height : Scalar.isFinite box.height = true

structure ProbableQuadrilateral (quadrilateral : PlateQuadrilateral F) : Prop where
  points (i : Fin 4) : Scalar.isFinite (quadrilateral.points i).x = true ∧
    Scalar.isFinite (quadrilateral.points i).y = true
  confidences (i : Fin 4) : Scalar.isProbability (quadrilateral.confidences i) = true

/-- What a detector has to return. -/
structure ProbableDetection (detection : Detection F) : Prop where
  bbox : FiniteBox detection.bbox
  quadrilateral : ∀ quadrilateral, detection.quadrilateral = some quadrilateral →
    ProbableQuadrilateral quadrilateral
  confidence : Scalar.isProbability detection.confidence = true

/-- An item with probabilities, and a latency of the given kind. -/
structure ProbableEvidence (latency : D → Prop) (item : RecognitionEvidence F D) : Prop where
  cropQuality : Scalar.isProbability item.cropQuality = true
  candidates : ∀ candidate ∈ item.candidates, ProbableCandidate candidate
  latencyMs : latency item.latencyMs

/-- **Every score is a probability**, the coordinates are finite, and the latencies of the evidence
are of the given kind. -/
structure ProbableRecognition (latency : D → Prop) (recognition : PlateRecognitionResult F D) :
    Prop where
  confidence : Scalar.isProbability recognition.confidence = true
  detectorConfidence : Scalar.isProbability recognition.detectorConfidence = true
  geometryScore : Scalar.isProbability recognition.geometryScore = true
  cropQuality : Scalar.isProbability recognition.cropQuality = true
  bbox : ∀ box, recognition.bbox = some box → FiniteBox box
  quadrilateral : ∀ quadrilateral, recognition.quadrilateral = some quadrilateral →
    ProbableQuadrilateral quadrilateral
  evidence : ∀ item ∈ recognition.evidence, ProbableEvidence latency item
  alternatives : ∀ candidate ∈ recognition.alternatives, ProbableCandidate candidate

theorem ProbableRecognition.mono {P Q : D → Prop} {recognition : PlateRecognitionResult F D}
    (h : ProbableRecognition P recognition) (hPQ : ∀ latencyMs, P latencyMs → Q latencyMs) :
    ProbableRecognition Q recognition :=
  { h with evidence := fun item hitem =>
      have hevidence := h.evidence item hitem
      ⟨hevidence.cropQuality, hevidence.candidates, hPQ _ hevidence.latencyMs⟩ }

/-- A latency between two readings, as the ensemble clamps it. -/
def BetweenReadings [Scalar D] (σ : Type) [World σ] (latencyMs : D) : Prop :=
  ∃ started finished, IsReading σ started ∧ IsReading σ finished ∧
    latencyMs = Scalar.max 0 (elapsedMs started finished)

end

namespace LprPipeline

open Program SafeDecisionPolicy

section

variable {σ F D : Type} [Scalar F] [Scalar D] [World σ] [PixelArithmetic F D]

/-- The repository's generator, calibrator, fusion and policy around any detector, recognizers and
evaluators. -/
def composed (deps : LprPipelineDependencies σ F D) (generator : CropHypothesisGenerator F)
    (calibrator : ConfidenceCalibrator F) (c : CandidateFusion.Config F)
    (p : SafeDecisionPolicy.Config F) : LprPipelineDependencies σ F D :=
  { deps with
    cropGenerator := generator.generate D
    calibrator := fun source rawConfidence cropQuality cropType =>
      Run.ofExcept (calibrator.calibrate source rawConfidence cropQuality cropType)
    candidateFusion := fun evidence layoutEvidence =>
      pure (CandidateFusion.fuse c evidence layoutEvidence)
    decisionPolicy := safePolicy p }

/-- The providers only let time pass. -/
structure ProvidersLetTimePass (clock : SteadyClock σ) (deps : LprPipelineDependencies σ F D) :
    Prop where
  detector : ∀ image context, LetsTimePass clock (deps.detector image context)
  geometry : ∀ detection context, LetsTimePass clock (deps.geometry detection context)
  aligner : ∀ image detection context, LetsTimePass clock (deps.aligner image detection context)
  recognizers : ∀ registration ∈ deps.recognitionEnsemble.recognizers, ∀ plate context,
    LetsTimePass clock (registration.provider.recognize plate context)
  layoutAnalyzer : ∀ image candidates context,
    LetsTimePass clock (deps.layoutAnalyzer image candidates context)

theorem letsTimePass_generate {clock : SteadyClock σ} (generator : CropHypothesisGenerator F)
    (image : ImageView) (detection : Detection F) (aligned : Option ImageBuffer)
    (context : OperationContext) :
    LetsTimePass clock (generator.generate D image detection aligned context) := by
  intro m
  have hcheck : Maintains (clock.Reached m)
      (CropHypothesisGenerator.checkCropContext context : Run σ Unit) fun _ => True :=
    maintains_checkContext _ _ _
  have hkinds : ∀ (kinds : List CropGeneratorKind) (hypotheses : List (CropHypothesis F)),
      Maintains (clock.Reached m) (CropHypothesisGenerator.addKinds D generator.config image
        detection.bbox aligned context kinds hypotheses) fun _ => True := by
    intro kinds
    induction kinds with
    | nil => exact fun _ => maintains_pure trivial
    | cons kind kinds ih =>
      refine fun hypotheses => hcheck.bind fun _ _ => ?_
      split
      · exact maintains_pure trivial
      · exact (maintains_runOfExcept _).bind fun next _ => ih next
  refine hcheck.bind fun _ _ => ?_
  split
  · exact maintains_runOfExcept _
  · exact hkinds _ _

/-- The repository's stages read the clock at most. -/
theorem letTimePass_composed {clock : SteadyClock σ} {deps : LprPipelineDependencies σ F D}
    (h : ProvidersLetTimePass clock deps) (generator : CropHypothesisGenerator F)
    (calibrator : ConfidenceCalibrator F) (c : CandidateFusion.Config F)
    (p : SafeDecisionPolicy.Config F) :
    LetTimePass clock (composed deps generator calibrator c p) where
  detector := h.detector
  geometry := h.geometry
  aligner := h.aligner
  cropGenerator := letsTimePass_generate generator
  recognizers := h.recognizers
  calibrator _ _ _ _ _ := maintains_runOfExcept _
  layoutAnalyzer := h.layoutAnalyzer
  candidateFusion _ _ _ := maintains_pure trivial
  decisionPolicy _ _ _ _ _ := maintains_runOfExcept _

end

variable {B D σ : Type} [FloatEncoding B] [Scalar D]

omit [Scalar D] in
/-- The weight of a recognizer is a probability. -/
theorem isProbability_weight {ensemble : RecognitionEnsemble σ B D}
    {registration : RecognizerRegistration σ B D} (h : registration ∈ ensemble.recognizers) :
    Scalar.isProbability registration.weight = true := by
  obtain ⟨_, -, hcheck⟩ := except_bind_eq_ok.mp ensemble.accepted
  obtain ⟨_, hloop, -⟩ := except_bind_eq_ok.mp hcheck
  obtain ⟨names, _, hregistration⟩ := except_foldlM_eq_ok hloop registration h
  obtain ⟨_, -, hregistration⟩ := except_bind_eq_ok.mp hregistration
  obtain ⟨_, hweight, -⟩ := except_bind_eq_ok.mp hregistration
  exact require_eq_ok.mp hweight

omit [Scalar D] in
theorem isProbability_providerWeight (ensemble : RecognitionEnsemble σ B D) (provider : Text) :
    Scalar.isProbability (providerWeight ensemble provider) = true := by
  unfold providerWeight
  split
  · rename_i registration hfind
    split
    · exact Scalar.isProbability_clamp01_of_isFinite (Scalar.isFinite_of_isProbability
        (isProbability_weight (List.mem_of_find?_eq_some hfind)))
    · exact isProbability_zero
  · exact isProbability_one

variable [World σ] [PixelArithmetic B D] {deps : LprPipelineDependencies σ B D}
  {generator : CropHypothesisGenerator B} {calibrator : ConfidenceCalibrator B}
  {c : CandidateFusion.Config B} {p : SafeDecisionPolicy.Config B} {image : ImageView}
  {context : OperationContext} {source : Detection B} {round : DetectionRound B D}

theorem probableEvidence_of_ran {pass : CropPass B D}
    (h : Ran (composed deps generator calibrator c p) context pass) :
    ∀ item ∈ pass.evidence, ProbableEvidence (BetweenReadings σ) item := by
  intro item hitem
  obtain ⟨hcompleted, hcalibrated⟩ := evidence_of_ran h item hitem
  refine ⟨?_, fun candidate hcandidate => ⟨(hcompleted.candidates candidate hcandidate).2, ?_⟩,
    hcompleted.latency⟩
  · rw [hcompleted.cropQuality]
    exact Scalar.isProbability_clamp01_of_isFinite (isFinite_quality_of_ran h)
  · obtain ⟨calibrated, s, s', hrun, hconfidence⟩ := hcalibrated candidate hcandidate
    have hprobable : Scalar.isProbability calibrated = true :=
      returns_runOfExcept (fun _ hcalibrate => isProbability_calibrate calibrator hcalibrate)
        s _ s' hrun
    rw [hconfidence]
    exact Scalar.isProbability_clamp01_of_isFinite (Scalar.isFinite_of_isProbability
      (isProbability_mul hprobable (isProbability_providerWeight _ _)))

/-- **A round decides a probable recognition.** -/
theorem probableRecognition_of_decidedRound
    (hround : DecidedRound (composed deps generator calibrator c p) image context source round)
    (hsource : ProbableDetection source) :
    ProbableRecognition (BetweenReadings σ) round.recognition := by
  obtain ⟨geometryScore, hdetection, hgeometry⟩ := hround.detection
  obtain ⟨t, t', hfusion⟩ := hround.fused
  have hfused : CandidateFusion.fuse c round.loop.allEvidence round.loop.allLayout = round.fused :=
    (EStateM.Result.ok.inj hfusion).1
  obtain ⟨_, decisionContext, totalLatencyMs, u, u', -, hdecision, hresult⟩ := hround.decision
  obtain ⟨hinputs, rfl⟩ := returns_safePolicy_decision p _ _ _ _ u _ u' hdecision
  obtain ⟨status, decisionReasons, hgates⟩ := applyGates_eq p.config round.detection
    (validCandidates round.fused) decisionContext
    (resultOf round.detection round.loop.allEvidence round.fused decisionContext)
  have hsourceOf : round.detection.bbox = source.bbox ∧
      round.detection.quadrilateral = source.quadrilateral ∧
      round.detection.confidence = source.confidence ∧
      round.detection.geometryScore = geometryScore := by
    rw [hdetection]
    exact ⟨rfl, rfl, rfl, rfl⟩
  obtain ⟨hbbox, hquadrilateral, hconfidence, hscore⟩ := hsourceOf
  rw [hresult, hgates]
  refine ⟨?_, ?_, ?_, ?_, ?_, ?_, ?_, ?_⟩
  · change Scalar.isProbability
      (((validCandidates round.fused).head?.map effectiveValue).getD 0) = true
    cases hhead : (validCandidates round.fused).head? with
    | none => exact isProbability_zero
    | some best =>
      have hbest := mem_stableSort.mp (List.mem_of_mem_head? hhead)
      exact (checkInputs_eq_ok.mp hinputs).2 best (List.mem_filter.mp hbest).1
  · change Scalar.isProbability round.detection.confidence = true
    rw [hconfidence]
    exact hsource.confidence
  · change Scalar.isProbability round.detection.geometryScore = true
    rw [hscore]
    rcases hgeometry with rfl | ⟨raw, hraw, rfl⟩
    · exact isProbability_zero
    · exact Scalar.isProbability_clamp01_of_isFinite hraw
  · change Scalar.isProbability round.loop.bestCropQuality = true
    rw [hround.quality_eq_foldl]
    refine Scalar.isProbability_foldl_max isProbability_zero
      (List.forall_mem_map.mpr fun pass hpass => ?_)
    exact Scalar.isProbability_clamp01_of_isFinite (isFinite_quality_of_ran (hround.ran pass hpass))
  · intro box hsome
    obtain rfl := Option.some.inj hsome
    rw [hbbox]
    exact hsource.bbox
  · intro quadrilateral hsome
    exact hsource.quadrilateral quadrilateral (hquadrilateral ▸ hsome)
  · change ∀ item ∈ round.loop.allEvidence, ProbableEvidence (BetweenReadings σ) item
    rw [hround.evidence]
    intro item hitem
    obtain ⟨pass, hpass, hitem⟩ := List.mem_flatMap.mp hitem
    exact probableEvidence_of_ran (hround.ran pass hpass) item hitem
  · change ∀ candidate ∈ round.fused, ProbableCandidate candidate
    rw [← hfused]
    intro candidate hcandidate
    obtain ⟨h, h'⟩ := CandidateFusion.isProbability_of_mem_fuse hcandidate
    exact ⟨h, h'⟩

/-- **Every recognition of a run is probable.** -/
theorem returns_recognize_composed (deps : LprPipelineDependencies σ B D)
    (generator : CropHypothesisGenerator B) (calibrator : ConfidenceCalibrator B)
    (c : CandidateFusion.Config B) (p : SafeDecisionPolicy.Config B)
    (hdetector : ∀ image context, Returns (deps.detector image context) fun detections =>
      ∀ detection ∈ detections, ProbableDetection detection)
    (image : ImageView) (context : OperationContext) :
    Returns (recognize (composed deps generator calibrator c p) image context) fun result =>
      ∀ recognition ∈ result.recognitions, ProbableRecognition (BetweenReadings σ) recognition := by
  refine (returns_recognize_trace _ image context).mono ?_
  rintro result ⟨detections, t, t', hdetect, hrounds⟩ recognition hmem
  obtain ⟨source, hsource, round, rfl, hround⟩ := forall₂_exists_left hrounds hmem
  exact probableRecognition_of_decidedRound hround
    (hdetector image context t detections t' hdetect source hsource)

end LprPipeline

end FacLpr

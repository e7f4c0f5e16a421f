import FacLpr.Application.Config
import FacLpr.Application.Providers
import FacLpr.Application.RecognitionEnsemble

/-!
# Application/LprPipeline — one image through every stage

The accumulators of the source are explicit: the pipeline's result, the decision context of the
detection at hand (together a `Tally`), and the evidence, the layouts and the best quality over its
crops (`CropLoop`).  A loop also lists what it did, crop by crop and detection by detection
(`CropPass`, `DetectionRound`); no step reads these lists.
-/

namespace FacLpr

/-- `EngineDiagnostics`, by what the pipeline calls of it; none of it throws. -/
structure EngineDiagnostics (σ D : Type) where
  recordRecognition : RecognitionStatus → σ → σ
  recordProviderFailures : ℕ → σ → σ
  recordStageLatency : Text → D → σ → σ

/-- Each dependency by its one method. -/
structure LprPipelineDependencies (σ F D : Type) [Scalar F] where
  detector : ImageView → OperationContext → Run σ (List (Detection F))
  geometry : Detection F → OperationContext → Run σ (GeometryEvidence F)
  aligner : ImageView → Detection F → OperationContext → Run σ (Option ImageBuffer)
  cropGenerator : ImageView → Detection F → Option ImageBuffer → OperationContext →
    Run σ (List (CropHypothesis F))
  recognitionEnsemble : RecognitionEnsemble σ F D
  calibrator : Text → F → F → Text → Run σ F
  layoutAnalyzer : ImageView → List (PlateCandidate F) → OperationContext →
    Run σ (LayoutEvidence F)
  candidateFusion : List (RecognitionEvidence F D) → List (LayoutEvidence F) →
    Run σ (List (PlateCandidate F))
  decisionPolicy : Detection F → List (RecognitionEvidence F D) → List (PlateCandidate F) →
    RecognitionDecisionContext → Run σ (PlateRecognitionResult F D)
  diagnostics : Option (EngineDiagnostics σ D)

/-- The pipeline's result so far, and the decision context of the detection at hand. -/
structure Tally (F D : Type) where
  result : LprPipelineResult F D
  decisionContext : RecognitionDecisionContext

/-- One iteration over the crops: the crop, what the ensemble made of it, the evidence after
calibration and the layout. -/
structure CropPass (F D : Type) where
  crop : CropHypothesis F
  ensemble : RecognitionEnsembleResult F D
  evidence : List (RecognitionEvidence F D)
  layout : LayoutEvidence F

/-- The variables of the loop over the crops. -/
structure CropLoop (F D : Type) where
  tally : Tally F D
  allEvidence : List (RecognitionEvidence F D)
  allLayout : List (LayoutEvidence F)
  bestCropQuality : F
  passes : List (CropPass F D)

/-- One iteration over the detections: what reached the fusion and the policy, the recognition, and
the failures recorded on the way. -/
structure DetectionRound (F D : Type) where
  detection : Detection F
  loop : CropLoop F D
  fused : List (PlateCandidate F)
  recognition : PlateRecognitionResult F D
  failures : List ProviderFailure

namespace LprPipeline

variable {σ F D : Type} [Scalar F] [Scalar D]

/-- `record_failure`. -/
def recordFailure (provider : Text) (code : EngineErrorCode) (tally : Tally F D) : Tally F D where
  result := { tally.result with
    degraded := true
    providerFailureCount := tally.result.providerFailureCount + 1
    failures := tally.result.failures ++ [⟨provider, code⟩] }
  decisionContext := { tally.decisionContext with
    degraded := true
    providerFailureCount := tally.decisionContext.providerFailureCount + 1 }

/-- The failures of an ensemble, which the pipeline records all at once. -/
def recordEnsemble (ensemble : RecognitionEnsembleResult F D) (tally : Tally F D) : Tally F D where
  result := { tally.result with
    failures := tally.result.failures ++ ensemble.failures
    providerFailureCount := tally.result.providerFailureCount + ensemble.failures.length
    degraded := tally.result.degraded || ensemble.degraded }
  decisionContext := { tally.decisionContext with
    degraded := tally.decisionContext.degraded || ensemble.degraded
    providerFailureCount := tally.decisionContext.providerFailureCount + ensemble.failures.length }

/-- `catch (const ProviderError& error)`; any other exception goes on. -/
def catchProviderError {α : Type} (body : Run σ α) (handler : EngineErrorCode → α) : Run σ α :=
  tryCatch body fun e =>
    match e with
    | .engine error =>
        if error.code = .provider then pure (handler error.code) else Run.throw error
    | .foreign => throw .foreign

/-- `provider_weight`: the weight of the first recognizer of that name, or one. -/
def providerWeight (ensemble : RecognitionEnsemble σ F D) (provider : Text) : F :=
  match ensemble.recognizers.find? fun registration => registration.provider.name == provider with
  | some registration => if registration.enabled then Scalar.clamp01 registration.weight else 0
  | none => 1

section

variable [World σ]

def checkPipelineContext (context : OperationContext) : Run σ Unit :=
  checkContext context "LPR pipeline cancelled" "LPR pipeline deadline exceeded"

/-- `add_timing`. -/
def addTiming (stage : String) (detectionIndex cropIndex : ℕ) (started : ℤ) (tally : Tally F D) :
    Run σ (Tally F D) := do
  let finished ← now
  return { tally with result := { tally.result with
    stageTimings := tally.result.stageTimings ++
      [⟨ascii stage, detectionIndex, cropIndex, Scalar.max 0 (elapsedMs started finished)⟩] } }

/-- The geometry stage: the score of the detection, or zero. -/
def evaluateGeometry (deps : LprPipelineDependencies σ F D) (context : OperationContext)
    (detectionIndex : ℕ) (detection : Detection F) (tally : Tally F D) :
    Run σ (Detection F × Tally F D) := do
  let started ← now
  let (detection, tally) ← catchProviderError
    (do
      let geometry ← deps.geometry detection context
      return ({ detection with
        geometryScore := if Scalar.isFinite geometry.score then Scalar.clamp01 geometry.score
          else 0 }, tally))
    fun code => ({ detection with geometryScore := 0 }, recordFailure (ascii "geometry") code tally)
  let tally ← addTiming "geometry" detectionIndex 0 started tally
  checkPipelineContext context
  return (detection, tally)

/-- The alignment stage. -/
def alignPlate (deps : LprPipelineDependencies σ F D) (image : ImageView)
    (context : OperationContext) (detectionIndex : ℕ) (detection : Detection F)
    (tally : Tally F D) : Run σ (Option ImageBuffer × Tally F D) := do
  let started ← now
  let (aligned, tally) ← catchProviderError
    (do
      let aligned ← deps.aligner image detection context
      return (aligned, tally))
    fun code => (none, recordFailure (ascii "alignment") code tally)
  let tally ← addTiming "alignment" detectionIndex 0 started tally
  checkPipelineContext context
  return (aligned, tally)

/-- The calibration of one candidate. -/
def calibrateCandidate (deps : LprPipelineDependencies σ F D) (crop : CropHypothesis F)
    (source : Text) (candidate : PlateCandidate F) : Run σ (PlateCandidate F) := do
  let calibrated ← deps.calibrator source candidate.confidence crop.quality crop.type
  return { candidate with
    calibratedConfidence :=
      Scalar.clamp01 (calibrated * providerWeight deps.recognitionEnsemble source) }

/-- The calibration of one evidence item. -/
def calibrateEvidence (deps : LprPipelineDependencies σ F D) (crop : CropHypothesis F)
    (evidence : RecognitionEvidence F D) : Run σ (RecognitionEvidence F D) := do
  let candidates ← evidence.candidates.mapM (calibrateCandidate deps crop evidence.source)
  return { evidence with candidates }

/-- The layout stage: a default layout when the analyzer fails. -/
def analyzeLayout (deps : LprPipelineDependencies σ F D) (context : OperationContext)
    (crop : CropHypothesis F) (candidates : List (PlateCandidate F)) (tally : Tally F D) :
    Run σ (LayoutEvidence F × Tally F D) :=
  catchProviderError
    (do
      let layout ← deps.layoutAnalyzer crop.image.view candidates context
      return (layout, tally))
    fun code => (LayoutEvidence.default, recordFailure (ascii "layout") code tally)

/-- One iteration of the loop over the crops. -/
def cropStep (deps : LprPipelineDependencies σ F D) (context : OperationContext)
    (detectionIndex : ℕ) (loop : CropLoop F D) (indexed : CropHypothesis F × ℕ) :
    Run σ (CropLoop F D) := do
  let (crop, cropIndex) := indexed
  let bestCropQuality := Scalar.max loop.bestCropQuality (Scalar.clamp01 crop.quality)
  let recognitionStarted ← now
  let ensemble ← deps.recognitionEnsemble.recognize crop.image.view crop.quality context
  let tally ← addTiming "recognition" detectionIndex cropIndex recognitionStarted loop.tally
  let tally := recordEnsemble ensemble tally
  let calibrationStarted ← now
  let evidence ← ensemble.evidence.mapM (calibrateEvidence deps crop)
  let tally ← addTiming "calibration" detectionIndex cropIndex calibrationStarted tally
  let cropCandidates := evidence.flatMap RecognitionEvidence.candidates
  let layoutStarted ← now
  let (layout, tally) ← analyzeLayout deps context crop cropCandidates tally
  let tally ← addTiming "layout" detectionIndex cropIndex layoutStarted tally
  checkPipelineContext context
  return {
    tally
    allEvidence := loop.allEvidence ++ evidence
    allLayout := loop.allLayout ++ List.replicate evidence.length layout
    bestCropQuality
    passes := loop.passes ++ [⟨crop, ensemble, evidence, layout⟩] }

/-- The end of an iteration over the detections: fusion and decision. -/
def decideDetection (deps : LprPipelineDependencies σ F D) (context : OperationContext)
    (pipelineStarted : ℤ) (detectionIndex : ℕ) (detection : Detection F) (loop : CropLoop F D) :
    Run σ (LprPipelineResult F D × List (PlateCandidate F) × PlateRecognitionResult F D) := do
  let fusionStarted ← now
  let fused ← deps.candidateFusion loop.allEvidence loop.allLayout
  let tally ← addTiming "fusion" detectionIndex 0 fusionStarted loop.tally
  let decisionStarted ← now
  let recognition ← deps.decisionPolicy detection loop.allEvidence fused tally.decisionContext
  let tally ← addTiming "decision" detectionIndex 0 decisionStarted tally
  let finished ← now
  let recognition := { recognition with
    cropQuality := loop.bestCropQuality
    degraded := recognition.degraded || tally.decisionContext.degraded
    totalLatencyMs := elapsedMs pipelineStarted finished }
  let result := { tally.result with recognitions := tally.result.recognitions ++ [recognition] }
  checkPipelineContext context
  return (result, fused, recognition)

/-- One iteration of the loop over the detections. -/
def detectionStep (deps : LprPipelineDependencies σ F D) (image : ImageView)
    (context : OperationContext) (pipelineStarted : ℤ)
    (state : LprPipelineResult F D × List (DetectionRound F D)) (indexed : Detection F × ℕ) :
    Run σ (LprPipelineResult F D × List (DetectionRound F D)) := do
  let (detection, detectionIndex) := indexed
  let (detection, tally) ← evaluateGeometry deps context detectionIndex detection
    ⟨state.1, RecognitionDecisionContext.default⟩
  let (aligned, tally) ← alignPlate deps image context detectionIndex detection tally
  let cropStarted ← now
  let crops ← deps.cropGenerator image detection aligned context
  let tally ← addTiming "crop_generation" detectionIndex 0 cropStarted tally
  checkPipelineContext context
  let loop ← crops.zipIdx.foldlM (cropStep deps context detectionIndex) ⟨tally, [], [], 0, []⟩
  let (result, fused, recognition) ←
    decideDetection deps context pipelineStarted detectionIndex detection loop
  return (result, state.2 ++
    [⟨detection, loop, fused, recognition, result.failures.drop state.1.failures.length⟩])

/-- `publish_diagnostics`. -/
def publishDiagnostics (diagnostics : Option (EngineDiagnostics σ D))
    (result : LprPipelineResult F D) : Run σ Unit :=
  match diagnostics with
  | none => pure ()
  | some diagnostics => fun s =>
      let s := result.recognitions.foldl (fun s recognition =>
        diagnostics.recordRecognition recognition.status s) s
      let s := diagnostics.recordProviderFailures result.providerFailureCount s
      let s := result.stageTimings.foldl (fun s timing =>
        diagnostics.recordStageLatency timing.stage timing.latencyMs s) s
      .ok () s

/-- A default-constructed `LprPipelineResult`. -/
def emptyResult : LprPipelineResult F D := ⟨[], [], [], 0, 0, false⟩

/-- `LprPipeline::recognize`, with the rounds of its loop over the detections. -/
def recognizeRounds (deps : LprPipelineDependencies σ F D) (image : ImageView)
    (context : OperationContext) : Run σ (LprPipelineResult F D × List (DetectionRound F D)) := do
  let pipelineStarted ← now
  checkPipelineContext context
  let validated ← Run.ofExcept (validateImage image {})
  let detectionStarted ← now
  let detections ← deps.detector validated.view context
  let tally ← addTiming "detection" 0 0 detectionStarted
    ⟨emptyResult, RecognitionDecisionContext.default⟩
  checkPipelineContext context
  let (result, rounds) ← detections.zipIdx.foldlM
    (detectionStep deps validated.view context pipelineStarted) (tally.result, [])
  let finished ← now
  let result := { result with
    totalLatencyMs := Scalar.max 0 (elapsedMs pipelineStarted finished) }
  publishDiagnostics deps.diagnostics result
  return (result, rounds)

/-- `LprPipeline::recognize`. -/
def recognize (deps : LprPipelineDependencies σ F D) (image : ImageView)
    (context : OperationContext) : Run σ (LprPipelineResult F D) := do
  let (result, _) ← recognizeRounds deps image context
  return result

end

end LprPipeline

end FacLpr

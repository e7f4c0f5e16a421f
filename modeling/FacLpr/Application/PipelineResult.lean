import FacLpr.Application.Error
import FacLpr.Domain.Recognition

/-!
# Application/PipelineResult — what a run of the pipeline returns
-/

namespace FacLpr

structure ProviderFailure where
  provider : Text
  code : EngineErrorCode
  deriving DecidableEq

structure PipelineStageTiming (D : Type) where
  stage : Text
  detectionIndex : ℕ
  cropIndex : ℕ
  latencyMs : D
  deriving DecidableEq

structure LprPipelineResult (F D : Type) where
  recognitions : List (PlateRecognitionResult F D)
  stageTimings : List (PipelineStageTiming D)
  failures : List ProviderFailure
  totalLatencyMs : D
  providerFailureCount : ℕ
  degraded : Bool
  deriving DecidableEq

/-! ## Results up to latency -/

section

variable {F D : Type} [Zero D]

/-- An evidence item with its latency erased. -/
def RecognitionEvidence.withoutLatency (evidence : RecognitionEvidence F D) :
    RecognitionEvidence F D :=
  { evidence with latencyMs := 0 }

/-- A recognition with its latencies erased. -/
def PlateRecognitionResult.withoutLatency (recognition : PlateRecognitionResult F D) :
    PlateRecognitionResult F D :=
  { recognition with
    totalLatencyMs := 0
    evidence := recognition.evidence.map RecognitionEvidence.withoutLatency }

end

end FacLpr

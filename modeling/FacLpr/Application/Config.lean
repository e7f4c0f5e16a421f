import FacLpr.Application.Error
import FacLpr.Foundations.Scalar

/-!
# Application/Config — checks of the engine's configuration
-/

namespace FacLpr

variable {F : Type} [Scalar F]

/-- `require_probability` of the constructors. -/
def requireProbability (value : F) (name : String) : Except EngineError Unit :=
  require (Scalar.isProbability value)
    (configurationError (name ++ " must be finite and in [0,1]"))

/-- `detail::require_unit_interval`. -/
def requireUnitInterval (value : F) (name : String) : Except EngineError Unit :=
  require (decide (0 ≤ value) && decide (value ≤ 1))
    (configurationError (name ++ " must be in [0, 1]"))

structure DecisionConfig (F : Type) [Scalar F] where
  acceptedConfidenceThreshold : F := Scalar.ofRat (78 / 100)
  reviewConfidenceThreshold : F := Scalar.ofRat (55 / 100)
  strongConflictThreshold : F := Scalar.ofRat (70 / 100)
  minimumCropQuality : F := Scalar.ofRat (28 / 100)
  minimumGeometryScore : F := Scalar.ofRat (20 / 100)
  minimumEffectiveDetectorConfidence : F := Scalar.ofRat (50 / 100)
  allowAcceptWhenDegraded : Bool := false
  failClosed : Bool := true

/-- The checks `validate_engine_config` makes of the decision part. -/
def DecisionConfig.check (config : DecisionConfig F) : Except EngineError Unit := do
  requireUnitInterval config.acceptedConfidenceThreshold "decision.accepted_confidence_threshold"
  requireUnitInterval config.reviewConfidenceThreshold "decision.review_confidence_threshold"
  requireUnitInterval config.strongConflictThreshold "decision.strong_conflict_threshold"
  requireUnitInterval config.minimumCropQuality "decision.minimum_crop_quality"
  requireUnitInterval config.minimumGeometryScore "decision.minimum_geometry_score"
  requireUnitInterval config.minimumEffectiveDetectorConfidence
    "decision.minimum_effective_detector_confidence"
  require (!decide (config.acceptedConfidenceThreshold < config.reviewConfidenceThreshold))
    (configurationError
      "decision.review_confidence_threshold cannot exceed accepted threshold")
  require (!config.allowAcceptWhenDegraded)
    (configurationError
      "safe default policy does not allow acceptance while providers are degraded")
  require config.failClosed
    (configurationError "decision.fail_closed must remain enabled for the safe default policy")

end FacLpr

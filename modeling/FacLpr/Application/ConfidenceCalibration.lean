import FacLpr.Application.Error
import FacLpr.Foundations.OrdMap
import FacLpr.Foundations.Scalar
import FacLpr.Foundations.Text

/-!
# Application/ConfidenceCalibration — the calibrators
-/

namespace FacLpr

variable {F : Type} [Scalar F]

/-- `validate_common_input`. -/
def validateCommonInput (rawConfidence cropQuality : F) : Except EngineError Unit := do
  require (Scalar.isProbability rawConfidence)
    (providerError "raw confidence must be finite and within [0, 1]")
  require (Scalar.isProbability cropQuality)
    (providerError "crop quality must be finite and within [0, 1]")

/-- `IdentityConfidenceCalibrator::calibrate`. -/
def IdentityConfidenceCalibrator.calibrate (_source : Text) (rawConfidence cropQuality : F)
    (_cropType : Text) : Except EngineError F := do
  validateCommonInput rawConfidence cropQuality
  return rawConfidence

/-- The functions of `<cmath>` the logistic calibrator calls. -/
class LogisticArithmetic (F : Type) [Scalar F] where
  log : F → F
  exp : F → F

structure LogisticCalibrationSegment (F : Type) [Scalar F] where
  provider : Text
  cropType : Text := []
  slope : F := 1
  intercept : F := 0
  sampleCount : ℕ := 0

structure LogisticCalibrationConfig (F : Type) [Scalar F] where
  minimumSamples : ℕ := 100
  probabilityEpsilon : F := Scalar.ofRat (1 / 100000)

namespace LogisticConfidenceCalibrator

/-- `key`: the provider and the crop type around a unit separator. -/
def key (provider cropType : Text) : Text := provider ++ [0x1f] ++ cropType

/-- The body of the constructor's loop: a segment is checked and stored under its key. -/
def addSegment (segments : OrdMap Text (LogisticCalibrationSegment F))
    (segment : LogisticCalibrationSegment F) :
    Except EngineError (OrdMap Text (LogisticCalibrationSegment F)) := do
  require (!segment.provider.isEmpty)
    (configurationError "calibration provider cannot be empty")
  require (Scalar.isFinite segment.slope && !decide (segment.slope ≤ 0) &&
      Scalar.isFinite segment.intercept)
    (configurationError "calibration slope must be positive and parameters must be finite")
  require (segments.find? (key segment.provider segment.cropType)).isNone
    (configurationError "duplicate provider/crop calibration segment")
  return segments.upsert (key segment.provider segment.cropType) fun _ => segment

/-- The constructor: the segments by their keys. -/
def build (config : LogisticCalibrationConfig F) (segments : List (LogisticCalibrationSegment F)) :
    Except EngineError (OrdMap Text (LogisticCalibrationSegment F)) := do
  require (config.minimumSamples ≠ 0)
    (configurationError "calibration minimum_samples must be greater than zero")
  require (Scalar.isFinite config.probabilityEpsilon && !decide (config.probabilityEpsilon ≤ 0) &&
      !decide (Scalar.ofRat (1 / 2) ≤ config.probabilityEpsilon))
    (configurationError "calibration probability_epsilon must be finite and in (0, 0.5)")
  segments.foldlM addSegment OrdMap.empty

end LogisticConfidenceCalibrator

/-- A calibrator its constructor accepted. -/
structure LogisticConfidenceCalibrator (F : Type) [Scalar F] where
  config : LogisticCalibrationConfig F
  segments : OrdMap Text (LogisticCalibrationSegment F)
  built : ∃ given, LogisticConfidenceCalibrator.build config given = .ok segments

namespace LogisticConfidenceCalibrator

/-- `find_segment`: the segment of the crop type, or the provider's. -/
def findSegment (calibrator : LogisticConfidenceCalibrator F) (provider cropType : Text) :
    Option (LogisticCalibrationSegment F) :=
  match calibrator.segments.find? (key provider cropType) with
  | some exact => some exact
  | none => if cropType.isEmpty then none else calibrator.segments.find? (key provider [])

/-- `LogisticConfidenceCalibrator::calibrate`. -/
def calibrate [LogisticArithmetic F] (calibrator : LogisticConfidenceCalibrator F) (source : Text)
    (rawConfidence cropQuality : F) (cropType : Text) : Except EngineError F := do
  validateCommonInput rawConfidence cropQuality
  require (!source.isEmpty) (providerError "calibration source cannot be empty")
  match calibrator.findSegment source cropType with
  | none => return rawConfidence
  | some segment =>
      if segment.sampleCount < calibrator.config.minimumSamples then return rawConfidence
      else do
        let probability := Scalar.clamp rawConfidence calibrator.config.probabilityEpsilon
          (1 - calibrator.config.probabilityEpsilon)
        let logit := LogisticArithmetic.log (probability / (1 - probability))
        let calibratedLogit := segment.slope * logit + segment.intercept
        let calibrated := 1 / (1 + LogisticArithmetic.exp (0 - calibratedLogit))
        require (Scalar.isFinite calibrated)
          (providerError "calibration produced a non-finite confidence")
        return Scalar.clamp01 calibrated

end LogisticConfidenceCalibrator

end FacLpr

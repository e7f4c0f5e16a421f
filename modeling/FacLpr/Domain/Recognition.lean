import FacLpr.Foundations.Scalar
import FacLpr.Foundations.Text

/-!
# Domain/Recognition — the value types of a recognition

The types are generic in the scores (`float`, `F`) and the latencies (`double`, `D`).
-/

namespace FacLpr

/-- A point of an image. -/
structure Point2f (F : Type) where
  x : F
  y : F
  deriving DecidableEq

/-- An upright box: its left and upper edge, and its size. -/
structure BoundingBox (F : Type) where
  x : F
  y : F
  width : F
  height : F
  deriving DecidableEq

/-- `BoundingBox::is_valid`. -/
def BoundingBox.isValid {F : Type} [Scalar F] (b : BoundingBox F) : Bool :=
  Scalar.isFinite b.x && Scalar.isFinite b.y && Scalar.isFinite b.width &&
    Scalar.isFinite b.height && decide (0 < b.width) && decide (0 < b.height)

theorem BoundingBox.isValid_rat {b : BoundingBox ℚ} :
    b.isValid = true ↔ 0 < b.width ∧ 0 < b.height := by
  simp [isValid]

/-- `BoundingBox::area`. -/
def BoundingBox.area {F : Type} [Scalar F] (b : BoundingBox F) : F :=
  if 0 < b.width ∧ 0 < b.height then b.width * b.height else 0

/-- The four corners of a plate, with the confidence of each. -/
structure PlateQuadrilateral (F : Type) where
  points : Fin 4 → Point2f F
  confidences : Fin 4 → F
  deriving DecidableEq

/-- A plate found by a detector. -/
structure Detection (F : Type) where
  bbox : BoundingBox F
  quadrilateral : Option (PlateQuadrilateral F)
  confidence : F
  geometryScore : F
  provider : Text
  deriving DecidableEq

/-- What was decided about a plate. -/
inductive RecognitionStatus where
  | accepted
  | review
  | rejected
  deriving DecidableEq, Repr

/-- Why it was decided so. -/
inductive RecognitionDecisionReason where
  | acceptedConsensus
  | fatalProviderFailure
  | degradedProviderSet
  | detectorConfidenceBelowMinimum
  | geometryBelowMinimum
  | cropQualityBelowMinimum
  | noValidCandidate
  | candidateConfidenceBelowReview
  | candidateConfidenceBelowAccept
  | conflictingStrongCandidates
  deriving DecidableEq, Repr

/-- A text a plate may have. -/
structure PlateCandidate (F : Type) where
  text : Text
  confidence : F
  calibratedConfidence : F
  formatValid : Bool
  deriving DecidableEq

/-- What one recognizer read on one crop. -/
structure RecognitionEvidence (F D : Type) where
  source : Text
  candidates : List (PlateCandidate F)
  cropQuality : F
  latencyMs : D
  deriving DecidableEq

/-- What the pipeline says of one detection. -/
structure PlateRecognitionResult (F D : Type) where
  status : RecognitionStatus
  plate : Text
  confidence : F
  bbox : Option (BoundingBox F)
  quadrilateral : Option (PlateQuadrilateral F)
  detectorConfidence : F
  geometryScore : F
  cropQuality : F
  evidence : List (RecognitionEvidence F D)
  alternatives : List (PlateCandidate F)
  decisionReasons : List RecognitionDecisionReason
  degraded : Bool
  totalLatencyMs : D
  deriving DecidableEq

/-- A default-constructed `PlateRecognitionResult`. -/
def PlateRecognitionResult.default {F D : Type} [Zero F] [Zero D] : PlateRecognitionResult F D where
  status := .rejected
  plate := []
  confidence := 0
  bbox := none
  quadrilateral := none
  detectorConfidence := 0
  geometryScore := 0
  cropQuality := 0
  evidence := []
  alternatives := []
  decisionReasons := []
  degraded := false
  totalLatencyMs := 0

end FacLpr

import FacLpr.Application.Image
import FacLpr.Application.OperationContext
import FacLpr.Domain.Recognition

/-!
# Application/Providers — what the stages of the pipeline hand to each other
-/

namespace FacLpr

structure GeometryEvidence (F : Type) where
  valid : Bool
  score : F

structure LayoutEvidence (F : Type) where
  reliable : Bool
  characterCount : Option ℤ
  letterGroupSize : Option ℤ
  confidence : F
  deriving DecidableEq

/-- A default-constructed `LayoutEvidence`. -/
def LayoutEvidence.default {F : Type} [Zero F] : LayoutEvidence F := ⟨false, none, none, 0⟩

structure RecognitionDecisionContext where
  degraded : Bool
  fatalProviderFailure : Bool
  providerFailureCount : ℕ
  deriving DecidableEq

/-- A default-constructed `RecognitionDecisionContext`. -/
def RecognitionDecisionContext.default : RecognitionDecisionContext := ⟨false, false, 0⟩

/-- `IPlateDetector`. -/
structure PlateDetector (σ F : Type) where
  name : Text
  detect : ImageView → OperationContext → Run σ (List (Detection F))

/-- `ICropGenerator`. -/
structure CropGenerator (σ F : Type) where
  name : Text
  generate : ImageView → Detection F → Option ImageBuffer → OperationContext →
    Run σ (List (CropHypothesis F))

end FacLpr

import FacLpr.Application.Config
import FacLpr.Application.Providers
import FacLpr.Foundations.DisjointSet
import FacLpr.Foundations.OrdMap
import FacLpr.Foundations.StableSort

/-!
# Application/MultiDetectorFusion — several detectors on one image

The detections of one provider that repeat each other are reduced to the first in the order of
evidence; the ones left that overlap across providers are united, and each tree of the forest is a
group.  A group keeps the strongest detection of each provider.
-/

namespace FacLpr

structure DetectorRegistration (σ F : Type) where
  provider : PlateDetector σ F
  weight : F
  enabled : Bool

structure MultiDetectorFusionConfig (F : Type) [Scalar F] where
  sameModelIouThreshold : F := Scalar.ofRat (70 / 100)
  sameModelMinAreaOverlapThreshold : F := Scalar.ofRat (85 / 100)
  crossModelIouThreshold : F := Scalar.ofRat (45 / 100)
  crossModelMinAreaOverlapThreshold : F := Scalar.ofRat (70 / 100)
  maximumGroups : ℕ := 64

structure DetectionEvidence (F : Type) where
  detection : Detection F
  provider : Text
  providerWeight : F
  deriving DecidableEq

structure DetectionGroup (F : Type) where
  fused : Detection F
  evidence : List (DetectionEvidence F)
  deriving DecidableEq

namespace MultiDetectorFusion

variable {σ F : Type} [Scalar F]

/-- The checks of the constructor on one registration, given the names before it.  A provider is
never null here. -/
def checkRegistration (names : List Text) (registration : DetectorRegistration σ F) :
    Except EngineError (List Text) := do
  requireProbability registration.weight "detector weight"
  let name := registration.provider.name
  require (!name.isEmpty) (configurationError "detector provider name cannot be empty")
  require (!names.contains name) (configurationError "detector provider names must be unique")
  return names ++ [name]

/-- The checks of the constructor. -/
def check (detectors : List (DetectorRegistration σ F)) (config : MultiDetectorFusionConfig F) :
    Except EngineError Unit := do
  require (!detectors.isEmpty)
    (configurationError "multi-detector fusion requires at least one detector")
  requireProbability config.sameModelIouThreshold "same-model IoU threshold"
  requireProbability config.sameModelMinAreaOverlapThreshold
    "same-model min-area overlap threshold"
  requireProbability config.crossModelIouThreshold "cross-model IoU threshold"
  requireProbability config.crossModelMinAreaOverlapThreshold
    "cross-model min-area overlap threshold"
  require (config.maximumGroups != 0)
    (configurationError "maximum detector group count must be greater than zero")
  let _ ← detectors.foldlM checkRegistration []
  return

end MultiDetectorFusion

/-- A fusion its constructor accepted. -/
structure MultiDetectorFusion (σ F : Type) [Scalar F] where
  detectors : List (DetectorRegistration σ F)
  config : MultiDetectorFusionConfig F
  accepted : MultiDetectorFusion.check detectors config = .ok ()

namespace MultiDetectorFusion

variable {σ F : Type} [Scalar F]

/-! ## Two boxes -/

structure BoxOverlap (F : Type) where
  iou : F
  intersectionOverMinArea : F

def overlap (lhs rhs : BoundingBox F) : BoxOverlap F :=
  if !lhs.isValid || !rhs.isValid then ⟨0, 0⟩
  else
    let left := Scalar.max lhs.x rhs.x
    let top := Scalar.max lhs.y rhs.y
    let right := Scalar.min (lhs.x + lhs.width) (rhs.x + rhs.width)
    let bottom := Scalar.min (lhs.y + lhs.height) (rhs.y + rhs.height)
    let width := Scalar.max 0 (right - left)
    let height := Scalar.max 0 (bottom - top)
    let intersection := width * height
    let unionArea := lhs.area + rhs.area - intersection
    let minArea := Scalar.min lhs.area rhs.area
    { iou := if 0 < unionArea then intersection / unionArea else 0
      intersectionOverMinArea := if 0 < minArea then intersection / minArea else 0 }

def overlapsEnough (lhs rhs : BoundingBox F) (iouThreshold minAreaThreshold : F) : Bool :=
  let metrics := overlap lhs rhs
  decide (iouThreshold ≤ metrics.iou) ||
    decide (minAreaThreshold ≤ metrics.intersectionOverMinArea)

/-- The comparisons of two boxes that end `evidence_order` and `group_order`. -/
def boxOrder (lhs rhs : BoundingBox F) : Bool :=
  if lhs.x != rhs.x then decide (lhs.x < rhs.x)
  else if lhs.y != rhs.y then decide (lhs.y < rhs.y)
  else if lhs.width != rhs.width then decide (lhs.width < rhs.width)
  else decide (lhs.height < rhs.height)

def evidenceOrder (lhs rhs : DetectionEvidence F) : Bool :=
  if lhs.provider != rhs.provider then decide (lhs.provider < rhs.provider)
  else if lhs.detection.confidence != rhs.detection.confidence then
    decide (rhs.detection.confidence < lhs.detection.confidence)
  else boxOrder lhs.detection.bbox rhs.detection.bbox

def groupOrder (lhs rhs : DetectionGroup F) : Bool :=
  if lhs.fused.confidence != rhs.fused.confidence then
    decide (rhs.fused.confidence < lhs.fused.confidence)
  else boxOrder lhs.fused.bbox rhs.fused.bbox

/-! ## The detections of one provider -/

/-- `candidate` repeats a detection of its provider. -/
def duplicates (config : MultiDetectorFusionConfig F) (accepted candidate : DetectionEvidence F) :
    Bool :=
  accepted.provider == candidate.provider &&
    overlapsEnough accepted.detection.bbox candidate.detection.bbox config.sameModelIouThreshold
      config.sameModelMinAreaOverlapThreshold

def deduplicateSameModel (std : StdSort) (config : MultiDetectorFusionConfig F)
    (evidence : List (DetectionEvidence F)) : List (DetectionEvidence F) :=
  (std.sort evidenceOrder evidence).foldl (fun deduplicated candidate =>
    if deduplicated.any (duplicates config · candidate) then deduplicated
    else deduplicated ++ [candidate]) []

/-! ## Groups of overlapping detections -/

/-- The pairs of indices in the order of the two loops over them. -/
def indexPairs (n : ℕ) : List (Fin n × Fin n) :=
  (List.finRange n).flatMap fun lhs =>
    ((List.finRange n).filter (lhs < ·)).map fun rhs => (lhs, rhs)

/-- Two detections of different providers that the loop unites. -/
def linked (config : MultiDetectorFusionConfig F) (lhs rhs : DetectionEvidence F) : Bool :=
  lhs.provider != rhs.provider &&
    overlapsEnough lhs.detection.bbox rhs.detection.bbox config.crossModelIouThreshold
      config.crossModelMinAreaOverlapThreshold

/-- The loop over the pairs. -/
def uniteLinked (config : MultiDetectorFusionConfig F) {n : ℕ}
    (evidence : Fin n → DetectionEvidence F) : DisjointSet n :=
  (indexPairs n).foldl (fun groups (lhs, rhs) =>
    if linked config (evidence lhs) (evidence rhs) then groups.unite lhs rhs else groups)
    (DisjointSet.make n)

/-- The loop that fills `grouped`. -/
def grouped (config : MultiDetectorFusionConfig F) {n : ℕ}
    (evidence : Fin n → DetectionEvidence F) : OrdMap (Fin n) (List (DetectionEvidence F)) :=
  ((List.finRange n).foldl (fun (groups, grouped) index =>
    let found := groups.find index
    (found.set, grouped.upsert found.root fun stored => stored.getD [] ++ [evidence index]))
    (uniteLinked config evidence, OrdMap.empty)).2

/-! ## One group -/

/-- The score two detections of one provider are compared by. -/
def score (item : DetectionEvidence F) : F := item.detection.confidence * item.providerWeight

def strongestByProvider (evidence : List (DetectionEvidence F)) :
    OrdMap Text (DetectionEvidence F) :=
  evidence.foldl (fun strongest item => strongest.upsert item.provider fun
    | none => item
    | some stored => if score stored < score item then item else stored) OrdMap.empty

/-- The variables of the loop over the strongest detections.  `best` is the score and the detection
of the best contribution; it is empty while the score is minus infinity. -/
structure GroupSums (F : Type) where
  totalWeight : F
  weightedX : F
  weightedY : F
  weightedWidth : F
  weightedHeight : F
  weightedGeometry : F
  fusedConfidenceComplement : F
  best : Option (F × Detection F)
  evidence : List (DetectionEvidence F)

def GroupSums.initial : GroupSums F := ⟨0, 0, 0, 0, 0, 0, 1, none, []⟩

/-- One iteration of the loop over the strongest detections. -/
def GroupSums.add (sums : GroupSums F) (entry : Text × DetectionEvidence F) : GroupSums F :=
  let item := { entry.2 with detection := { entry.2.detection with provider := entry.1 } }
  let detection := item.detection
  let contribution := Scalar.clamp01 (score item)
  let boxWeight := Scalar.max contribution (Scalar.ofRat (1 / 1000000))
  { totalWeight := sums.totalWeight + boxWeight
    weightedX := sums.weightedX + detection.bbox.x * boxWeight
    weightedY := sums.weightedY + detection.bbox.y * boxWeight
    weightedWidth := sums.weightedWidth + detection.bbox.width * boxWeight
    weightedHeight := sums.weightedHeight + detection.bbox.height * boxWeight
    weightedGeometry := sums.weightedGeometry + detection.geometryScore * boxWeight
    fusedConfidenceComplement := sums.fusedConfidenceComplement * (1 - contribution)
    best := match sums.best with
      -- a clamped value is above minus infinity unless it is not a number
      | none => if Scalar.isFinite contribution then some (contribution, detection) else none
      | some (bestScore, bestDetection) =>
          if bestScore < contribution then some (contribution, detection)
          else some (bestScore, bestDetection)
    evidence := sums.evidence ++ [item] }

def emptyGroup : EngineError := internalError "multi-detector fusion produced an empty group"

def buildGroup (evidence : List (DetectionEvidence F)) : Except EngineError (DetectionGroup F) :=
  let sums := (strongestByProvider evidence).entries.foldl GroupSums.add GroupSums.initial
  match sums.best with
  | none => .error emptyGroup
  | some (_, bestDetection) =>
      if sums.totalWeight ≤ 0 then .error emptyGroup
      else .ok {
        fused := {
          bbox := {
            x := sums.weightedX / sums.totalWeight
            y := sums.weightedY / sums.totalWeight
            width := sums.weightedWidth / sums.totalWeight
            height := sums.weightedHeight / sums.totalWeight }
          quadrilateral := bestDetection.quadrilateral
          confidence := Scalar.clamp01 (1 - sums.fusedConfidenceComplement)
          geometryScore := Scalar.clamp01 (sums.weightedGeometry / sums.totalWeight)
          provider := ascii "multi_detector_fusion" }
        evidence := sums.evidence }

/-! ## The whole fusion -/

/-- What `detect_groups` makes of the evidence it collected. -/
def groupEvidence (std : StdSort) (config : MultiDetectorFusionConfig F)
    (evidence : List (DetectionEvidence F)) : Except EngineError (List (DetectionGroup F)) := do
  let evidence := deduplicateSameModel std config evidence
  if evidence.isEmpty then return []
  let evidence := std.sort evidenceOrder evidence
  let result ← (grouped config evidence.get).entries.mapM fun entry => buildGroup entry.2
  return (std.sort groupOrder result).take config.maximumGroups

/-- The detectors that run: enabled, with a positive weight. -/
def isActive (registration : DetectorRegistration σ F) : Bool :=
  !(!registration.enabled || decide (registration.weight ≤ 0))

/-- The error of a detection that is no evidence. -/
def invalidEvidence (name : Text) : EngineError :=
  providerError ("detector returned invalid evidence: " ++
    String.ofList (name.map fun byte => Char.ofNat byte.toNat))

/-- One iteration of the loop over the detections of a provider. -/
def evidenceStep (registration : DetectorRegistration σ F)
    (evidence : List (DetectionEvidence F)) (detection : Detection F) :
    Except EngineError (List (DetectionEvidence F)) := do
  require (detection.bbox.isValid && Scalar.isProbability detection.confidence)
    (invalidEvidence registration.provider.name)
  return evidence ++ [⟨detection, registration.provider.name, registration.weight⟩]

/-- One iteration of the loop over the detectors. -/
def detectorStep (image : ImageView) (context : OperationContext)
    (evidence : List (DetectionEvidence F)) (registration : DetectorRegistration σ F) :
    Run σ (List (DetectionEvidence F)) :=
  if !isActive registration then pure evidence
  else do
    let detections ← registration.provider.detect image context
    Run.ofExcept (detections.foldlM (evidenceStep registration) evidence)

/-- The loop over the detectors. -/
def collectEvidence (fusion : MultiDetectorFusion σ F) (image : ImageView)
    (context : OperationContext) : Run σ (List (DetectionEvidence F)) :=
  fusion.detectors.foldlM (detectorStep image context) []

/-- `MultiDetectorFusion::detect_groups`. -/
def detectGroups (std : StdSort) (fusion : MultiDetectorFusion σ F) (image : ImageView)
    (context : OperationContext) : Run σ (List (DetectionGroup F)) := do
  let evidence ← fusion.collectEvidence image context
  Run.ofExcept (groupEvidence std fusion.config evidence)

/-- `MultiDetectorFusion::detect`. -/
def detect (std : StdSort) (fusion : MultiDetectorFusion σ F) (image : ImageView)
    (context : OperationContext) : Run σ (List (Detection F)) := do
  let groups ← fusion.detectGroups std image context
  return groups.map DetectionGroup.fused

/-! ## Detectors with a fixed answer -/

def fixedDetector (name : String) (detections : List (Detection ℚ)) : PlateDetector Frozen ℚ :=
  ⟨ascii name, fun _ _ => pure detections⟩

def boxDetection (x y width height confidence : ℚ) : Detection ℚ :=
  ⟨⟨x, y, width, height⟩, none, confidence, 8 / 10, []⟩

def tinyImage : ImageView := ⟨[0, 0, 0], 1, 1, 3, .bgr8⟩

end MultiDetectorFusion

end FacLpr

import FacLpr.Foundations.GreedySuppression
import FacLpr.Foundations.Run
import FacLpr.Foundations.SizeArithmetic
import FacLpr.Foundations.StableSort
import FacLpr.Infrastructure.BoxIntersection
import FacLpr.Infrastructure.Yolo.YoloPosePreprocessor

/-!
# Infrastructure/Yolo/YoloPoseOutputParser — from the output tensor of the detector to detections

A tensor is a matrix of features and candidates, in one of two layouts.  Every candidate is decoded
into a detection of the source image or dropped; the ones left are sorted by confidence, and those
that overlap a better one are suppressed.

Sizes and indices wrap.  `OutputMatrix.at` logs the elements it reads.
-/

namespace FacLpr

inductive CandidateLayout where
  | featuresFirst
  | candidatesFirst
  deriving DecidableEq

structure YoloPoseOutputSpec (F : Type) [Scalar F] where
  layout : CandidateLayout := .featuresFirst
  boxOffset : UInt64 := 0
  objectnessOffset : Option UInt64 := none
  classScoreOffset : UInt64 := 4
  classCount : UInt64 := 1
  keypointOffset : UInt64 := 5
  keypointCount : UInt64 := 4
  keypointStride : UInt64 := 3
  keypointXOffset : UInt64 := 0
  keypointYOffset : UInt64 := 1
  keypointConfidenceOffset : Option UInt64 := some 2
  confidenceThreshold : F := Scalar.ofRat (50 / 100)
  nmsIouThreshold : F := Scalar.ofRat (45 / 100)
  maximumDetections : UInt64 := 32
  providerName : Text := ascii "yolo_pose"

/-- `std::span<const float>`: as many elements as a size can count. -/
structure ElementSpan (F : Type) where
  elements : List F
  fits : elements.length ≤ sizeMax

namespace ElementSpan

variable {F : Type}

def size (span : ElementSpan F) : UInt64 := UInt64.ofNat span.elements.length

@[simp] theorem toNat_size (span : ElementSpan F) : span.size.toNat = span.elements.length := by
  rw [size, UInt64.toNat_ofNat', mod_of_le_sizeMax span.fits]

end ElementSpan

/-- An element that was read: what of which candidate, and where in the tensor. -/
structure ElementRead where
  feature : UInt64
  candidate : UInt64
  index : UInt64

/-! ## The matrix -/

structure OutputMatrix (F : Type) where
  features : UInt64
  candidates : UInt64
  layout : CandidateLayout
  data : ElementSpan F

def indexOutsideTensor : EngineError :=
  inferenceError "YOLO output index is outside tensor bounds"

namespace OutputMatrix

variable {F : Type} [Zero F]

/-- The linear index of an element. -/
def index (matrix : OutputMatrix F) (feature candidate : UInt64) : UInt64 :=
  match matrix.layout with
  | .featuresFirst => feature * matrix.candidates + candidate
  | .candidatesFirst => candidate * matrix.features + feature

/-- `OutputMatrix::at`. -/
def «at» (matrix : OutputMatrix F) (feature candidate : UInt64) :
    Program EngineError (List ElementRead) F :=
  if matrix.features ≤ feature ∨ matrix.candidates ≤ candidate then throw indexOutsideTensor
  else do
    let index := matrix.index feature candidate
    modify (· ++ [⟨feature, candidate, index⟩])
    -- what is outside the data has no value of its own
    return matrix.data.elements[index.toNat]?.getD 0

end OutputMatrix

namespace YoloPoseOutputParser

variable {F : Type} [Scalar F]

def checkedAdd (left right : UInt64) (field : String) : Except EngineError UInt64 := do
  require (!addOverflows left right) (configurationError (field ++ " overflows size_t"))
  return left + right

def checkedMultiply (left right : UInt64) (field : String) : Except EngineError UInt64 := do
  require (!mulOverflows left right) (configurationError (field ++ " overflows size_t"))
  return left * right

def checkedDimension (value : Int64) (field : String) : Except EngineError UInt64 := do
  require (!decide (value ≤ 0))
    (inferenceError ("YOLO output " ++ field ++ " must be a positive static dimension"))
  require (!decide (maxSize < value.toUInt64))
    (inferenceError ("YOLO output " ++ field ++ " exceeds size_t"))
  return value.toUInt64

/-- The two dimensions of a shape. -/
def checkedDimensions (shape : List Int64) : Except EngineError (UInt64 × UInt64) :=
  match shape with
  | [batch, first, second] => do
      require (batch = 1) (inferenceError "YOLO output batch dimension must be 1")
      let first ← checkedDimension first "dimension 1"
      let second ← checkedDimension second "dimension 2"
      return (first, second)
  | [first, second] => do
      let first ← checkedDimension first "dimension 0"
      let second ← checkedDimension second "dimension 1"
      return (first, second)
  | _ => .error (inferenceError "YOLO output must be a rank-2 or rank-3 tensor")

/-- `resolve_matrix`. -/
def resolveMatrix (output : ElementSpan F) (shape : List Int64) (layout : CandidateLayout) :
    Except EngineError (OutputMatrix F) := do
  let dimensions ← checkedDimensions shape
  let first := dimensions.1
  let second := dimensions.2
  require (!(decide (maxSize / second < first) || first * second != output.size))
    (inferenceError "YOLO output shape does not match tensor element count")
  return match layout with
    | .featuresFirst => ⟨first, second, layout, output⟩
    | .candidatesFirst => ⟨second, first, layout, output⟩

/-! ## The specification -/

/-- `required_features`. -/
def requiredFeatures (spec : YoloPoseOutputSpec F) : Except EngineError UInt64 := do
  let box ← checkedAdd spec.boxOffset 4 "YOLO box feature extent"
  let classes ← checkedAdd spec.classScoreOffset spec.classCount "YOLO class feature extent"
  let keypointSpan ←
    checkedMultiply spec.keypointCount spec.keypointStride "YOLO keypoint feature span"
  let keypoints ← checkedAdd spec.keypointOffset keypointSpan "YOLO keypoint feature extent"
  let required := max (max box classes) keypoints
  match spec.objectnessOffset with
  | none => return required
  | some offset =>
      let objectness ← checkedAdd offset 1 "YOLO objectness feature extent"
      return max required objectness

/-- `validate_spec`. -/
def validateSpec (spec : YoloPoseOutputSpec F) : Except EngineError Unit := do
  require (spec.classCount != 0)
    (configurationError "YOLO pose output class_count must be positive")
  require (spec.keypointCount = 4)
    (configurationError "plate YOLO pose parser requires exactly four keypoints")
  require (!(decide (spec.keypointStride < 2) ||
      decide (spec.keypointStride ≤ spec.keypointXOffset) ||
      decide (spec.keypointStride ≤ spec.keypointYOffset)))
    (configurationError "YOLO keypoint stride/coordinate offsets are invalid")
  require (!spec.keypointConfidenceOffset.any fun offset => decide (spec.keypointStride ≤ offset))
    (configurationError "YOLO keypoint confidence offset exceeds keypoint stride")
  require (Scalar.isProbability spec.confidenceThreshold &&
      Scalar.isProbability spec.nmsIouThreshold)
    (configurationError "YOLO confidence/NMS thresholds must be finite probabilities")
  require (!(spec.maximumDetections == 0 || decide (4096 < spec.maximumDetections)))
    (configurationError "YOLO maximum_detections must be in [1, 4096]")
  require (!spec.providerName.isEmpty) (configurationError "YOLO provider_name cannot be empty")
  let _ ← requiredFeatures spec
  return

end YoloPoseOutputParser

/-- A parser its constructor accepted. -/
structure YoloPoseOutputParser (F : Type) [Scalar F] where
  spec : YoloPoseOutputSpec F
  accepted : YoloPoseOutputParser.validateSpec spec = .ok ()

namespace YoloPoseOutputParser

variable {F : Type} [Scalar F]

/-! ## One candidate -/

/-- `finite_probability`. -/
def finiteProbability (value : F) : F := if Scalar.isFinite value then Scalar.clamp01 value else 0

/-- A coordinate of the input, in the source: without the border, and clamped to the image. -/
def sourceCoordinate (value : F) (pad extent : ℕ) (scale : F) : F :=
  Scalar.clamp ((value - Scalar.ofRat pad) / scale) 0 (Scalar.ofRat extent)

/-- `source_x`. -/
def sourceX (x : F) (metadata : LetterboxMetadata F) : F :=
  sourceCoordinate x metadata.padLeft metadata.sourceWidth metadata.scale

/-- `source_y`. -/
def sourceY (y : F) (metadata : LetterboxMetadata F) : F :=
  sourceCoordinate y metadata.padTop metadata.sourceHeight metadata.scale

/-- The box of a candidate, unless it has none in the source. -/
def sourceBox (letterbox : LetterboxMetadata F) (cx cy width height : F) :
    Option (BoundingBox F) :=
  if !Scalar.isFinite cx || !Scalar.isFinite cy || !Scalar.isFinite width ||
      !Scalar.isFinite height || decide (width ≤ 0) || decide (height ≤ 0) then none
  else
    let half : F := Scalar.ofRat (1 / 2)
    let x1 := sourceX (cx - width * half) letterbox
    let y1 := sourceY (cy - height * half) letterbox
    let x2 := sourceX (cx + width * half) letterbox
    let y2 := sourceY (cy + height * half) letterbox
    if x2 ≤ x1 ∨ y2 ≤ y1 then none else some ⟨x1, y1, x2 - x1, y2 - y1⟩

/-- `quadrilateral.points[point] = p` and `quadrilateral.confidences[point] = confidence`. -/
def storePoint (quadrilateral : PlateQuadrilateral F) (point : ℕ) (p : Point2f F)
    (confidence : F) : PlateQuadrilateral F where
  points i := if i.val = point then p else quadrilateral.points i
  confidences i := if i.val = point then confidence else quadrilateral.confidences i

/-- A candidate that was decoded, and where it comes from. -/
structure RankedDetection (F : Type) where
  detection : Detection F
  sourceIndex : ℕ

section Decoding

variable (spec : YoloPoseOutputSpec F) (letterbox : LetterboxMetadata F) (matrix : OutputMatrix F)
  (candidate : UInt64)

/-- The loop over the class scores. -/
def classConfidence : Program EngineError (List ElementRead) F :=
  (List.range spec.classCount.toNat).foldlM (fun confidence classIndex => do
    let score ← matrix.at (spec.classScoreOffset + UInt64.ofNat classIndex) candidate
    return Scalar.max confidence (finiteProbability score)) 0

def objectness : Program EngineError (List ElementRead) F :=
  match spec.objectnessOffset with
  | none => return 1
  | some offset => finiteProbability <$> matrix.at offset candidate

/-- The confidence of a keypoint at `base`, or of its candidate. -/
def keypointConfidence (confidence : F) (base : UInt64) : Program EngineError (List ElementRead) F :=
  match spec.keypointConfidenceOffset with
  | none => return confidence
  | some offset => finiteProbability <$> matrix.at (base + offset) candidate

/-- One iteration of the loop over the keypoints, which holds nothing once it has stopped. -/
def keypointStep (confidence : F) :
    Option (PlateQuadrilateral F) → ℕ →
      Program EngineError (List ElementRead) (Option (PlateQuadrilateral F))
  | none, _ => return none
  | some quadrilateral, point => do
      let base := spec.keypointOffset + UInt64.ofNat point * spec.keypointStride
      let modelX ← matrix.at (base + spec.keypointXOffset) candidate
      let modelY ← matrix.at (base + spec.keypointYOffset) candidate
      if !Scalar.isFinite modelX || !Scalar.isFinite modelY then return none
      else
        let pointConfidence ← keypointConfidence spec matrix candidate confidence base
        return some (storePoint quadrilateral point
          ⟨sourceX modelX letterbox, sourceY modelY letterbox⟩ pointConfidence)

/-- The loop over the keypoints. -/
def keypoints (confidence : F) :
    Program EngineError (List ElementRead) (Option (PlateQuadrilateral F)) :=
  (List.range spec.keypointCount.toNat).foldlM
    (keypointStep spec letterbox matrix candidate confidence)
    (some ⟨fun _ => ⟨0, 0⟩, fun _ => 0⟩)

/-- One iteration of the loop over the candidates: the detection it adds, if any. -/
def decodeCandidate : Program EngineError (List ElementRead) (Option (Detection F)) := do
  let classConfidence ← classConfidence spec matrix candidate
  let objectness ← objectness spec matrix candidate
  let confidence := classConfidence * objectness
  if confidence < spec.confidenceThreshold then return none
  else
    let cx ← matrix.at spec.boxOffset candidate
    let cy ← matrix.at (spec.boxOffset + 1) candidate
    let width ← matrix.at (spec.boxOffset + 2) candidate
    let height ← matrix.at (spec.boxOffset + 3) candidate
    match sourceBox letterbox cx cy width height with
    | none => return none
    | some bbox =>
        let quadrilateral ← keypoints spec letterbox matrix candidate confidence
        return some {
          bbox
          quadrilateral
          confidence
          geometryScore := 0
          provider := spec.providerName }

end Decoding

/-- The loop over the candidates. -/
def decodeCandidates (spec : YoloPoseOutputSpec F) (letterbox : LetterboxMetadata F)
    (matrix : OutputMatrix F) : Program EngineError (List ElementRead) (List (RankedDetection F)) :=
  (List.range matrix.candidates.toNat).foldlM (fun candidates candidate => do
    let decoded ← decodeCandidate spec letterbox matrix (UInt64.ofNat candidate)
    return candidates ++ (decoded.map fun detection => ⟨detection, candidate⟩).toList) []

/-! ## The candidates that are left -/

/-- `intersection_over_union`. -/
def intersectionOverUnion (left right : BoundingBox F) : F :=
  if !left.isValid || !right.isValid then 0
  else if !left.hasFiniteEdges || !right.hasFiniteEdges then 0
  else
    let unionArea := left.unionArea right
    if decide (unionArea ≤ 0) || !Scalar.isFinite unionArea then 0
    else Scalar.clamp01 (left.intersectionArea right / unionArea)

/-- The comparator of the sort. -/
def rankedBefore (left right : RankedDetection F) : Bool :=
  if left.detection.confidence != right.detection.confidence then
    decide (right.detection.confidence < left.detection.confidence)
  else decide (left.sourceIndex < right.sourceIndex)

/-- `candidate` overlaps a detection that was kept. -/
def overlapping (spec : YoloPoseOutputSpec F) (candidate accepted : RankedDetection F) : Bool :=
  decide (spec.nmsIouThreshold <
    intersectionOverUnion candidate.detection.bbox accepted.detection.bbox)

/-- The candidates that are returned. -/
def selectCandidates (spec : YoloPoseOutputSpec F) (candidates : List (RankedDetection F)) :
    List (RankedDetection F) :=
  suppress (overlapping spec) spec.maximumDetections.toNat (stableSort rankedBefore candidates)

/-- The check of the letterbox. -/
def isValidLetterbox (letterbox : LetterboxMetadata F) : Bool :=
  !(!Scalar.isFinite letterbox.scale || decide (letterbox.scale ≤ 0) ||
    letterbox.sourceWidth == 0 || letterbox.sourceHeight == 0)

/-- `YoloPoseOutputParser::parse`. -/
def parse (parser : YoloPoseOutputParser F) (output : ElementSpan F) (shape : List Int64)
    (letterbox : LetterboxMetadata F) :
    Program EngineError (List ElementRead) (List (Detection F)) :=
  if output.elements.isEmpty then return []
  else do
    Program.ofExcept <| require (isValidLetterbox letterbox)
      (inferenceError "YOLO letterbox metadata is invalid")
    let matrix ← Program.ofExcept (resolveMatrix output shape parser.spec.layout)
    let required ← Program.ofExcept (requiredFeatures parser.spec)
    Program.ofExcept <| require (!decide (matrix.features < required))
      (inferenceError "YOLO output has fewer feature columns than configured parser contract")
    let candidates ← decodeCandidates parser.spec letterbox matrix
    return (selectCandidates parser.spec candidates).map RankedDetection.detection

end YoloPoseOutputParser

end FacLpr

import FacLpr.Application.Error
import FacLpr.Domain.Recognition
import FacLpr.Foundations.Quadrilaterals
import FacLpr.Foundations.RealScalar
import FacLpr.Foundations.StableSort

/-!
# Infrastructure/Geometry/PlateGeometryValidator — the score of a quadrilateral

The corners are ordered by their angles around the mean, from the one nearest the origin on; the
polygon must be convex, near the box and of the size and shape the configuration allows.
-/

namespace FacLpr

/-- `Point2f::is_finite`. -/
def Point2f.isFinite {F : Type} [Scalar F] (p : Point2f F) : Bool :=
  Scalar.isFinite p.x && Scalar.isFinite p.y

structure GeometryConfig (F : Type) [Scalar F] where
  minimumKeypointConfidence : F := Scalar.ofRat (50 / 100)
  minimumBoxAspectRatio : F := Scalar.ofRat (65 / 100)
  maximumBoxAspectRatio : F := Scalar.ofRat 12
  preferredBoxAspectMin : F := Scalar.ofRat (18 / 10)
  preferredBoxAspectMax : F := Scalar.ofRat (65 / 10)
  minimumCropAspectRatio : F := Scalar.ofRat (8 / 10)
  maximumCropAspectRatio : F := Scalar.ofRat 12
  preferredCropAspectMin : F := Scalar.ofRat (16 / 10)
  preferredCropAspectMax : F := Scalar.ofRat (75 / 10)
  minimumPolygonBoxAreaRatio : F := Scalar.ofRat (20 / 100)
  maximumPolygonBoxAreaRatio : F := Scalar.ofRat (180 / 100)
  minimumHorizontalEdgePixels : F := Scalar.ofRat 6
  minimumVerticalEdgePixels : F := Scalar.ofRat 4
  maximumPointDistanceFromBoxRatio : F := Scalar.ofRat (50 / 100)

structure GeometryEvaluation (F : Type) where
  valid : Bool
  score : F
  boxRatioScore : F
  cropRatioScore : F
  pixelScore : F
  keypointScore : F
  deformationScore : F
  polygonFillScore : F
  polygonBoxAreaRatio : F
  cropAspectRatio : F
  reason : Text
  orderedCorners : Fin 4 → Point2f F

namespace PlateGeometryValidator

variable {F D : Type} [Scalar F] [Scalar D]

attribute [local instance] neZero_four

def epsilon : F := Scalar.ofRat (1 / 10000)

/-- The cross product of `a b` and `a c`. -/
def cross (a b c : Point2f F) : F := (b.x - a.x) * (c.y - a.y) - (b.y - a.y) * (c.x - a.x)

/-- A range of a ratio, with the part of it that is preferred. -/
def rangeConsistent (minimum preferredMin preferredMax maximum : F) : Bool :=
  decide (0 < minimum) && decide (minimum ≤ preferredMin) &&
    decide (preferredMin ≤ preferredMax) && decide (preferredMax ≤ maximum)

/-- `validate_config`. -/
def validateConfig (config : GeometryConfig F) : Except EngineError Unit := do
  require ([config.minimumKeypointConfidence, config.minimumBoxAspectRatio,
      config.maximumBoxAspectRatio, config.preferredBoxAspectMin, config.preferredBoxAspectMax,
      config.minimumCropAspectRatio, config.maximumCropAspectRatio, config.preferredCropAspectMin,
      config.preferredCropAspectMax, config.minimumPolygonBoxAreaRatio,
      config.maximumPolygonBoxAreaRatio, config.minimumHorizontalEdgePixels,
      config.minimumVerticalEdgePixels].all Scalar.isFinite &&
        Scalar.isFinite config.maximumPointDistanceFromBoxRatio)
    (configurationError "geometry configuration must contain finite values")
  require (!decide (config.minimumKeypointConfidence < 0) &&
      !decide (1 < config.minimumKeypointConfidence))
    (configurationError "minimum_keypoint_confidence must be in [0,1]")
  require (rangeConsistent config.minimumBoxAspectRatio config.preferredBoxAspectMin
      config.preferredBoxAspectMax config.maximumBoxAspectRatio)
    (configurationError "box aspect-ratio ranges are inconsistent")
  require (rangeConsistent config.minimumCropAspectRatio config.preferredCropAspectMin
      config.preferredCropAspectMax config.maximumCropAspectRatio)
    (configurationError "crop aspect-ratio ranges are inconsistent")
  require (decide (0 < config.minimumPolygonBoxAreaRatio) &&
      decide (config.minimumPolygonBoxAreaRatio ≤ 1) &&
        decide (1 ≤ config.maximumPolygonBoxAreaRatio))
    (configurationError "polygon/bbox area-ratio range must contain 1.0")
  require (!(decide (config.minimumHorizontalEdgePixels ≤ 0) ||
      decide (config.minimumVerticalEdgePixels ≤ 0) ||
        decide (config.maximumPointDistanceFromBoxRatio < 0)))
    (configurationError "geometry pixel/distance limits are invalid")

/-- A validator its constructor accepted. -/
structure Config (F : Type) [Scalar F] where
  config : GeometryConfig F
  accepted : validateConfig config = .ok ()

/-! ## The order of the corners -/

section Order

variable [GeometryArithmetic F D]

variable (D) in
/-- The mean of the coordinates, as `std::accumulate` sums them. -/
def centerOf (coordinate : Point2f F → F) (points : Fin 4 → Point2f F) : D :=
  (List.ofFn points).foldl
      (fun value point => value + GeometryArithmetic.widen (coordinate point)) 0 /
    Scalar.ofRat 4

/-- The angle of a point around the center. -/
def angleAround (centerX centerY : D) (point : Point2f F) : D :=
  GeometryArithmetic.atan2 F (GeometryArithmetic.widen point.y - centerY)
    (GeometryArithmetic.widen point.x - centerX)

/-- The comparator of the sort. -/
def angleBefore (centerX centerY : D) (left right : Point2f F) : Bool :=
  let leftAngle := angleAround centerX centerY left
  let rightAngle := angleAround centerX centerY right
  if leftAngle != rightAngle then decide (leftAngle < rightAngle)
  else if left.y != right.y then decide (left.y < right.y)
  else decide (left.x < right.x)

/-- The comparator of the first corner. -/
def topLeftBefore (left right : Point2f F) : Bool :=
  let leftSum := left.x + left.y
  let rightSum := right.x + right.y
  if leftSum != rightSum then decide (leftSum < rightSum) else decide (left.y < right.y)

variable (D) in
/-- The corners by their angles, from the first one on. -/
def orderedCorners (points : Fin 4 → Point2f F) : Fin 4 → Point2f F :=
  let ordered := stableSort
    (angleBefore (centerOf D Point2f.x points) (centerOf D Point2f.y points)) (List.ofFn points)
  let topLeft := minElement topLeftBefore ordered
  fun index => ordered.getD ((topLeft + index) % 4) ⟨0, 0⟩

variable (D) in
/-- `order_plate_corners`. -/
def orderPlateCorners (points : Fin 4 → Point2f F) : Except EngineError (Fin 4 → Point2f F) := do
  require (decide (∀ i, (points i).isFinite = true))
    (invalidImageError "plate corner contains non-finite coordinate")
  return orderedCorners D points

end Order

/-! ## The checks -/

section Checks

variable (D) [GeometryArithmetic F D]

def distance (left right : Point2f F) : F :=
  GeometryArithmetic.hypot D (right.x - left.x) (right.y - left.y)

def polygonArea (points : Fin 4 → Point2f F) : F :=
  let sum : D := (List.finRange 4).foldl
    (fun sum index =>
      let current := points index
      let next := points (index + 1)
      sum + (GeometryArithmetic.widen current.x * GeometryArithmetic.widen next.y -
        GeometryArithmetic.widen current.y * GeometryArithmetic.widen next.x)) 0
  GeometryArithmetic.narrow (GeometryArithmetic.absoluteWide F sum * Scalar.ofRat (1 / 2))

def pointsAreUnique (points : Fin 4 → Point2f F) : Bool :=
  decide (∀ left right : Fin 4, left < right → ¬ distance D (points left) (points right) ≤ epsilon)

/-- The body of the loop over the corners: the sign so far, or `none` once the polygon fails. -/
def convexStep (epsilon : F) (points : Fin 4 → Point2f F) (sign : F) (index : Fin 4) : Option F :=
  let value := cross (points index) (points (index + 1)) (points (index + 2))
  if !Scalar.isFinite value ∨ GeometryArithmetic.absolute D value ≤ epsilon then none
  else if sign == 0 then some value
  else if decide (0 < sign) != decide (0 < value) then none
  else some sign

/-- `polygon_is_convex`, with the bound below which a cross product counts as none. -/
def polygonIsConvexWithin (epsilon : F) (points : Fin 4 → Point2f F) : Bool :=
  ((List.finRange 4).foldlM (convexStep D epsilon points) 0).isSome

/-- `polygon_is_convex`. -/
def polygonIsConvex (points : Fin 4 → Point2f F) : Bool := polygonIsConvexWithin D epsilon points

/-- `range_score`. -/
def rangeScore (value hardMin preferredMin preferredMax hardMax : F) : F :=
  if !Scalar.isFinite value ∨ value < hardMin ∨ hardMax < value then 0
  else if preferredMin ≤ value ∧ value ≤ preferredMax then 1
  else if value < preferredMin then
    let denominator := preferredMin - hardMin
    if denominator ≤ epsilon then 1 else Scalar.clamp01 ((value - hardMin) / denominator)
  else
    let denominator := hardMax - preferredMax
    if denominator ≤ epsilon then 1 else Scalar.clamp01 ((hardMax - value) / denominator)

/-- `fill_score`. -/
def fillScore (ratio minimum maximum : F) : F :=
  if !Scalar.isFinite ratio ∨ ratio < minimum ∨ maximum < ratio then 0
  else if ratio ≤ 1 then
    let denominator := 1 - minimum
    if denominator ≤ epsilon then 1 else Scalar.clamp01 ((ratio - minimum) / denominator)
  else
    let denominator := maximum - 1
    if denominator ≤ epsilon then 1 else Scalar.clamp01 ((maximum - ratio) / denominator)

def pointNearBox (point : Point2f F) (box : BoundingBox F) (maximumRatio : F) : Bool :=
  let x2 := box.x + box.width
  let y2 := box.y + box.height
  if !Scalar.isFinite x2 || !Scalar.isFinite y2 then false
  else
    let dx := if point.x < box.x then box.x - point.x else if x2 < point.x then point.x - x2 else 0
    let dy := if point.y < box.y then box.y - point.y else if y2 < point.y then point.y - y2 else 0
    let reference := Scalar.max box.width box.height
    Scalar.isFinite reference && decide (epsilon < reference) &&
      decide (GeometryArithmetic.hypot D dx dy / reference ≤ maximumRatio)

end Checks

/-! ## The evaluation -/

/-- `invalid_evaluation`. -/
def invalidEvaluation (reason : String) (ordered : Fin 4 → Point2f F) : GeometryEvaluation F where
  valid := false
  score := 0
  boxRatioScore := 0
  cropRatioScore := 0
  pixelScore := 0
  keypointScore := 0
  deformationScore := 0
  polygonFillScore := 0
  polygonBoxAreaRatio := 0
  cropAspectRatio := 0
  reason := ascii reason
  orderedCorners := ordered

/-- The loop over the confidences: their sum, or `none` at one out of range. -/
def keypointSum (config : GeometryConfig F) (confidences : Fin 4 → F) : Option F :=
  (List.ofFn confidences).foldlM (fun sum confidence =>
    if !Scalar.isFinite confidence ∨ confidence < config.minimumKeypointConfidence ∨
      1 < confidence then none
    else some (sum + confidence)) 0

section Evaluate

variable (D) [GeometryArithmetic F D]

/-- The scores of an ordered polygon, past the checks of its corners. -/
def evaluateEdges (config : GeometryConfig F) (box : BoundingBox F) (boxRatioScore keypointScore : F)
    (ordered : Fin 4 → Point2f F) : GeometryEvaluation F :=
  let top := distance D (ordered 0) (ordered 1)
  let right := distance D (ordered 1) (ordered 2)
  let bottom := distance D (ordered 2) (ordered 3)
  let left := distance D (ordered 3) (ordered 0)
  let half : F := Scalar.ofRat (1 / 2)
  if !Scalar.isFinite top ∨ !Scalar.isFinite right ∨ !Scalar.isFinite bottom ∨
      !Scalar.isFinite left then invalidEvaluation "non_finite_edge" ordered
  else if top < config.minimumHorizontalEdgePixels ∨ bottom < config.minimumHorizontalEdgePixels ∨
      left < config.minimumVerticalEdgePixels ∨ right < config.minimumVerticalEdgePixels then
    invalidEvaluation "edge_too_short" ordered
  else
    let averageWidth := (top + bottom) * half
    let averageHeight := (left + right) * half
    if averageHeight ≤ epsilon then invalidEvaluation "degenerate_crop_height" ordered
    else
      let cropRatio := averageWidth / averageHeight
      let cropRatioScore := rangeScore cropRatio config.minimumCropAspectRatio
        config.preferredCropAspectMin config.preferredCropAspectMax config.maximumCropAspectRatio
      if cropRatioScore ≤ 0 then invalidEvaluation "crop_aspect_ratio_out_of_range" ordered
      else
        let area := polygonArea D ordered
        let boxArea := box.area
        if !Scalar.isFinite area ∨ !Scalar.isFinite boxArea ∨ area ≤ epsilon ∨ boxArea ≤ epsilon then
          invalidEvaluation "degenerate_polygon_area" ordered
        else
          let areaRatio := area / boxArea
          if areaRatio < config.minimumPolygonBoxAreaRatio ∨
              config.maximumPolygonBoxAreaRatio < areaRatio then
            invalidEvaluation "polygon_bbox_area_ratio_out_of_range" ordered
          else
            let horizontalScore := Scalar.min top bottom / Scalar.max top bottom
            let verticalScore := Scalar.min left right / Scalar.max left right
            let deformationScore := Scalar.clamp01 ((horizontalScore + verticalScore) * half)
            let pixelScore := Scalar.clamp01
              (Scalar.min (Scalar.min top bottom / config.minimumHorizontalEdgePixels)
                (Scalar.min left right / config.minimumVerticalEdgePixels))
            let polygonFillScore := fillScore areaRatio config.minimumPolygonBoxAreaRatio
              config.maximumPolygonBoxAreaRatio
            { valid := true
              score := Scalar.clamp01 (Scalar.ofRat (15 / 100) * boxRatioScore +
                Scalar.ofRat (20 / 100) * cropRatioScore + Scalar.ofRat (15 / 100) * pixelScore +
                Scalar.ofRat (20 / 100) * keypointScore +
                Scalar.ofRat (15 / 100) * deformationScore +
                Scalar.ofRat (15 / 100) * polygonFillScore)
              boxRatioScore
              cropRatioScore
              pixelScore
              keypointScore
              deformationScore
              polygonFillScore
              polygonBoxAreaRatio := areaRatio
              cropAspectRatio := cropRatio
              reason := ascii "ok"
              orderedCorners := ordered }

/-- The evaluation of the ordered corners. -/
def evaluateOrdered (config : GeometryConfig F) (box : BoundingBox F) (boxRatioScore : F)
    (confidences : Fin 4 → F) (ordered : Fin 4 → Point2f F) : GeometryEvaluation F :=
  if !polygonIsConvex D ordered then invalidEvaluation "non_convex_quadrilateral" ordered
  else if ¬ ∀ i, pointNearBox D (ordered i) box config.maximumPointDistanceFromBoxRatio = true then
    invalidEvaluation "corner_too_far_from_bbox" ordered
  else
    match keypointSum config confidences with
    | none => invalidEvaluation "keypoint_confidence_below_threshold" ordered
    | some sum =>
        evaluateEdges D config box boxRatioScore (Scalar.clamp01 (sum / Scalar.ofRat 4)) ordered

/-- `PlateGeometryValidator::evaluate`. -/
def evaluate (c : Config F) (detection : Detection F) : Except EngineError (GeometryEvaluation F) :=
  let unordered : Fin 4 → Point2f F := fun _ => ⟨0, 0⟩
  if !detection.bbox.isValid then .ok (invalidEvaluation "invalid_bbox" unordered)
  else
    let boxRatio := detection.bbox.width / detection.bbox.height
    let boxRatioScore := rangeScore boxRatio c.config.minimumBoxAspectRatio
      c.config.preferredBoxAspectMin c.config.preferredBoxAspectMax c.config.maximumBoxAspectRatio
    if boxRatioScore ≤ 0 then .ok (invalidEvaluation "bbox_aspect_ratio_out_of_range" unordered)
    else
      match detection.quadrilateral with
      | none => .ok (invalidEvaluation "missing_quadrilateral" unordered)
      | some quadrilateral =>
          if ¬ ∀ i, (quadrilateral.points i).isFinite = true then
            .ok (invalidEvaluation "non_finite_corner" unordered)
          else if !pointsAreUnique D quadrilateral.points then
            .ok (invalidEvaluation "duplicate_corner" unordered)
          else do
            let ordered ← orderPlateCorners D quadrilateral.points
            return evaluateOrdered D c.config detection.bbox boxRatioScore
              quadrilateral.confidences ordered

end Evaluate

end PlateGeometryValidator

end FacLpr

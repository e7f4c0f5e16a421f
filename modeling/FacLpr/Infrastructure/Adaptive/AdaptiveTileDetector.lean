import FacLpr.Application.Providers
import FacLpr.Foundations.GreedySuppression
import FacLpr.Foundations.PixelArithmetic
import FacLpr.Foundations.SizeArithmetic
import FacLpr.Foundations.StableSort
import FacLpr.Infrastructure.BoxIntersection
import FacLpr.Infrastructure.NativeImage

/-!
# Infrastructure/Adaptive/AdaptiveTileDetector — a detector on overlapping tiles of an image

An image that is larger than a tile is scanned as a whole and tile by tile.  What is found in a tile
is moved to where the tile lies and clipped to the image, and everything that was found is merged,
the best of overlapping detections first.
-/

namespace FacLpr

structure AdaptiveTileConfig (F : Type) [Scalar F] where
  enabled : Bool := true
  tileWidth : UInt64 := 1280
  tileHeight : UInt64 := 960
  overlapRatio : F := Scalar.ofRat (20 / 100)
  maximumTiles : UInt64 := 32
  mergeIouThreshold : F := Scalar.ofRat (45 / 100)
  maximumDetections : UInt64 := 64

namespace AdaptiveTileDetector

variable {F D : Type} [Scalar F] [Scalar D]

/-- `validate_config`. -/
def validateConfig (config : AdaptiveTileConfig F) : Except EngineError Unit :=
  require (!(config.tileWidth == 0 || config.tileHeight == 0 || config.maximumTiles == 0 ||
      decide (4096 < config.maximumTiles) || config.maximumDetections == 0 ||
      decide (4096 < config.maximumDetections) || !Scalar.isFinite config.overlapRatio ||
      decide (config.overlapRatio < 0) ||
      decide ((Scalar.ofRat (50 / 100) : F) ≤ config.overlapRatio) ||
      !Scalar.isProbability config.mergeIouThreshold))
    (configurationError "adaptive tile detector configuration is invalid")

/-! ## Where the tiles start -/

/-- The origin after one, or that of the last tile. -/
def nextOrigin (extent tile step origin : UInt64) : UInt64 :=
  let lastOrigin := extent - tile
  if maxSize - step < origin then lastOrigin else min (origin + step) lastOrigin

/-- The loop of `axis_origins`, from one origin on. -/
def originsFrom (extent tile step origin : UInt64) : List UInt64 :=
  if extent ≤ origin + tile then [origin]
  else if nextOrigin extent tile step origin ≤ origin then [origin]
  else origin :: originsFrom extent tile step (nextOrigin extent tile step origin)
termination_by sizeMax - origin.toNat
decreasing_by
  rename_i hnext
  rw [UInt64.not_le, UInt64.lt_iff_toNat_lt] at hnext
  have := toNat_le_sizeMax (nextOrigin extent tile step origin)
  omega

variable (D) in
/-- `static_cast<std::size_t>(std::floor(static_cast<double>(tile) * overlap_ratio))`. -/
def tileOverlap [PixelArithmetic F D] (tile : UInt64) (overlapRatio : F) : UInt64 :=
  UInt64.ofNat (PixelArithmetic.floorWide F
    ((Scalar.ofRat tile.toNat : D) * PixelArithmetic.widen overlapRatio))

variable (D) in
/-- `axis_origins`. -/
def axisOrigins [PixelArithmetic F D] (extent tile : UInt64) (overlapRatio : F) :
    Except EngineError (List UInt64) :=
  if extent ≤ tile then return [0]
  else do
    let step := tile - tileOverlap D tile overlapRatio
    require (step != 0) (configurationError "adaptive tile step resolved to zero")
    return originsFrom extent tile step 0

/-! ## Merging -/

def iou (left right : BoundingBox F) : F :=
  if !left.isValid || !right.isValid then 0
  else if !left.hasFiniteEdges || !right.hasFiniteEdges then 0
  else
    let unionArea := left.unionArea right
    if decide (0 < unionArea) && Scalar.isFinite unionArea then
      Scalar.clamp01 (left.intersectionArea right / unionArea)
    else 0

/-- `translate_detection`. -/
def translateDetection (detection : Detection F)
    (offsetX offsetY sourceWidth sourceHeight : ℕ) : Detection F :=
  let xOffset : F := Scalar.ofRat offsetX
  let yOffset : F := Scalar.ofRat offsetY
  let width : F := Scalar.ofRat sourceWidth
  let height : F := Scalar.ofRat sourceHeight
  let x := detection.bbox.x + xOffset
  let y := detection.bbox.y + yOffset
  let x1 := Scalar.clamp x 0 width
  let y1 := Scalar.clamp y 0 height
  let x2 := Scalar.clamp (x + detection.bbox.width) 0 width
  let y2 := Scalar.clamp (y + detection.bbox.height) 0 height
  { detection with
    bbox := ⟨x1, y1, Scalar.max 0 (x2 - x1), Scalar.max 0 (y2 - y1)⟩
    quadrilateral := detection.quadrilateral.map fun quadrilateral =>
      { quadrilateral with
        points := fun i =>
          ⟨Scalar.clamp ((quadrilateral.points i).x + xOffset) 0 width,
            Scalar.clamp ((quadrilateral.points i).y + yOffset) 0 height⟩ } }

/-- The comparator of the sort. -/
def mergeOrder (left right : Detection F) : Bool :=
  if left.confidence != right.confidence then decide (right.confidence < left.confidence)
  else decide (right.geometryScore < left.geometryScore)

/-- A detection repeats one that was kept. -/
def duplicate (config : AdaptiveTileConfig F) (detection accepted : Detection F) : Bool :=
  decide (config.mergeIouThreshold < iou detection.bbox accepted.bbox)

/-- What the loop of the merge does not skip. -/
def isMergeable (detection : Detection F) : Bool :=
  detection.bbox.isValid && Scalar.isFinite detection.confidence

/-- `merge_detections`. -/
def mergeDetections (config : AdaptiveTileConfig F) (detections : List (Detection F)) :
    List (Detection F) :=
  suppress (duplicate config) config.maximumDetections.toNat
    ((stableSort mergeOrder detections).filter isMergeable)

end AdaptiveTileDetector

/-- A detector its constructor accepted. -/
structure AdaptiveTileDetector (σ F : Type) [Scalar F] where
  detector : PlateDetector σ F
  config : AdaptiveTileConfig F
  imageLimits : ImageLimits
  accepted : AdaptiveTileDetector.validateConfig config = .ok ()

namespace AdaptiveTileDetector

variable {σ F D : Type} [World σ] [Scalar F] [Scalar D]

def checkContext (context : OperationContext) : Run σ Unit :=
  FacLpr.checkContext context "adaptive detection cancelled"
    "adaptive detection deadline exceeded"

/-- The regions of the two loops over the origins. -/
def tileRegions (config : AdaptiveTileConfig F) (image : ImageView)
    (xOrigins yOrigins : List UInt64) : List ImageRegion :=
  yOrigins.flatMap fun y => xOrigins.map fun x =>
    { x := x.toNat
      y := y.toNat
      width := min config.tileWidth.toNat (image.width - x.toNat)
      height := min config.tileHeight.toNat (image.height - y.toNat) }

/-- One iteration of the loops over the origins. -/
def scanTile (detector : PlateDetector σ F) (image : ImageView) (context : OperationContext)
    (combined : List (Detection F)) (region : ImageRegion) : Run σ (List (Detection F)) := do
  checkContext context
  let tile ← Run.ofExcept (NativeImage.makeCropView image region)
  let detections ← detector.detect tile context
  return combined ++ detections.map fun detection =>
    translateDetection detection region.x region.y image.width image.height

def needsTiles (config : AdaptiveTileConfig F) (image : ImageView) : Bool :=
  config.enabled && (decide (config.tileWidth.toNat < image.width) ||
    decide (config.tileHeight.toNat < image.height))

variable (D) in
/-- The tiles of an image, unless there are too many. -/
def tilesOf [PixelArithmetic F D] (config : AdaptiveTileConfig F) (image : ImageView) :
    Except EngineError (List ImageRegion) := do
  let xOrigins ← axisOrigins D (UInt64.ofNat image.width) config.tileWidth config.overlapRatio
  let yOrigins ← axisOrigins D (UInt64.ofNat image.height) config.tileHeight config.overlapRatio
  require (!(decide (sizeMax / yOrigins.length < xOrigins.length) ||
      decide (config.maximumTiles.toNat < xOrigins.length * yOrigins.length)))
    (resourceExhaustedError "adaptive tile count exceeds configured maximum")
  return tileRegions config image xOrigins yOrigins

variable (D) in
/-- `AdaptiveTileDetector::detect`. -/
def detect [PixelArithmetic F D] (adaptive : AdaptiveTileDetector σ F) (image : ImageView)
    (context : OperationContext) : Run σ (List (Detection F)) := do
  checkContext context
  let validated ← Run.ofExcept (validateImage image adaptive.imageLimits)
  let combined ← adaptive.detector.detect validated.view context
  if !needsTiles adaptive.config validated.view then
    return mergeDetections adaptive.config combined
  else
    let tiles ← Run.ofExcept (tilesOf D adaptive.config validated.view)
    let combined ← tiles.foldlM (scanTile adaptive.detector validated.view context) combined
    return mergeDetections adaptive.config combined

end AdaptiveTileDetector

end FacLpr

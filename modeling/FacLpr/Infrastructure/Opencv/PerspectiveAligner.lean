import FacLpr.Infrastructure.Crop.CropHypothesisGenerator
import FacLpr.Infrastructure.Geometry.PlateGeometryValidator

/-!
# Infrastructure/Opencv/PerspectiveAligner — a plate warped to an upright image

The corners of a plausible plate are pushed outward and clamped to the image, and OpenCV warps what
they span.  Where the geometry is not plausible, or OpenCV fails, the padded box is copied instead.
-/

namespace FacLpr

structure PerspectiveAlignerConfig (F : Type) [Scalar F] where
  horizontalPaddingRatio : F := Scalar.ofRat (4 / 100)
  verticalPaddingRatio : F := Scalar.ofRat (6 / 100)
  minimumOutputWidth : ℕ := 64
  minimumOutputHeight : ℕ := 16
  maximumOutputWidth : ℕ := 2048
  maximumOutputHeight : ℕ := 512
  allowBboxFallback : Bool := true
  preferLandscape : Bool := true
  landscapeRotationThreshold : F := Scalar.ofRat (115 / 100)

/-- What a call of OpenCV throws: a `cv::Exception`, or another exception. -/
inductive CvFault where
  | cv
  | other
  deriving DecidableEq

/-- What `resize` of a vector throws: `std::bad_alloc`, or `std::length_error`. -/
inductive VectorFault where
  | badAlloc
  | length
  deriving DecidableEq

/-- What `allocate_image` throws for it. -/
def VectorFault.error : VectorFault → EngineError
  | .badAlloc => resourceExhaustedError "cannot allocate perspective output image"
  | .length => resourceExhaustedError "perspective output image exceeds vector limits"

/-- What the aligner calls of OpenCV, and what its allocations do. -/
structure WarpLibrary (F : Type) where
  Transform : Type
  getPerspectiveTransform : (Fin 4 → Point2f F) → (Fin 4 → Point2f F) → Except CvFault Transform
  /-- It is not `empty()`, and passes `cv::checkRange`. -/
  usable : Transform → Bool
  /-- The bytes `cv::warpPerspective` writes to the destination. -/
  warpPerspective : ImageView → Transform → ImageBuffer → Except CvFault (ℕ → Byte)
  /-- `isContinuous()` of the matrix over a view. -/
  isContinuous : ImageView → Bool
  /-- What resizing the output of a warp to a number of bytes throws, if it does. -/
  resizeOutput : ℕ → Option VectorFault
  /-- And what resizing the copy of the box throws. -/
  resizeCopy : ℕ → Option VectorFault

/-- `OpenCvImageView`: the checks of its constructor. -/
def WarpLibrary.checkView {F : Type} (library : WarpLibrary F) (image : ValidatedImage) :
    Except EngineError Unit := do
  require (decide (image.view.height ≤ 2 ^ 31 - 1))
    (invalidImageError "image height exceeds OpenCV int dimension limit")
  require (decide (image.view.width ≤ 2 ^ 31 - 1))
    (invalidImageError "image width exceeds OpenCV int dimension limit")
  require (library.isContinuous image.view || image.view.strideBytes != image.minimumRowBytes)
    (invalidImageError "OpenCV view continuity is inconsistent with packed image stride")

namespace OpenCvPerspectiveAligner

variable {σ F D : Type} [Scalar F]

/-- A padding that is part of a side. -/
def validPaddingRatio (value : F) : Bool :=
  Scalar.isFinite value && !decide (value < 0) && !decide (Scalar.ofRat (1 / 2) < value)

/-- `validate_config`. -/
def validateConfig (config : PerspectiveAlignerConfig F) (limits : ImageLimits) :
    Except EngineError Unit :=
  require (validPaddingRatio config.horizontalPaddingRatio &&
      validPaddingRatio config.verticalPaddingRatio &&
      decide (config.minimumOutputWidth ≠ 0 ∧ config.minimumOutputHeight ≠ 0 ∧
        config.minimumOutputWidth ≤ config.maximumOutputWidth ∧
        config.minimumOutputHeight ≤ config.maximumOutputHeight ∧
        config.maximumOutputWidth ≤ limits.maxImageWidth ∧
        config.maximumOutputHeight ≤ limits.maxImageHeight) &&
      Scalar.isFinite config.landscapeRotationThreshold &&
      !decide (config.landscapeRotationThreshold < 1))
    (configurationError "perspective aligner configuration is invalid")

end OpenCvPerspectiveAligner

/-- An aligner its constructor accepted. -/
structure OpenCvPerspectiveAligner (F : Type) [Scalar F] where
  config : PerspectiveAlignerConfig F
  imageLimits : ImageLimits
  geometry : PlateGeometryValidator.Config F
  accepted : OpenCvPerspectiveAligner.validateConfig config imageLimits = .ok ()

namespace OpenCvPerspectiveAligner

open PlateGeometryValidator CropHypothesisGenerator

attribute [local instance] neZero_four

variable {σ F D : Type} [Scalar F] [Scalar D] [GeometryArithmetic F D] [ImageArithmetic F D]

/-! ## The image to write -/

/-- `result.bytes.resize(bytes)`, in the `try` of `allocate_image`. -/
def resizeBytes (resize : ℕ → Option VectorFault) (bytes : ℕ) : Except EngineError Unit :=
  match resize bytes with
  | some fault => .error fault.error
  | none => .ok ()

/-- `allocate_image`. -/
def allocateImage (resize : ℕ → Option VectorFault) (width height : ℕ) (format : PixelFormat) :
    Except EngineError ImageBuffer := do
  let channels := pixelFormatChannels format
  require (width ≠ 0 ∧ height ≠ 0 ∧ channels ≠ 0)
    (invalidImageError "invalid perspective output shape")
  let stride ← CropHypothesisGenerator.checkedMultiply width channels
    "perspective output stride"
  let bytes ← CropHypothesisGenerator.checkedMultiply stride height
    "perspective output bytes"
  resizeBytes resize bytes
  return ⟨List.replicate bytes 0, width, height, stride, format⟩

variable (D) in
/-- `bounded_dimension`. -/
def boundedDimension (measured : F) (minimum maximum : ℕ) : Except EngineError ℕ := do
  require (Scalar.isFinite measured && !decide (measured ≤ 0) &&
      decide (minimum ≠ 0 ∧ minimum ≤ maximum))
    (providerError "invalid perspective output dimension")
  let rounded : D := Scalar.ofRat (ImageArithmetic.roundWide F (PixelArithmetic.widen measured : D))
  return PixelArithmetic.floorWide F
    (Scalar.clamp rounded (Scalar.ofRat minimum) (Scalar.ofRat maximum))

variable (D) in
/-- `padded_bbox_region`. -/
def paddedBboxRegion (box : BoundingBox F) (source : ImageView)
    (config : PerspectiveAlignerConfig F) : ImageRegion :=
  bboxRegion D box source config.horizontalPaddingRatio config.verticalPaddingRatio

variable (D) in
/-- `OpenCvPerspectiveAligner::bbox_fallback`. -/
def bboxFallback (library : WarpLibrary F) (aligner : OpenCvPerspectiveAligner F)
    (source : ImageView) (detection : Detection F) : Except EngineError (Option ImageBuffer) :=
  let region := paddedBboxRegion D detection.bbox source aligner.config
  if !aligner.config.allowBboxFallback then .ok none
  else if region.empty then .ok none
  else do
    let output ← allocateImage library.resizeCopy region.width region.height source.format
    let copied ← NativeImage.copyCrop source region output
    return some copied

/-! ## The corners to warp -/

variable (D) in
/-- `edge_length`. -/
def edgeLength (left right : Point2f F) : F := distance D left right

variable (D) in
/-- `normalized_direction`. -/
def normalizedDirection (start finish : Point2f F) : Except EngineError (Point2f F) := do
  let length := edgeLength D start finish
  require (Scalar.isFinite length && !decide (length ≤ Scalar.ofRat (1 / 10000)))
    (providerError "cannot normalize degenerate plate edge")
  return ⟨(finish.x - start.x) / length, (finish.y - start.y) / length⟩

/-- `clamp_point`. -/
def clampPoint (point : Point2f F) (source : ImageView) : Point2f F :=
  ⟨Scalar.clamp point.x 0 (Scalar.ofRat (source.width - 1 : ℕ)),
    Scalar.clamp point.y 0 (Scalar.ofRat (source.height - 1 : ℕ))⟩

/-- `rotate_to_landscape`. -/
def rotateToLandscape (corners : Fin 4 → Point2f F) : Fin 4 → Point2f F :=
  ![corners 3, corners 0, corners 1, corners 2]

variable (D) in
/-- The mean of the upper and the lower edge. -/
def averageWidth (corners : Fin 4 → Point2f F) : F :=
  (edgeLength D (corners 0) (corners 1) + edgeLength D (corners 3) (corners 2)) *
    Scalar.ofRat (1 / 2)

variable (D) in
/-- The mean of the left and the right edge. -/
def averageHeight (corners : Fin 4 → Point2f F) : F :=
  (edgeLength D (corners 0) (corners 3) + edgeLength D (corners 1) (corners 2)) *
    Scalar.ofRat (1 / 2)

variable (D) in
/-- The corners, turned when the plate stands upright. -/
def landscapeCorners (config : PerspectiveAlignerConfig F) (corners : Fin 4 → Point2f F) :
    Fin 4 → Point2f F :=
  if config.preferLandscape ∧
      averageWidth D corners * config.landscapeRotationThreshold < averageHeight D corners then
    rotateToLandscape corners
  else corners

variable (D) in
/-- The corners of `padded_corners`, before they are clamped. -/
def pushedCorners (corners : Fin 4 → Point2f F) (config : PerspectiveAlignerConfig F) :
    Except EngineError (Fin 4 → Point2f F) := do
  let top ← normalizedDirection D (corners 0) (corners 1)
  let bottom ← normalizedDirection D (corners 3) (corners 2)
  let left ← normalizedDirection D (corners 0) (corners 3)
  let right ← normalizedDirection D (corners 1) (corners 2)
  let horizontal := averageWidth D corners * config.horizontalPaddingRatio
  let vertical := averageHeight D corners * config.verticalPaddingRatio
  return ![
    ⟨(corners 0).x - (top.x * horizontal + left.x * vertical),
      (corners 0).y - (top.y * horizontal + left.y * vertical)⟩,
    ⟨(corners 1).x + (top.x * horizontal - right.x * vertical),
      (corners 1).y + (top.y * horizontal - right.y * vertical)⟩,
    ⟨(corners 2).x + (bottom.x * horizontal + right.x * vertical),
      (corners 2).y + (bottom.y * horizontal + right.y * vertical)⟩,
    ⟨(corners 3).x - (bottom.x * horizontal - left.x * vertical),
      (corners 3).y - (bottom.y * horizontal - left.y * vertical)⟩]

variable (D) in
/-- `padded_corners`. -/
def paddedCorners (corners : Fin 4 → Point2f F) (source : ImageView)
    (config : PerspectiveAlignerConfig F) : Except EngineError (Fin 4 → Point2f F) := do
  let pushed ← pushedCorners D corners config
  return fun i => clampPoint (pushed i) source

/-! ## The alignment -/

/-- The corners of the output. -/
def destinationCorners (output : ImageBuffer) : Fin 4 → Point2f F :=
  let right : F := Scalar.ofRat (output.width - 1 : ℕ)
  let bottom : F := Scalar.ofRat (output.height - 1 : ℕ)
  ![⟨0, 0⟩, ⟨right, 0⟩, ⟨right, bottom⟩, ⟨0, bottom⟩]

/-- The output, warped, or nothing when there is no transform to warp it by. -/
def warped (library : WarpLibrary F) (source : ImageView) (corners : Fin 4 → Point2f F)
    (output : ImageBuffer) : Except CvFault (Option ImageBuffer) := do
  let transform ← library.getPerspectiveTransform corners (destinationCorners output)
  if !library.usable transform then return none
  else
    let pixel ← library.warpPerspective source transform output
    return some { output with bytes := (List.range output.bytes.length).map pixel }

variable [World σ]

def checkAlignerContext (context : OperationContext) : Run σ Unit :=
  checkContext context "perspective alignment cancelled" "perspective alignment deadline exceeded"

variable (D) in
/-- The alignment of a plate whose geometry is plausible. -/
def rectify (library : WarpLibrary F) (aligner : OpenCvPerspectiveAligner F)
    (validated : ValidatedImage) (detection : Detection F) (ordered : Fin 4 → Point2f F)
    (context : OperationContext) : Run σ (Option ImageBuffer) := do
  let config := aligner.config
  let corners ← Run.ofExcept
    (paddedCorners D (landscapeCorners D config ordered) validated.view config)
  let outputWidth ← Run.ofExcept (boundedDimension D (averageWidth D corners)
    config.minimumOutputWidth config.maximumOutputWidth)
  let outputHeight ← Run.ofExcept (boundedDimension D (averageHeight D corners)
    config.minimumOutputHeight config.maximumOutputHeight)
  checkAlignerContext context
  Run.ofExcept (library.checkView validated)
  let output ← Run.ofExcept
    (allocateImage library.resizeOutput outputWidth outputHeight validated.view.format)
  match warped library validated.view corners output with
  | .error .cv | .ok none => Run.ofExcept (bboxFallback D library aligner validated.view detection)
  | .error .other => throw (.engine (providerError "perspective alignment failed"))
  | .ok (some image) => do
      checkAlignerContext context
      return some image

variable (D) in
/-- `OpenCvPerspectiveAligner::align`. -/
def align (library : WarpLibrary F) (aligner : OpenCvPerspectiveAligner F) (source : ImageView)
    (detection : Detection F) (context : OperationContext) : Run σ (Option ImageBuffer) := do
  checkAlignerContext context
  let validated ← Run.ofExcept (validateImage source aligner.imageLimits)
  let geometry ← Run.ofExcept (evaluate D aligner.geometry detection)
  if !geometry.valid then Run.ofExcept (bboxFallback D library aligner validated.view detection)
  else rectify D library aligner validated detection geometry.orderedCorners context

end OpenCvPerspectiveAligner

end FacLpr

import FacLpr.Foundations.Stores
import FacLpr.Infrastructure.NativeImageWorkspace
import FacLpr.Infrastructure.PixelSampling

/-!
# Infrastructure/Yolo/YoloPosePreprocessor — the input tensor of the detector

The image is scaled to fit the input and set in a border; the tensor holds one plane for each
channel.  `preprocessInto` fills the tensor with the border and then stores every sample.
-/

namespace FacLpr

structure YoloInputSpec (F : Type) [Scalar F] where
  width : ℕ := 0
  height : ℕ := 0
  channels : ℕ := 3
  scale : F := 1 / Scalar.ofRat 255
  padValue : F := Scalar.ofRat 114

structure LetterboxMetadata (F : Type) [Scalar F] where
  sourceWidth : ℕ := 0
  sourceHeight : ℕ := 0
  inputWidth : ℕ := 0
  inputHeight : ℕ := 0
  scale : F := 1
  padLeft : ℕ := 0
  padTop : ℕ := 0
  resizedWidth : ℕ := 0
  resizedHeight : ℕ := 0

/-- A tensor, or the tensor of a workspace, and where the image lies in it. -/
structure YoloInputTensor (F : Type) [Scalar F] where
  chw : List F
  letterbox : LetterboxMetadata F

/-- `checked_tensor_size`. -/
def YoloInputSpec.checkedTensorSize {F : Type} [Scalar F] (spec : YoloInputSpec F) :
    Except EngineError ℕ := do
  require (spec.width ≠ 0 ∧ spec.height ≠ 0 ∧ spec.channels = 3)
    (configurationError "YOLO input must be non-zero HxW with exactly 3 channels")
  require ((Scalar.isFinite spec.scale && !decide (spec.scale ≤ 0)) &&
      (Scalar.isFinite spec.padValue && !decide (spec.padValue < 0) &&
        !decide (Scalar.ofRat 255 < spec.padValue)))
    (configurationError "YOLO normalization or padding configuration is invalid")
  require (spec.width ≤ sizeMax / spec.height)
    (configurationError "YOLO input dimensions overflow")
  let pixels := spec.width * spec.height
  require (pixels ≤ sizeMax / spec.channels)
    (configurationError "YOLO input tensor size overflows")
  return pixels * spec.channels

/-- A preprocessor its constructor accepted. -/
structure YoloPosePreprocessor (F : Type) [Scalar F] where
  spec : YoloInputSpec F
  tensorElements : ℕ
  accepted : spec.checkedTensorSize = .ok tensorElements

namespace YoloPosePreprocessor

variable {F D : Type} [Scalar F] [Scalar D] [ImageArithmetic F D]

/-- `bilinear_sample`. -/
def bilinearSample (image : ImageView) (sourceX sourceY : D) : RgbSample F :=
  PixelSampling.bilinearSample image sourceX sourceY

/-- `make_letterbox_metadata`. -/
def makeLetterboxMetadata (D : Type) [Scalar D] [ImageArithmetic F D] (image : ImageView)
    (spec : YoloInputSpec F) : Except EngineError (LetterboxMetadata F) := do
  let scaleX : D := Scalar.ofRat spec.width / Scalar.ofRat image.width
  let scaleY : D := Scalar.ofRat spec.height / Scalar.ofRat image.height
  let scale := Scalar.min scaleX scaleY
  require (Scalar.isFinite scale && !decide (scale ≤ 0))
    (invalidImageError "cannot compute a valid YOLO letterbox scale")
  -- `std::clamp` of an extent to `[1, limit]`
  let resized (extent limit : ℕ) : ℕ :=
    max 1 (min (ImageArithmetic.roundWide F (Scalar.ofRat extent * scale)) limit)
  let resizedWidth := resized image.width spec.width
  let resizedHeight := resized image.height spec.height
  return {
    sourceWidth := image.width
    sourceHeight := image.height
    inputWidth := spec.width
    inputHeight := spec.height
    scale := PixelArithmetic.narrow scale
    padLeft := (spec.width - resizedWidth) / 2
    padTop := (spec.height - resizedHeight) / 2
    resizedWidth
    resizedHeight }

/-- The stores of one sample. -/
def sampleStores (spec : YoloInputSpec F) (sample : RgbSample F) (index : ℕ) : List (ℕ × F) :=
  let planeSize := spec.width * spec.height
  [(index, sample.red * spec.scale), (planeSize + index, sample.green * spec.scale),
    (2 * planeSize + index, sample.blue * spec.scale)]

/-- The stores of the loop over the resized image. -/
def imageStores (D : Type) [Scalar D] [ImageArithmetic F D] (spec : YoloInputSpec F)
    (image : ImageView) (metadata : LetterboxMetadata F) : List (ℕ × F) :=
  let scaleX : D := Scalar.ofRat image.width / Scalar.ofRat metadata.resizedWidth
  let scaleY : D := Scalar.ofRat image.height / Scalar.ofRat metadata.resizedHeight
  (List.range metadata.resizedHeight).flatMap fun resizedY =>
    let outputY := metadata.padTop + resizedY
    (List.range metadata.resizedWidth).flatMap fun resizedX =>
      let outputX := metadata.padLeft + resizedX
      sampleStores spec
        (bilinearSample image (sourceCoordinate resizedX scaleX) (sourceCoordinate resizedY scaleY))
        (outputY * spec.width + outputX)

variable (D) in
/-- `preprocess_into`, which returns the output it was handed and the metadata. -/
def preprocessInto (preprocessor : YoloPosePreprocessor F) (image : ValidatedImage)
    (output : List F) : Except EngineError (YoloInputTensor F) := do
  require (output.length = preprocessor.tensorElements)
    (invalidImageError "YOLO output tensor workspace has the wrong element count")
  let metadata ← makeLetterboxMetadata D image.view preprocessor.spec
  let padNormalized := preprocessor.spec.padValue * preprocessor.spec.scale
  let filled := List.replicate output.length padNormalized
  return ⟨storeAll filled (imageStores D preprocessor.spec image.view metadata), metadata⟩

variable (D) in
/-- `preprocess`, into a fresh vector. -/
def preprocess (preprocessor : YoloPosePreprocessor F) (image : ValidatedImage) :
    Except EngineError (YoloInputTensor F) :=
  preprocessor.preprocessInto D image (List.replicate preprocessor.tensorElements 0)

variable (D) in
/-- `preprocess`, into the tensor of a workspace. -/
def preprocessWith (preprocessor : YoloPosePreprocessor F) (image : ValidatedImage)
    (allocation : Allocation) : Run (NativeImageWorkspace F) (YoloInputTensor F) := do
  NativeImageWorkspace.prepareTensor preprocessor.tensorElements allocation
  let workspace ← get
  let result ← Run.ofExcept (preprocessor.preprocessInto D image workspace.tensor)
  set (workspace.writeTensor result.chw)
  return result

/-- **The old contents of the output do not matter**, only its length. -/
theorem preprocessInto_congr (preprocessor : YoloPosePreprocessor F) (image : ValidatedImage)
    {output output' : List F} (h : output.length = output'.length) :
    preprocessor.preprocessInto D image output = preprocessor.preprocessInto D image output' := by
  unfold preprocessInto
  rw [h]

/-! ## The tensor depends on what the view shows -/

/-- The extents of an accepted input are those of a 64-bit grid. -/
theorem spec_bounds (preprocessor : YoloPosePreprocessor F) :
    (0 < preprocessor.spec.width ∧ preprocessor.spec.width < 2 ^ 64) ∧
      (0 < preprocessor.spec.height ∧ preprocessor.spec.height < 2 ^ 64) := by
  have haccepted := preprocessor.accepted
  simp only [YoloInputSpec.checkedTensorSize, except_bind_eq_ok, require_eq_ok,
    decide_eq_true_eq] at haccepted
  obtain ⟨-, ⟨hwidth, hheight, -⟩, -, -, -, hpixels, -⟩ := haccepted
  have hproduct : preprocessor.spec.width * preprocessor.spec.height ≤ sizeMax :=
    (Nat.le_div_iff_mul_le (Nat.pos_of_ne_zero hheight)).mp hpixels
  have hleft := Nat.le_mul_of_pos_right preprocessor.spec.width (Nat.pos_of_ne_zero hheight)
  have hright := Nat.le_mul_of_pos_left preprocessor.spec.height (Nat.pos_of_ne_zero hwidth)
  unfold sizeMax at hproduct
  omega

theorem bounds_of_makeLetterboxMetadata {image : ImageView} {spec : YoloInputSpec F}
    {metadata : LetterboxMetadata F} (h : makeLetterboxMetadata D image spec = .ok metadata) :
    (0 < metadata.resizedWidth ∧ metadata.resizedWidth ≤ max 1 spec.width) ∧
      (0 < metadata.resizedHeight ∧ metadata.resizedHeight ≤ max 1 spec.height) := by
  unfold makeLetterboxMetadata at h
  obtain ⟨-, -, h⟩ := except_bind_eq_ok.mp h
  cases h
  exact ⟨⟨lt_max_of_lt_left Nat.one_pos, max_le_max_left 1 (min_le_right _ _)⟩,
    ⟨lt_max_of_lt_left Nat.one_pos, max_le_max_left 1 (min_le_right _ _)⟩⟩

variable {a b : ImageView}

theorem makeLetterboxMetadata_congr (h : SamePixels a b) (spec : YoloInputSpec F) :
    makeLetterboxMetadata D a spec = makeLetterboxMetadata D b spec := by
  unfold makeLetterboxMetadata
  rw [h.width, h.height]

theorem imageStores_congr [LawfulImageArithmetic F D] (h : SamePixels a b) (hsamples : a.Samples)
    (spec : YoloInputSpec F) {metadata : LetterboxMetadata F}
    (hwidth : 0 < metadata.resizedWidth ∧ metadata.resizedWidth < 2 ^ 64)
    (hheight : 0 < metadata.resizedHeight ∧ metadata.resizedHeight < 2 ^ 64) :
    imageStores D spec a metadata = imageStores D spec b metadata := by
  unfold imageStores
  rw [← h.width, ← h.height]
  refine List.flatMap_congr fun y hy => List.flatMap_congr fun x hx => ?_
  have hx' := (List.mem_range.mp hx).trans hwidth.2
  have hy' := (List.mem_range.mp hy).trans hheight.2
  rw [bilinearSample, bilinearSample, h.bilinearSample hsamples
    (hsamples.isFinite_x (F := F) hx' hwidth.1 hwidth.2)
    (hsamples.isFinite_y (F := F) hy' hheight.1 hheight.2)]

/-- **The tensor of a view depends on what it shows.** -/
theorem preprocess_congr [LawfulImageArithmetic F D] (preprocessor : YoloPosePreprocessor F)
    {image image' : ValidatedImage} (h : SamePixels image.view image'.view)
    (hsamples : image.view.Samples) :
    preprocessor.preprocess D image = preprocessor.preprocess D image' := by
  unfold preprocess preprocessInto
  rw [← makeLetterboxMetadata_congr h]
  refine bind_congr fun _ => ?_
  cases hmetadata : makeLetterboxMetadata D image.view preprocessor.spec with
  | error e => rfl
  | ok metadata =>
    obtain ⟨hwidth, hheight⟩ := bounds_of_makeLetterboxMetadata hmetadata
    have hspec := preprocessor.spec_bounds
    have hstores := imageStores_congr (D := D) h hsamples preprocessor.spec
      ⟨hwidth.1, by omega⟩ ⟨hheight.1, by omega⟩
    change Except.ok (YoloInputTensor.mk _ _) = Except.ok (YoloInputTensor.mk _ _)
    rw [hstores]

end YoloPosePreprocessor

end FacLpr

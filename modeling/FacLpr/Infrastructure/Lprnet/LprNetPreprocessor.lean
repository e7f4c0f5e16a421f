import FacLpr.Foundations.Stores
import FacLpr.Infrastructure.NativeImageWorkspace
import FacLpr.Infrastructure.PixelSampling
import Mathlib.Data.Fin.VecNotation

/-!
# Infrastructure/Lprnet/LprNetPreprocessor — the input tensor of the recognizer

The image is stretched to the input, and every channel of every sample is normalized and stored.
The output is not filled first: the stores cover it, in either layout (`imageStores_covers`).
-/

namespace FacLpr

inductive TensorLayout where
  | nchw
  | nhwc
  deriving DecidableEq

inductive InputColorOrder where
  | gray
  | rgb
  | bgr
  deriving DecidableEq

inductive TensorElementType where
  | float32
  deriving DecidableEq

structure LprNetInputSpec (F : Type) [Scalar F] where
  width : ℕ := 0
  height : ℕ := 0
  channels : ℕ := 0
  layout : TensorLayout := .nchw
  colorOrder : InputColorOrder := .rgb
  elementType : TensorElementType := .float32
  inputScale : F := 1 / Scalar.ofRat 255
  mean : Fin 3 → F := fun _ => 0
  standardDeviation : Fin 3 → F := fun _ => 1

/-- A tensor, or the tensor of a workspace, and its shape. -/
structure LprNetInputTensor (F : Type) where
  values : List F
  shape : ℤ × ℤ × ℤ × ℤ

namespace LprNetInputSpec

variable {F : Type} [Scalar F]

/-- `checked_tensor_size`. -/
def checkedTensorSize (spec : LprNetInputSpec F) : Except EngineError ℕ := do
  require (spec.width ≠ 0 ∧ spec.height ≠ 0 ∧ (spec.channels = 1 ∨ spec.channels = 3))
    (configurationError "LPRNet input must be non-zero HxW with 1 or 3 channels")
  require (!((spec.channels = 1 ∧ spec.colorOrder ≠ .gray) ∨
      (spec.channels = 3 ∧ spec.colorOrder = .gray)))
    (configurationError "LPRNet channel count and color order are inconsistent")
  require (spec.elementType = .float32)
    (configurationError "only float32 LPRNet input tensors are currently supported")
  require (Scalar.isFinite spec.inputScale && !decide (spec.inputScale ≤ 0))
    (configurationError "LPRNet input scale must be finite and positive")
  (List.range spec.channels).forM fun channel =>
    require (Scalar.isFinite (spec.mean (Fin.ofNat 3 channel)) &&
        (Scalar.isFinite (spec.standardDeviation (Fin.ofNat 3 channel)) &&
          !decide (spec.standardDeviation (Fin.ofNat 3 channel) ≤ 0)))
      (configurationError "LPRNet normalization parameters are invalid")
  require (spec.width ≤ sizeMax / spec.height)
    (configurationError "LPRNet input dimensions overflow")
  let pixels := spec.width * spec.height
  require (pixels ≤ sizeMax / spec.channels)
    (configurationError "LPRNet input tensor size overflows")
  return pixels * spec.channels

/-- A dimension of the shape. -/
def toInt64 (value : ℕ) (name : String) : Except EngineError ℤ := do
  require (value ≤ 2 ^ 63 - 1)
    (configurationError (name ++ " exceeds int64 tensor dimension limits"))
  return value

/-- `make_shape`. -/
def makeShape (spec : LprNetInputSpec F) : Except EngineError (ℤ × ℤ × ℤ × ℤ) :=
  match spec.layout with
  | .nchw => do
      let channels ← toInt64 spec.channels "LPRNet channels"
      let height ← toInt64 spec.height "LPRNet height"
      let width ← toInt64 spec.width "LPRNet width"
      return (1, channels, height, width)
  | .nhwc => do
      let height ← toInt64 spec.height "LPRNet height"
      let width ← toInt64 spec.width "LPRNet width"
      let channels ← toInt64 spec.channels "LPRNet channels"
      return (1, height, width, channels)

end LprNetInputSpec

/-- A preprocessor its constructor accepted. -/
structure LprNetPreprocessor (F : Type) [Scalar F] where
  spec : LprNetInputSpec F
  tensorElements : ℕ
  tensorShape : ℤ × ℤ × ℤ × ℤ
  accepted : spec.checkedTensorSize = .ok tensorElements
  shaped : spec.makeShape = .ok tensorShape

namespace LprNetPreprocessor

variable {F D : Type} [Scalar F] [Scalar D] [PixelArithmetic F D]

/-- `bilinear_sample`. -/
def bilinearSample (image : ImageView) (sourceX sourceY : D) : RgbSample F :=
  PixelSampling.bilinearSample image sourceX sourceY

def luminance (sample : RgbSample F) : F :=
  Scalar.ofRat (299 / 1000) * sample.red + Scalar.ofRat (587 / 1000) * sample.green +
    Scalar.ofRat (114 / 1000) * sample.blue

/-- `ordered_channels`. -/
def orderedChannels (sample : RgbSample F) (spec : LprNetInputSpec F) : Fin 3 → F :=
  match spec.colorOrder with
  | .bgr => ![sample.blue, sample.green, sample.red]
  | .gray => ![luminance sample, 0, 0]
  | .rgb => ![sample.red, sample.green, sample.blue]

/-- `normalize_value`. -/
def normalizeValue (value : F) (channel : Fin 3) (spec : LprNetInputSpec F) : F :=
  (value * spec.inputScale - spec.mean channel) / spec.standardDeviation channel

/-- Where a channel of a pixel is stored. -/
def elementIndex (spec : LprNetInputSpec F) (pixelIndex channel : ℕ) : ℕ :=
  match spec.layout with
  | .nchw => channel * (spec.width * spec.height) + pixelIndex
  | .nhwc => pixelIndex * spec.channels + channel

/-- The stores of one sample. -/
def sampleStores (spec : LprNetInputSpec F) (sample : RgbSample F) (pixelIndex : ℕ) :
    List (ℕ × F) :=
  (List.range spec.channels).map fun channel =>
    (elementIndex spec pixelIndex channel,
      normalizeValue (orderedChannels sample spec (Fin.ofNat 3 channel)) (Fin.ofNat 3 channel) spec)

/-- The stores of the loop over the output. -/
def imageStores (D : Type) [Scalar D] [PixelArithmetic F D] (spec : LprNetInputSpec F)
    (image : ImageView) : List (ℕ × F) :=
  let sourceScaleX : D := Scalar.ofRat image.width / Scalar.ofRat spec.width
  let sourceScaleY : D := Scalar.ofRat image.height / Scalar.ofRat spec.height
  (List.range spec.height).flatMap fun outputY =>
    (List.range spec.width).flatMap fun outputX =>
      sampleStores spec (bilinearSample image (sourceCoordinate outputX sourceScaleX)
          (sourceCoordinate outputY sourceScaleY))
        (outputY * spec.width + outputX)

variable (D) in
/-- `preprocess_into`, which returns the output it was handed. -/
def preprocessInto (preprocessor : LprNetPreprocessor F) (image : ValidatedImage)
    (output : List F) : Except EngineError (List F) := do
  require (output.length = preprocessor.tensorElements)
    (invalidImageError "LPRNet output tensor workspace has the wrong element count")
  return storeAll output (imageStores D preprocessor.spec image.view)

variable (D) in
/-- `preprocess`, into a fresh vector. -/
def preprocess (preprocessor : LprNetPreprocessor F) (image : ValidatedImage) :
    Except EngineError (LprNetInputTensor F) := do
  let values ← preprocessor.preprocessInto D image (List.replicate preprocessor.tensorElements 0)
  return ⟨values, preprocessor.tensorShape⟩

variable (D) in
/-- `preprocess`, into the tensor of a workspace. -/
def preprocessWith (preprocessor : LprNetPreprocessor F) (image : ValidatedImage)
    (allocation : Allocation) : Run (NativeImageWorkspace F) (LprNetInputTensor F) := do
  NativeImageWorkspace.prepareTensor preprocessor.tensorElements allocation
  let workspace ← get
  let values ← Run.ofExcept (preprocessor.preprocessInto D image workspace.tensor)
  set (workspace.writeTensor values)
  return ⟨values, preprocessor.tensorShape⟩

/-! ## The stores cover the tensor -/

/-- What the constructor checked of the extents. -/
theorem spec_bounds (preprocessor : LprNetPreprocessor F) :
    (0 < preprocessor.spec.width ∧ preprocessor.spec.width < 2 ^ 64) ∧
      (0 < preprocessor.spec.height ∧ preprocessor.spec.height < 2 ^ 64) ∧
      0 < preprocessor.spec.channels ∧
      preprocessor.tensorElements =
        preprocessor.spec.width * preprocessor.spec.height * preprocessor.spec.channels := by
  have haccepted := preprocessor.accepted
  simp only [LprNetInputSpec.checkedTensorSize, except_bind_eq_ok, require_eq_ok,
    decide_eq_true_eq] at haccepted
  obtain ⟨-, ⟨hwidth, hheight, hchannels⟩, -, -, -, -, -, -, -, -, -, hpixels, -, -, helements⟩ :=
    haccepted
  have hproduct : preprocessor.spec.width * preprocessor.spec.height ≤ sizeMax :=
    (Nat.le_div_iff_mul_le (Nat.pos_of_ne_zero hheight)).mp hpixels
  have hleft := Nat.le_mul_of_pos_right preprocessor.spec.width (Nat.pos_of_ne_zero hheight)
  have hright := Nat.le_mul_of_pos_left preprocessor.spec.height (Nat.pos_of_ne_zero hwidth)
  unfold sizeMax at hproduct
  exact ⟨by omega, by omega, by omega, (Except.ok.inj helements).symm⟩

/-- Every element of the tensor is a channel of a pixel. -/
theorem exists_elementIndex (spec : LprNetInputSpec F) {i : ℕ}
    (hi : i < spec.width * spec.height * spec.channels) :
    ∃ y < spec.height, ∃ x < spec.width, ∃ channel < spec.channels,
      elementIndex spec (y * spec.width + x) channel = i := by
  have hpixel : ∀ p < spec.width * spec.height, ∃ y < spec.height, ∃ x < spec.width,
      y * spec.width + x = p := fun p hp => by
    have hwidth : 0 < spec.width := Nat.pos_of_mul_pos_right (Nat.zero_lt_of_lt hp)
    exact ⟨p / spec.width, Nat.div_lt_of_lt_mul hp, p % spec.width, Nat.mod_lt p hwidth,
      Nat.div_add_mod' p spec.width⟩
  unfold elementIndex
  cases spec.layout with
  | nchw =>
    have hplane : 0 < spec.width * spec.height :=
      Nat.pos_of_mul_pos_right (Nat.zero_lt_of_lt hi)
    obtain ⟨y, hy, x, hx, hyx⟩ := hpixel _ (Nat.mod_lt i hplane)
    exact ⟨y, hy, x, hx, i / (spec.width * spec.height), Nat.div_lt_of_lt_mul hi, by
      simp only [hyx, Nat.div_add_mod']⟩
  | nhwc =>
    have hchannels : 0 < spec.channels := Nat.pos_of_mul_pos_left (Nat.zero_lt_of_lt hi)
    have hp : i / spec.channels < spec.width * spec.height :=
      Nat.div_lt_of_lt_mul (by rwa [Nat.mul_comm])
    obtain ⟨y, hy, x, hx, hyx⟩ := hpixel _ hp
    exact ⟨y, hy, x, hx, i % spec.channels, Nat.mod_lt i hchannels, by
      simp only [hyx, Nat.div_add_mod']⟩

/-- **Every element is stored to**, in either layout. -/
theorem imageStores_covers (spec : LprNetInputSpec F) (image : ImageView) {i : ℕ}
    (hi : i < spec.width * spec.height * spec.channels) :
    ∃ store ∈ imageStores D spec image, store.1 = i := by
  obtain ⟨y, hy, x, hx, channel, hchannel, hindex⟩ := exists_elementIndex spec hi
  refine ⟨_, List.mem_flatMap.mpr ⟨y, List.mem_range.mpr hy, List.mem_flatMap.mpr
    ⟨x, List.mem_range.mpr hx, List.mem_map.mpr ⟨channel, List.mem_range.mpr hchannel, rfl⟩⟩⟩, ?_⟩
  exact hindex

/-- **The old contents of the output do not matter**, only its length. -/
theorem preprocessInto_congr (preprocessor : LprNetPreprocessor F) (image : ValidatedImage)
    {output output' : List F} (h : output.length = output'.length) :
    preprocessor.preprocessInto D image output = preprocessor.preprocessInto D image output' := by
  unfold preprocessInto
  rw [h]
  by_cases hlength : output'.length = preprocessor.tensorElements
  · have hstores := storeAll_eq_of_covered h fun i hi =>
      imageStores_covers (D := D) preprocessor.spec image.view
        (by rwa [h, hlength, preprocessor.spec_bounds.2.2.2] at hi)
    rw [hstores]
  · simp only [require, hlength, decide_false]
    rfl

/-! ## The tensor depends on what the view shows -/

variable {a b : ImageView}

theorem imageStores_congr [LawfulImageArithmetic F D] (h : SamePixels a b) (hsamples : a.Samples)
    (spec : LprNetInputSpec F) (hwidth : 0 < spec.width ∧ spec.width < 2 ^ 64)
    (hheight : 0 < spec.height ∧ spec.height < 2 ^ 64) :
    imageStores D spec a = imageStores D spec b := by
  unfold imageStores
  rw [← h.width, ← h.height]
  refine List.flatMap_congr fun y hy => List.flatMap_congr fun x hx => ?_
  have hx' := (List.mem_range.mp hx).trans hwidth.2
  have hy' := (List.mem_range.mp hy).trans hheight.2
  rw [bilinearSample, bilinearSample, h.bilinearSample hsamples
    (hsamples.isFinite_x (F := F) hx' hwidth.1 hwidth.2)
    (hsamples.isFinite_y (F := F) hy' hheight.1 hheight.2)]

/-- **The tensor of a view depends on what it shows.** -/
theorem preprocess_congr [LawfulImageArithmetic F D] (preprocessor : LprNetPreprocessor F)
    {image image' : ValidatedImage} (h : SamePixels image.view image'.view)
    (hsamples : image.view.Samples) :
    preprocessor.preprocess D image = preprocessor.preprocess D image' := by
  obtain ⟨hwidth, hheight, -⟩ := preprocessor.spec_bounds
  unfold preprocess preprocessInto
  rw [imageStores_congr h hsamples preprocessor.spec hwidth hheight]

end LprNetPreprocessor

end FacLpr

import FacLpr.Application.Error
import FacLpr.Foundations.Binary
import FacLpr.Foundations.Text

/-!
# Application/Image — image buffers and the check at the boundary
-/

namespace FacLpr

inductive PixelFormat where
  | gray8
  | bgr8
  | rgb8
  deriving DecidableEq, Repr

structure ImageRegion where
  x : ℕ
  y : ℕ
  width : ℕ
  height : ℕ
  deriving DecidableEq

def ImageRegion.empty (region : ImageRegion) : Bool := region.width = 0 ∨ region.height = 0

/-- Bytes with a shape, not owned. -/
structure ImageView where
  bytes : List Byte
  width : ℕ
  height : ℕ
  strideBytes : ℕ
  format : PixelFormat
  deriving DecidableEq

/-- Bytes with a shape, owned. -/
structure ImageBuffer where
  bytes : List Byte
  width : ℕ
  height : ℕ
  strideBytes : ℕ
  format : PixelFormat
  deriving DecidableEq

def ImageBuffer.view (buffer : ImageBuffer) : ImageView :=
  ⟨buffer.bytes, buffer.width, buffer.height, buffer.strideBytes, buffer.format⟩

structure CropHypothesis (F : Type) where
  image : ImageBuffer
  type : Text
  source : Text
  fingerprint : UInt64
  quality : F
  deriving DecidableEq

/-- The image limits of `PerformanceConfig`. -/
structure ImageLimits where
  maxImageWidth : ℕ := 8192
  maxImageHeight : ℕ := 8192
  maxImageBytes : ℕ := 128 * 1024 * 1024

/-- `detail::require_positive`. -/
def requirePositive (value : ℕ) (name : String) : Except EngineError Unit :=
  require (value ≠ 0) (configurationError (name ++ " must be greater than zero"))

/-- The checks `validate_engine_config` makes of the image limits. -/
def ImageLimits.check (limits : ImageLimits) : Except EngineError Unit := do
  requirePositive limits.maxImageWidth "performance.max_image_width"
  requirePositive limits.maxImageHeight "performance.max_image_height"
  requirePositive limits.maxImageBytes "performance.max_image_bytes"
  require (limits.maxImageWidth ≤ 32768 ∧ limits.maxImageHeight ≤ 32768)
    (configurationError "performance image dimensions exceed safe engine limits")
  require (limits.maxImageBytes ≤ 1024 * 1024 * 1024)
    (configurationError "performance.max_image_bytes cannot exceed 1 GiB")

/-- The limits of an accepted configuration keep every coordinate exact as a `double`. -/
theorem ImageLimits.exact_of_check {limits : ImageLimits} (h : limits.check = .ok ()) :
    limits.maxImageWidth ≤ 2 ^ 53 ∧ limits.maxImageHeight ≤ 2 ^ 53 := by
  simp only [ImageLimits.check, except_bind_eq_ok, require_eq_ok, decide_eq_true_eq] at h
  obtain ⟨-, -, -, -, -, -, -, ⟨hwidth, hheight⟩, -⟩ := h
  omega

def pixelFormatChannels : PixelFormat → ℕ
  | .gray8 => 1
  | .bgr8 => 3
  | .rgb8 => 3

/-- `checked_add`, which throws where the source's sum would wrap. -/
def checkedAdd (left right : ℕ) (field : String) : Except EngineError ℕ := do
  require (left + right ≤ sizeMax) (invalidImageError (field ++ " overflows size_t"))
  return left + right

/-- `checked_multiply`. -/
def checkedMultiply (left right : ℕ) (field : String) : Except EngineError ℕ := do
  require (left * right ≤ sizeMax) (invalidImageError (field ++ " overflows size_t"))
  return left * right

/-- An image that passed its check, and its row. -/
structure ValidatedImage where
  view : ImageView
  channels : ℕ
  minimumRowBytes : ℕ
  requiredBytes : ℕ

/-- `validate_image`. -/
def validateImage (image : ImageView) (limits : ImageLimits) :
    Except EngineError ValidatedImage := do
  require (image.width ≠ 0 ∧ image.height ≠ 0)
    (invalidImageError "image width and height must be greater than zero")
  require (!image.bytes.isEmpty) (invalidImageError "image buffer is empty")
  require (image.width ≤ limits.maxImageWidth ∧ image.height ≤ limits.maxImageHeight)
    (invalidImageError "image dimensions exceed configured limits")
  require (image.bytes.length ≤ limits.maxImageBytes)
    (invalidImageError "image buffer exceeds configured byte limit")
  let channels := pixelFormatChannels image.format
  let minimumRowBytes ← checkedMultiply image.width channels "image row size"
  require (minimumRowBytes ≤ image.strideBytes)
    (invalidImageError "image stride is smaller than minimum packed row size")
  let lastRowOffset ← checkedMultiply image.strideBytes (image.height - 1) "image last row offset"
  let requiredBytes ← checkedAdd lastRowOffset minimumRowBytes "image required byte size"
  require (requiredBytes ≤ image.bytes.length)
    (invalidImageError "image buffer is smaller than the strided image extent")
  require (requiredBytes ≤ limits.maxImageBytes)
    (invalidImageError "validated image size exceeds configured byte limit")
  return { view := image, channels, minimumRowBytes, requiredBytes }

/-- What `validate_image` accepts. -/
structure ImageView.Accepted (image : ImageView) (limits : ImageLimits) : Prop where
  width : 0 < image.width ∧ image.width ≤ limits.maxImageWidth
  height : 0 < image.height ∧ image.height ≤ limits.maxImageHeight
  bytes : image.bytes ≠ []
  row : image.width * pixelFormatChannels image.format ≤ sizeMax
  stride : image.width * pixelFormatChannels image.format ≤ image.strideBytes
  tail : image.strideBytes * (image.height - 1) ≤ sizeMax
  extent : image.strideBytes * (image.height - 1) +
    image.width * pixelFormatChannels image.format ≤ sizeMax
  size : image.strideBytes * (image.height - 1) +
    image.width * pixelFormatChannels image.format ≤ image.bytes.length

theorem checkedMultiply_eq_ok {left right : ℕ} {field : String} {product : ℕ} :
    checkedMultiply left right field = .ok product ↔
      left * right ≤ sizeMax ∧ left * right = product := by
  simp only [checkedMultiply, except_bind_eq_ok, require_eq_ok, decide_eq_true_eq]
  constructor
  · rintro ⟨-, hmax, h⟩
    exact ⟨hmax, Except.ok.inj h⟩
  · rintro ⟨hmax, h⟩
    exact ⟨(), hmax, congrArg Except.ok h⟩

theorem checkedAdd_eq_ok {left right : ℕ} {field : String} {sum : ℕ} :
    checkedAdd left right field = .ok sum ↔ left + right ≤ sizeMax ∧ left + right = sum := by
  simp only [checkedAdd, except_bind_eq_ok, require_eq_ok, decide_eq_true_eq]
  constructor
  · rintro ⟨-, hmax, h⟩
    exact ⟨hmax, Except.ok.inj h⟩
  · rintro ⟨hmax, h⟩
    exact ⟨(), hmax, congrArg Except.ok h⟩

/-- What the check accepts, and that it returns the image itself. -/
theorem accepted_of_validateImage {image : ImageView} {limits : ImageLimits}
    {validated : ValidatedImage} (h : validateImage image limits = .ok validated) :
    image.Accepted limits ∧ validated.view = image := by
  simp only [validateImage, except_bind_eq_ok, require_eq_ok, checkedMultiply_eq_ok,
    checkedAdd_eq_ok, decide_eq_true_eq, Bool.not_eq_true', List.isEmpty_eq_false_iff] at h
  obtain ⟨-, hextent, -, hbytes, -, hlimits, -, -, row, ⟨hrow, rfl⟩, -, hstride, tail,
    ⟨htail, rfl⟩, required, ⟨hrequired, rfl⟩, -, hsize, -, -, h⟩ := h
  cases h
  exact ⟨{
    width := ⟨Nat.pos_of_ne_zero hextent.1, hlimits.1⟩
    height := ⟨Nat.pos_of_ne_zero hextent.2, hlimits.2⟩
    bytes := hbytes
    row := hrow
    stride := hstride
    tail := htail
    extent := hrequired
    size := hsize }, rfl⟩

/-- A validated image is the image it was validated from. -/
theorem validateImage_view {image : ImageView} {limits : ImageLimits} {validated : ValidatedImage}
    (h : validateImage image limits = .ok validated) : validated.view = image :=
  (accepted_of_validateImage h).2

end FacLpr

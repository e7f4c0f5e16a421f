import FacLpr.Application.Image
import FacLpr.Foundations.SizeArithmetic

/-!
# Application/SizedImage — image validation over wrapping sizes

`validate_image` as it is computed: sizes wrap, and the guards compare with a quotient and a
difference.  Its checks are those of the exact sizes (`toValidatedImage_validateImage`), so it
accepts what fits in unbounded arithmetic and is within the limits (`exists_validateImage_iff`), and
the index of a byte of such an image does not wrap (`pixelIndex_lt`).
-/

namespace FacLpr

/-! ## What fits -/

/-- Every row is as long as its pixels, and the last one ends inside the buffer. -/
structure ImageView.Fits (image : ImageView) : Prop where
  width : 0 < image.width
  height : 0 < image.height
  stride : image.width * pixelFormatChannels image.format ≤ image.strideBytes
  extent : (image.height - 1) * image.strideBytes +
    image.width * pixelFormatChannels image.format ≤ image.bytes.length

structure ImageView.WithinLimits (image : ImageView) (limits : ImageLimits) : Prop where
  width : image.width ≤ limits.maxImageWidth
  height : image.height ≤ limits.maxImageHeight
  bytes : image.bytes.length ≤ limits.maxImageBytes

theorem pixelFormatChannels_ne_zero (format : PixelFormat) : pixelFormatChannels format ≠ 0 := by
  cases format <;> decide

/-- **What `validate_image` accepts**, of a buffer whose length is a size. -/
theorem exists_validateImage_eq_ok {image : ImageView} {limits : ImageLimits}
    (hsize : image.bytes.length ≤ sizeMax) :
    (∃ validated, validateImage image limits = .ok validated) ↔
      image.Fits ∧ image.WithinLimits limits := by
  constructor
  · rintro ⟨validated, h⟩
    simp only [validateImage, except_bind_eq_ok, require_eq_ok, checkedMultiply_eq_ok,
      checkedAdd_eq_ok, decide_eq_true_eq, Bool.not_eq_true', List.isEmpty_eq_false_iff] at h
    obtain ⟨-, hextent, -, hbytes, -, hlimits, -, hlength, row, ⟨-, rfl⟩, -, hstride, tail,
      ⟨-, rfl⟩, required, ⟨-, rfl⟩, -, hfits, -, -, -⟩ := h
    rw [Nat.mul_comm image.strideBytes] at hfits
    exact ⟨⟨Nat.pos_of_ne_zero hextent.1, Nat.pos_of_ne_zero hextent.2, hstride, hfits⟩,
      ⟨hlimits.1, hlimits.2, hlength⟩⟩
  · rintro ⟨h, hlimits⟩
    have hextent := h.extent
    have hrow : 0 < image.width * pixelFormatChannels image.format :=
      Nat.mul_pos h.width (Nat.pos_of_ne_zero (pixelFormatChannels_ne_zero _))
    have hbytes : image.bytes ≠ [] := List.ne_nil_of_length_pos (by omega)
    have hlength := hlimits.bytes
    refine ⟨⟨image, pixelFormatChannels image.format,
      image.width * pixelFormatChannels image.format,
      image.strideBytes * (image.height - 1) + image.width * pixelFormatChannels image.format⟩, ?_⟩
    simp only [validateImage, except_bind_eq_ok, require_eq_ok, checkedMultiply_eq_ok,
      checkedAdd_eq_ok, decide_eq_true_eq, Bool.not_eq_true', List.isEmpty_eq_false_iff,
      Nat.mul_comm image.strideBytes]
    exact ⟨(), ⟨h.width.ne', h.height.ne'⟩, (), hbytes, (), ⟨hlimits.width, hlimits.height⟩, (),
      hlength, _, ⟨by omega, rfl⟩, (), h.stride, _, ⟨by omega, rfl⟩, _, ⟨by omega, rfl⟩, (),
      hextent, (), by omega, rfl⟩

/-- A validated image needs the bytes up to its last pixel. -/
theorem requiredBytes_of_validateImage {image : ImageView} {limits : ImageLimits}
    {validated : ValidatedImage} (h : validateImage image limits = .ok validated) :
    validated.requiredBytes = (image.height - 1) * image.strideBytes +
      image.width * pixelFormatChannels image.format := by
  simp only [validateImage, except_bind_eq_ok, require_eq_ok, checkedMultiply_eq_ok,
    checkedAdd_eq_ok] at h
  obtain ⟨-, -, -, -, -, -, -, -, row, ⟨-, rfl⟩, -, -, tail, ⟨-, rfl⟩, required, ⟨-, rfl⟩, -, -, -,
    -, h⟩ := h
  obtain rfl := Except.ok.inj h
  rw [Nat.mul_comm image.strideBytes]

/-- The bytes of the pixels of an image that fits are in its buffer. -/
theorem ImageView.Fits.index_lt {image : ImageView} (h : image.Fits) {x y channel : ℕ}
    (hx : x < image.width) (hy : y < image.height)
    (hchannel : channel < pixelFormatChannels image.format) :
    y * image.strideBytes + x * pixelFormatChannels image.format + channel <
      image.bytes.length := by
  have hrow : y * image.strideBytes ≤ (image.height - 1) * image.strideBytes :=
    Nat.mul_le_mul_right _ (Nat.le_sub_one_of_lt hy)
  have hpixel : (x + 1) * pixelFormatChannels image.format ≤
      image.width * pixelFormatChannels image.format := Nat.mul_le_mul_right _ hx
  have hextent := h.extent
  rw [Nat.add_mul, Nat.one_mul] at hpixel
  omega

namespace SizeT

/-! ## Checked arithmetic -/

def checkedMultiply (left right : UInt64) (field : String) : Except EngineError UInt64 := do
  require (!mulOverflows left right) (invalidImageError (field ++ " overflows size_t"))
  return left * right

def checkedAdd (left right : UInt64) (field : String) : Except EngineError UInt64 := do
  require (!addOverflows left right) (invalidImageError (field ++ " overflows size_t"))
  return left + right

/-- **A checked product is exact.** -/
theorem toNat_checkedMultiply (left right : UInt64) (field : String) :
    (checkedMultiply left right field).map UInt64.toNat =
      FacLpr.checkedMultiply left.toNat right.toNat field := by
  have hcheck : (!mulOverflows left right) = decide (left.toNat * right.toNat ≤ sizeMax) := by
    rw [Bool.eq_iff_iff, Bool.not_eq_true', mulOverflows_eq_false, decide_eq_true_eq]
  refine require_map_bind hcheck fun h => ?_
  rw [hcheck, decide_eq_true_eq] at h
  exact congrArg Except.ok (toNat_mul_of_le h)

/-- **A checked sum is exact.** -/
theorem toNat_checkedAdd (left right : UInt64) (field : String) :
    (checkedAdd left right field).map UInt64.toNat =
      FacLpr.checkedAdd left.toNat right.toNat field := by
  have hcheck : (!addOverflows left right) = decide (left.toNat + right.toNat ≤ sizeMax) := by
    rw [Bool.eq_iff_iff, Bool.not_eq_true', addOverflows_eq_false, decide_eq_true_eq]
  refine require_map_bind hcheck fun h => ?_
  rw [hcheck, decide_eq_true_eq] at h
  exact congrArg Except.ok (toNat_add_of_le h)

theorem toNat_of_checkedMultiply {left right product : UInt64} {field : String}
    (h : checkedMultiply left right field = .ok product) :
    product.toNat = left.toNat * right.toNat := by
  have hexact := toNat_checkedMultiply left right field
  rw [h] at hexact
  exact (checkedMultiply_eq_ok.mp hexact.symm).2.symm

theorem toNat_of_checkedAdd {left right sum : UInt64} {field : String}
    (h : checkedAdd left right field = .ok sum) : sum.toNat = left.toNat + right.toNat := by
  have hexact := toNat_checkedAdd left right field
  rw [h] at hexact
  exact (checkedAdd_eq_ok.mp hexact.symm).2.symm

/-! ## Views -/

structure ImageView where
  bytes : ByteSpan
  width : UInt64
  height : UInt64
  strideBytes : UInt64
  format : PixelFormat

structure ImageLimits where
  maxImageWidth : UInt64 := 8192
  maxImageHeight : UInt64 := 8192
  maxImageBytes : UInt64 := 128 * 1024 * 1024

structure ValidatedImage where
  view : ImageView
  channels : UInt64
  minimumRowBytes : UInt64
  requiredBytes : UInt64

/-- The view, with exact sizes. -/
def ImageView.toImageView (image : ImageView) : FacLpr.ImageView :=
  ⟨image.bytes.bytes, image.width.toNat, image.height.toNat, image.strideBytes.toNat, image.format⟩

theorem toImageView_injective : Function.Injective ImageView.toImageView := by
  rintro ⟨⟨bytes, _⟩, width, height, stride, format⟩ ⟨⟨bytes', _⟩, width', height', stride', format'⟩ h
  simp only [ImageView.toImageView, FacLpr.ImageView.mk.injEq, UInt64.toNat_inj] at h
  obtain ⟨rfl, rfl, rfl, rfl, rfl⟩ := h
  rfl

/-- The limits, with exact sizes. -/
def ImageLimits.toImageLimits (limits : ImageLimits) : FacLpr.ImageLimits :=
  ⟨limits.maxImageWidth.toNat, limits.maxImageHeight.toNat, limits.maxImageBytes.toNat⟩

/-- The result, with exact sizes. -/
def ValidatedImage.toValidatedImage (validated : ValidatedImage) : FacLpr.ValidatedImage :=
  ⟨validated.view.toImageView, validated.channels.toNat, validated.minimumRowBytes.toNat,
    validated.requiredBytes.toNat⟩

def pixelFormatChannels : PixelFormat → UInt64
  | .gray8 => 1
  | .bgr8 => 3
  | .rgb8 => 3

@[simp] theorem toNat_pixelFormatChannels (format : PixelFormat) :
    (pixelFormatChannels format).toNat = FacLpr.pixelFormatChannels format := by
  cases format <;> rfl

/-- `validate_image`. -/
def validateImage (image : ImageView) (limits : ImageLimits) :
    Except EngineError ValidatedImage := do
  require (image.width ≠ 0 ∧ image.height ≠ 0)
    (invalidImageError "image width and height must be greater than zero")
  require (!image.bytes.bytes.isEmpty) (invalidImageError "image buffer is empty")
  require (image.width ≤ limits.maxImageWidth ∧ image.height ≤ limits.maxImageHeight)
    (invalidImageError "image dimensions exceed configured limits")
  require (image.bytes.size ≤ limits.maxImageBytes)
    (invalidImageError "image buffer exceeds configured byte limit")
  let channels := pixelFormatChannels image.format
  require (channels ≠ 0) (invalidImageError "unsupported pixel format")
  let minimumRowBytes ← checkedMultiply image.width channels "image row size"
  require (minimumRowBytes ≤ image.strideBytes)
    (invalidImageError "image stride is smaller than minimum packed row size")
  let rowsBeforeLast := image.height - 1
  let lastRowOffset ← checkedMultiply image.strideBytes rowsBeforeLast "image last row offset"
  let requiredBytes ← checkedAdd lastRowOffset minimumRowBytes "image required byte size"
  require (requiredBytes ≤ image.bytes.size)
    (invalidImageError "image buffer is smaller than the strided image extent")
  require (requiredBytes ≤ limits.maxImageBytes)
    (invalidImageError "validated image size exceeds configured byte limit")
  return { view := image, channels, minimumRowBytes, requiredBytes }

/-- **The wrapping checks are the exact ones.** -/
theorem toValidatedImage_validateImage (image : ImageView) (limits : ImageLimits) :
    (validateImage image limits).map ValidatedImage.toValidatedImage =
      FacLpr.validateImage image.toImageView limits.toImageLimits := by
  refine require_map_bind (decide_eq_decide.mpr (by
    simp [ImageView.toImageView, size_ne_zero_iff])) fun hextent => ?_
  have hheight := (of_decide_eq_true hextent).2
  refine require_map_bind rfl fun _ => ?_
  refine require_map_bind (decide_eq_decide.mpr (by
    simp [ImageView.toImageView, ImageLimits.toImageLimits, UInt64.le_iff_toNat_le])) fun _ => ?_
  refine require_map_bind (decide_eq_decide.mpr (by
    simp [ImageView.toImageView, ImageLimits.toImageLimits, UInt64.le_iff_toNat_le])) fun _ => ?_
  have hchannels : pixelFormatChannels image.format ≠ 0 := by cases image.format <;> decide
  refine (congrArg _ (require_bind_of_true (decide_eq_true hchannels))).trans ?_
  refine except_map_bind (by
    rw [toNat_checkedMultiply, toNat_pixelFormatChannels]; rfl) fun row _ => ?_
  refine require_map_bind (decide_eq_decide.mpr (by
    simp [ImageView.toImageView, UInt64.le_iff_toNat_le])) fun _ => ?_
  refine except_map_bind (by
    rw [toNat_checkedMultiply, toNat_sub_one hheight]; rfl) fun tail _ => ?_
  refine except_map_bind (toNat_checkedAdd _ _ _) fun required _ => ?_
  refine require_map_bind (decide_eq_decide.mpr (by
    simp [ImageView.toImageView, UInt64.le_iff_toNat_le])) fun _ => ?_
  refine require_map_bind (decide_eq_decide.mpr (by
    simp [ImageLimits.toImageLimits, UInt64.le_iff_toNat_le])) fun _ => ?_
  change Except.ok _ = Except.ok _
  simp [ValidatedImage.toValidatedImage, ImageView.toImageView]

/-- **What `validate_image` accepts.** -/
theorem exists_validateImage_iff (image : ImageView) (limits : ImageLimits) :
    (∃ validated, validateImage image limits = .ok validated) ↔
      image.toImageView.Fits ∧ image.toImageView.WithinLimits limits.toImageLimits := by
  rw [except_exists_eq_ok_of_map (toValidatedImage_validateImage image limits)]
  exact exists_validateImage_eq_ok image.bytes.fits

/-- The index of a byte of a pixel, as it is computed. -/
def ImageView.pixelIndex (image : ImageView) (x y channel : UInt64) : UInt64 :=
  y * image.strideBytes + x * pixelFormatChannels image.format + channel

/-- Every byte of every pixel has an exact index, inside the buffer. -/
def ImageView.Addressable (image : ImageView) : Prop :=
  ∀ x y channel : UInt64, x < image.width → y < image.height →
    channel < pixelFormatChannels image.format →
      (image.pixelIndex x y channel).toNat = y.toNat * image.strideBytes.toNat +
        x.toNat * (pixelFormatChannels image.format).toNat + channel.toNat ∧
      image.pixelIndex x y channel < image.bytes.size

/-- **An image that fits is addressable.** -/
theorem addressable_of_fits {image : ImageView} (h : image.toImageView.Fits) :
    image.Addressable := by
  intro x y channel hx hy hchannel
  rw [UInt64.lt_iff_toNat_lt] at hx hy hchannel
  rw [toNat_pixelFormatChannels] at hchannel
  have hlt := h.index_lt hx hy hchannel
  have hfits := image.bytes.fits
  simp only [ImageView.toImageView] at hlt
  rw [← toNat_pixelFormatChannels] at hlt
  have hrow : (y * image.strideBytes).toNat = y.toNat * image.strideBytes.toNat :=
    toNat_mul_of_le (by omega)
  have hcolumn : (x * pixelFormatChannels image.format).toNat =
      x.toNat * (pixelFormatChannels image.format).toNat := toNat_mul_of_le (by omega)
  have hpixel : (y * image.strideBytes + x * pixelFormatChannels image.format).toNat =
      y.toNat * image.strideBytes.toNat + x.toNat * (pixelFormatChannels image.format).toNat := by
    rw [toNat_add_of_le (by rw [hrow, hcolumn]; omega), hrow, hcolumn]
  have hindex : (image.pixelIndex x y channel).toNat = y.toNat * image.strideBytes.toNat +
      x.toNat * (pixelFormatChannels image.format).toNat + channel.toNat := by
    rw [ImageView.pixelIndex, toNat_add_of_le (by rw [hpixel]; omega), hpixel]
  refine ⟨hindex, ?_⟩
  rw [UInt64.lt_iff_toNat_lt, hindex, ByteSpan.toNat_size]
  exact hlt

end SizeT

end FacLpr

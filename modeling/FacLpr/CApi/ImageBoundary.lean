import FacLpr.Application.SizedImage
import FacLpr.CApi.EngineHandle

/-!
# CApi/ImageBoundary — the images the C interface lets in

The C interface checks an image before the application does, with code of its own.  Over wrapping
sizes each accepts exactly what fits in unbounded arithmetic, the application what is within its
limits besides (`validation_exact`), so every pixel loop past the boundary stays in its buffer.
-/

namespace FacLpr

/-! ## What a caller may hand in -/

/-- The view the caller describes, in this pixel format. -/
def ImageViewV1.view (image : ImageViewV1) (format : PixelFormat) : ImageView :=
  ⟨image.data.getD [], image.width.toNat, image.height.toNat, image.strideBytes.toNat, format⟩

/-- A known version and pixel format, no field left out, and a buffer the rows fit in. -/
structure ImageViewV1.Valid (image : ImageViewV1) (format : PixelFormat) : Prop where
  version : sizeOfImageViewV1 ≤ image.structSize ∧ image.abiVersion = FacLpr.abiVersion
  known : toPixelFormat image.pixelFormat = .ok format
  fields : image.data.getD [] ≠ [] ∧ image.width ≠ 0 ∧ image.height ≠ 0 ∧ image.strideBytes ≠ 0
  stride : image.width.toNat * pixelFormatChannels format ≤ image.strideBytes.toNat
  extent : (image.height.toNat - 1) * image.strideBytes.toNat +
    image.width.toNat * pixelFormatChannels format ≤ (image.data.getD []).length

/-- A valid image fits its buffer. -/
theorem ImageViewV1.Valid.fits {image : ImageViewV1} {format : PixelFormat}
    (h : image.Valid format) : (image.view format).Fits where
  width := Nat.pos_of_ne_zero fun hzero => h.fields.2.1 (UInt32.toNat_inj.mp hzero)
  height := Nat.pos_of_ne_zero fun hzero => h.fields.2.2.1 (UInt32.toNat_inj.mp hzero)
  stride := h.stride
  extent := h.extent

/-- **What the C interface accepts**, of a buffer whose length is a size. -/
theorem validateImageV1_eq_ok {image : ImageViewV1} {view : ImageView}
    (hsize : (image.data.getD []).length ≤ sizeMax) :
    validateImageV1 (some image) = .ok view ↔
      ∃ format, image.Valid format ∧ view = image.view format := by
  simp only [validateImageV1, except_bind_eq_ok, require_eq_ok, checkedMultiply_eq_ok,
    checkedAdd_eq_ok, decide_eq_true_eq, Bool.and_eq_true, Bool.not_eq_true',
    decide_eq_false_iff_not, beq_iff_eq, bne_iff_ne, List.isEmpty_eq_false_iff, UInt32.not_lt]
  constructor
  · rintro ⟨-, hversion, -, ⟨⟨⟨hbytes, hwidth⟩, hheight⟩, hstride⟩, format, hformat, row, ⟨-, rfl⟩,
      -, hrow, tail, ⟨-, rfl⟩, required, ⟨-, rfl⟩, -, hextent, h⟩
    exact ⟨format, ⟨hversion, hformat, ⟨hbytes, hwidth, hheight, hstride⟩, hrow, hextent⟩,
      (Except.ok.inj h).symm⟩
  · rintro ⟨format, h, rfl⟩
    obtain ⟨hbytes, hwidth, hheight, hstride⟩ := h.fields
    have hextent := h.extent
    exact ⟨(), h.version, (), ⟨⟨⟨hbytes, hwidth⟩, hheight⟩, hstride⟩, format, h.known, _,
      ⟨by omega, rfl⟩, (), h.stride, _, ⟨by omega, rfl⟩, _, ⟨by omega, rfl⟩, (), hextent, rfl⟩

namespace SizeT

/-! ## The check of the C interface -/

/-- An image of the caller; a null pointer to its bytes is `none`. -/
structure ImageViewV1 where
  structSize : UInt32
  abiVersion : UInt32
  data : Option ByteSpan
  width : UInt32
  height : UInt32
  strideBytes : UInt32
  pixelFormat : UInt32

/-- The image, with exact sizes. -/
def ImageViewV1.toImageViewV1 (image : ImageViewV1) : FacLpr.ImageViewV1 :=
  ⟨image.structSize, image.abiVersion, image.data.map ByteSpan.bytes, image.width, image.height,
    image.strideBytes, image.pixelFormat⟩

/-- `validate_image` of the C interface. -/
def validateImageV1 : Option ImageViewV1 → Except EngineError ImageView
  | none => .error (invalidImageError "C ABI image is null")
  | some image => do
      require (!decide (image.structSize < sizeOfImageViewV1) && image.abiVersion == abiVersion)
        (invalidImageError "C ABI image struct/version is invalid")
      let bytes := image.data.getD .empty
      require (bytes.size != 0 && image.width != 0 && image.height != 0 && image.strideBytes != 0)
        (invalidImageError "C ABI image fields are incomplete")
      let format ← toPixelFormat image.pixelFormat
      let channels := pixelFormatChannels format
      let packedRow ← checkedMultiply image.width.toUInt64 channels "C ABI packed row"
      require (packedRow ≤ image.strideBytes.toUInt64)
        (invalidImageError "C ABI image stride is too small")
      let tail ← checkedMultiply (image.height.toUInt64 - 1) image.strideBytes.toUInt64
        "C ABI image tail"
      let required ← checkedAdd tail packedRow "C ABI image extent"
      require (required ≤ bytes.size) (invalidImageError "C ABI image buffer is too small")
      return ⟨bytes, image.width.toUInt64, image.height.toUInt64, image.strideBytes.toUInt64, format⟩

/-- **The wrapping checks are the exact ones.** -/
theorem toImageView_validateImageV1 (image : Option ImageViewV1) :
    (validateImageV1 image).map ImageView.toImageView =
      FacLpr.validateImageV1 (image.map ImageViewV1.toImageViewV1) := by
  cases image with
  | none => rfl
  | some image =>
    have hbytes : (image.data.getD .empty).bytes = (image.data.map ByteSpan.bytes).getD [] := by
      cases image.data <;> rfl
    refine require_map_bind rfl fun _ => ?_
    refine require_map_bind ?_ fun hcomplete => ?_
    · have hsize : ((image.data.getD .empty).size != 0) =
          !((image.data.map ByteSpan.bytes).getD []).isEmpty := by
        rw [← hbytes, Bool.eq_iff_iff, bne_iff_ne, size_ne_zero_iff, ByteSpan.toNat_size]
        simp
      rw [hsize]
      rfl
    simp only [Bool.and_eq_true, bne_iff_ne] at hcomplete
    have hheight : image.height.toUInt64 ≠ 0 := by
      rw [size_ne_zero_iff, UInt32.toNat_toUInt64]
      exact fun h => hcomplete.1.2 (UInt32.toNat_inj.mp h)
    refine except_map_bind (congrFun Except.map_id _) fun format _ => ?_
    refine except_map_bind (by
      rw [toNat_checkedMultiply, toNat_pixelFormatChannels, UInt32.toNat_toUInt64]; rfl)
      fun row _ => ?_
    refine require_map_bind (decide_eq_decide.mpr (by
      simp [ImageViewV1.toImageViewV1, UInt64.le_iff_toNat_le])) fun _ => ?_
    refine except_map_bind (by
      rw [toNat_checkedMultiply, toNat_sub_one hheight, UInt32.toNat_toUInt64,
        UInt32.toNat_toUInt64]; rfl) fun tail _ => ?_
    refine except_map_bind (toNat_checkedAdd _ _ _) fun required _ => ?_
    refine require_map_bind (decide_eq_decide.mpr (by
      rw [UInt64.le_iff_toNat_le, ByteSpan.toNat_size, hbytes]; rfl)) fun _ => ?_
    change Except.ok _ = Except.ok _
    simp [ImageView.toImageView, ImageViewV1.toImageViewV1, hbytes]

/-- The bytes of the caller are as many as a size can count. -/
theorem length_data_le (image : ImageViewV1) :
    (image.toImageViewV1.data.getD []).length ≤ sizeMax := by
  simp only [ImageViewV1.toImageViewV1]
  cases image.data with
  | none => exact Nat.zero_le _
  | some span => exact span.fits

/-- **What the C interface accepts.** -/
theorem validateImageV1_iff {image : ImageViewV1} {view : ImageView} :
    validateImageV1 (some image) = .ok view ↔ ∃ format, image.toImageViewV1.Valid format ∧
      view.toImageView = image.toImageViewV1.view format := by
  rw [except_eq_ok_iff_of_map toImageView_injective (toImageView_validateImageV1 (some image))]
  exact validateImageV1_eq_ok (length_data_le image)

/-- A view the C interface returns fits its buffer. -/
theorem fits_of_validateImageV1 {image : Option ImageViewV1} {view : ImageView}
    (h : validateImageV1 image = .ok view) : view.toImageView.Fits := by
  cases image with
  | none => cases h
  | some image =>
    obtain ⟨format, hvalid, hview⟩ := validateImageV1_iff.mp h
    exact hview ▸ hvalid.fits

/-- **Image validation is exact.**  The C interface accepts what is valid in unbounded arithmetic,
the application what is within its limits besides, and what either accepts is addressable. -/
theorem validation_exact (limits : ImageLimits) :
    (∀ (image : ImageViewV1) (view : ImageView), validateImageV1 (some image) = .ok view ↔
        ∃ format, image.toImageViewV1.Valid format ∧
          view.toImageView = image.toImageViewV1.view format) ∧
      (∀ (image : Option ImageViewV1) (view : ImageView), validateImageV1 image = .ok view →
        view.Addressable ∧ ((∃ validated, validateImage view limits = .ok validated) ↔
          view.toImageView.WithinLimits limits.toImageLimits)) ∧
      ∀ (view : ImageView) (validated : ValidatedImage),
        validateImage view limits = .ok validated → view.Addressable := by
  refine ⟨fun image view => validateImageV1_iff, fun image view h => ⟨?_, ?_⟩,
    fun view validated h => ?_⟩
  · exact addressable_of_fits (fits_of_validateImageV1 h)
  · rw [exists_validateImage_iff]
    exact and_iff_right (fits_of_validateImageV1 h)
  · exact addressable_of_fits ((exists_validateImage_iff view limits).mp ⟨validated, h⟩).1

/-- Two gray rows of two pixels, the last one without its padding. -/
def unpaddedView : ImageView := ⟨⟨[1, 2, 0, 3, 4], by decide⟩, 2, 2, 3, .gray8⟩

theorem validation_exact_unpadded :
    (∃ validated, validateImage unpaddedView {} = .ok validated) ∧
      (unpaddedView.pixelIndex 1 1 0).toNat = 4 ∧
      unpaddedView.pixelIndex 1 1 0 < unpaddedView.bytes.size := by
  obtain ⟨hboundary, hviews, -⟩ := validation_exact {}
  have haccepted := (hboundary
    ⟨sizeOfImageViewV1, abiVersion, some unpaddedView.bytes, 2, 2, 3, 0⟩ unpaddedView).mpr
      ⟨.gray8, ⟨⟨by decide, rfl⟩, rfl, by decide, by decide, by decide⟩, rfl⟩
  obtain ⟨haddressable, hlimits⟩ := hviews _ _ haccepted
  exact ⟨hlimits.mpr ⟨by decide, by decide, by decide⟩,
    haddressable 1 1 0 (by decide) (by decide) (by decide)⟩

end SizeT

end FacLpr

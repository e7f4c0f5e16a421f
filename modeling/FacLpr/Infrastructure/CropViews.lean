import FacLpr.Application.SizedImage
import FacLpr.Infrastructure.NativeImage

/-!
# Infrastructure/CropViews — views of a part of an image, over wrapping sizes

A crop is the span from the first byte of its region to the last, under the stride of its source.
In exact arithmetic crops compose (`crop_crop`), and a crop of an image that fits does
(`Fits.crop`).  `make_crop_view` over wrapping sizes returns exactly these (`makeCropView_iff`), so
it refuses a region whose sums wrap as it does any other that is not inside (`crops_compose`).
-/

namespace FacLpr

/-! ## Exact crops -/

namespace ImageRegion

/-- Not empty, and inside an image of this size. -/
def Inside (region : ImageRegion) (width height : ℕ) : Prop :=
  region.empty = false ∧ region.x + region.width ≤ width ∧ region.y + region.height ≤ height

theorem empty_eq_false {region : ImageRegion} :
    region.empty = false ↔ 0 < region.width ∧ 0 < region.height := by
  rw [empty, decide_eq_false_iff_not]
  omega

/-- A region of a region. -/
def compose (outer inner : ImageRegion) : ImageRegion :=
  ⟨outer.x + inner.x, outer.y + inner.y, inner.width, inner.height⟩

theorem Inside.compose {outer inner : ImageRegion} {width height : ℕ}
    (houter : outer.Inside width height) (hinner : inner.Inside outer.width outer.height) :
    (outer.compose inner).Inside width height := by
  obtain ⟨-, hright, hbottom⟩ := houter
  obtain ⟨hempty, hright', hbottom'⟩ := hinner
  refine ⟨hempty, ?_, ?_⟩ <;> simp only [ImageRegion.compose] <;> omega

end ImageRegion

namespace ImageView

variable (image : ImageView) (region : ImageRegion)

/-- Where the first pixel of the region begins. -/
def cropOffset : ℕ := region.y * image.strideBytes + region.x * pixelFormatChannels image.format

/-- How far the last pixel of the region ends behind it. -/
def cropExtent : ℕ :=
  (region.height - 1) * image.strideBytes + region.width * pixelFormatChannels image.format

/-- The view of a region. -/
def crop : ImageView where
  bytes := (image.bytes.drop (image.cropOffset region)).take (image.cropExtent region)
  width := region.width
  height := region.height
  strideBytes := image.strideBytes
  format := image.format

variable {image region}

/-- **A region inside the image ends where the image does, or before.** -/
theorem cropOffset_add_le (h : region.Inside image.width image.height) :
    image.cropOffset region + image.cropExtent region ≤
      image.cropExtent ⟨0, 0, image.width, image.height⟩ := by
  obtain ⟨hempty, hright, hbottom⟩ := h
  have hheight := (ImageRegion.empty_eq_false.mp hempty).2
  have hrows : (region.y + (region.height - 1)) * image.strideBytes ≤
      (image.height - 1) * image.strideBytes := Nat.mul_le_mul_right _ (by omega)
  have hcolumns : (region.x + region.width) * pixelFormatChannels image.format ≤
      image.width * pixelFormatChannels image.format := Nat.mul_le_mul_right _ hright
  rw [Nat.add_mul] at hrows hcolumns
  simp only [cropOffset, cropExtent]
  omega

theorem Fits.cropExtent_le (h : image.Fits) (hregion : region.Inside image.width image.height) :
    image.cropOffset region + image.cropExtent region ≤ image.bytes.length :=
  (cropOffset_add_le hregion).trans h.extent

/-- The span of a crop ends at its last byte. -/
theorem Fits.length_crop (h : image.Fits) (hregion : region.Inside image.width image.height) :
    (image.crop region).bytes.length = image.cropExtent region := by
  have hle := h.cropExtent_le hregion
  simp only [ImageView.crop, List.length_take, List.length_drop]
  omega

/-- **A crop of an image that fits does.** -/
theorem Fits.crop (h : image.Fits) (hregion : region.Inside image.width image.height) :
    (image.crop region).Fits := by
  obtain ⟨hwidth, hheight⟩ := ImageRegion.empty_eq_false.mp hregion.1
  have hright := hregion.2.1
  refine ⟨hwidth, hheight, ?_, (h.length_crop hregion).ge⟩
  calc region.width * pixelFormatChannels image.format
      ≤ image.width * pixelFormatChannels image.format := Nat.mul_le_mul_right _ (by omega)
    _ ≤ image.strideBytes := h.stride

/-- A crop is within the limits of its source. -/
theorem WithinLimits.crop {limits : ImageLimits} (h : image.WithinLimits limits)
    (hregion : region.Inside image.width image.height) :
    (image.crop region).WithinLimits limits := by
  obtain ⟨-, hright, hbottom⟩ := hregion
  have hwidth := h.width
  have hheight := h.height
  have hbytes := h.bytes
  refine ⟨?_, ?_, ?_⟩ <;> simp only [ImageView.crop, List.length_take, List.length_drop] <;> omega

/-- The bytes of a crop are those of its source, from its offset on. -/
theorem getElem?_crop {i : ℕ} (h : i < image.cropExtent region) :
    (image.crop region).bytes[i]? = image.bytes[image.cropOffset region + i]? := by
  rw [ImageView.crop, List.getElem?_take_of_lt h, List.getElem?_drop]

theorem cropOffset_compose (outer inner : ImageRegion) : image.cropOffset (outer.compose inner) =
    image.cropOffset outer + (image.crop outer).cropOffset inner := by
  simp only [cropOffset, ImageRegion.compose, ImageView.crop, Nat.add_mul]
  omega

/-- **Crops compose.** -/
theorem crop_crop {outer inner : ImageRegion} (h : inner.Inside outer.width outer.height) :
    (image.crop outer).crop inner = image.crop (outer.compose inner) := by
  have hle : (image.crop outer).cropOffset inner + (image.crop outer).cropExtent inner ≤
      image.cropExtent outer := @cropOffset_add_le (image.crop outer) inner h
  have hspan : (image.crop outer).bytes =
      (image.bytes.drop (image.cropOffset outer)).take (image.cropExtent outer) := rfl
  have hbytes : ((image.crop outer).crop inner).bytes =
      (image.crop (outer.compose inner)).bytes := by
    change ((image.crop outer).bytes.drop ((image.crop outer).cropOffset inner)).take
      ((image.crop outer).cropExtent inner) =
        (image.bytes.drop (image.cropOffset (outer.compose inner))).take
          ((image.crop outer).cropExtent inner)
    rw [cropOffset_compose, ← List.drop_drop, hspan, List.drop_take, List.take_take,
      Nat.min_eq_left (by omega)]
  exact congrArg (fun bytes : List Byte => (⟨bytes, inner.width, inner.height, image.strideBytes,
    image.format⟩ : ImageView)) hbytes

end ImageView

namespace NativeImage

theorem validateRegion_eq_ok {width height : ℕ} {region : ImageRegion} {u : Unit} :
    validateRegion width height region = .ok u ↔ region.Inside width height ∧
      region.x + region.width ≤ sizeMax ∧ region.y + region.height ≤ sizeMax := by
  simp only [validateRegion, except_bind_eq_ok, require_eq_ok, checkedAdd_eq_ok, decide_eq_true_eq,
    Bool.not_eq_true']
  constructor
  · rintro ⟨-, hempty, right, ⟨hright, rfl⟩, bottom, ⟨hbottom, rfl⟩, hinside⟩
    exact ⟨⟨hempty, hinside⟩, hright, hbottom⟩
  · rintro ⟨⟨hempty, hinside⟩, hright, hbottom⟩
    exact ⟨(), hempty, _, ⟨hright, rfl⟩, _, ⟨hbottom, rfl⟩, hinside⟩

/-- **Only a region inside the image has a view**, its crop, whatever the image. -/
theorem crop_of_makeCropView {source view : ImageView} {region : ImageRegion}
    (h : makeCropView source region = .ok view) :
    region.Inside source.width source.height ∧ view = source.crop region := by
  simp only [makeCropView, cropBytes, except_bind_eq_ok, require_eq_ok, checkedMultiply_eq_ok,
    checkedAdd_eq_ok, validateRegion_eq_ok] at h
  obtain ⟨-, ⟨hinside, -⟩, bytes, ⟨x, ⟨-, rfl⟩, y, ⟨-, rfl⟩, offset, ⟨-, rfl⟩, row, ⟨-, rfl⟩,
    tail, ⟨-, rfl⟩, required, ⟨-, rfl⟩, -, -, hbytes⟩, hview⟩ := h
  obtain rfl := Except.ok.inj hbytes
  exact ⟨hinside, (Except.ok.inj hview).symm⟩

/-- **A crop view of an image that fits** is the crop of a region inside it. -/
theorem makeCropView_eq_ok {source view : ImageView} {region : ImageRegion} (h : source.Fits)
    (hsize : source.cropExtent ⟨0, 0, source.width, source.height⟩ ≤ sizeMax) :
    makeCropView source region = .ok view ↔
      region.Inside source.width source.height ∧ view = source.crop region := by
  have hlength := h.extent
  have hchannels := Nat.pos_of_ne_zero (pixelFormatChannels_ne_zero source.format)
  refine ⟨crop_of_makeCropView, ?_⟩
  simp only [makeCropView, cropBytes, except_bind_eq_ok, require_eq_ok, checkedMultiply_eq_ok,
    checkedAdd_eq_ok, decide_eq_true_eq, validateRegion_eq_ok]
  rintro ⟨hinside, rfl⟩
  have hextent := h.cropExtent_le hinside
  have hinner := (ImageView.cropOffset_add_le hinside).trans hsize
  simp only [ImageView.cropOffset, ImageView.cropExtent] at hextent hinner hsize
  have hright := hinside.2.1
  have hbottom := hinside.2.2
  have hwidth : source.width ≤ source.width * pixelFormatChannels source.format :=
    Nat.le_mul_of_pos_right _ hchannels
  have hheight : source.height - 1 ≤ (source.height - 1) * source.strideBytes :=
    Nat.le_mul_of_pos_right _ (by have := h.width; have := h.stride; omega)
  have hpositive := h.width
  refine ⟨(), ⟨hinside, by omega, by omega⟩, _, ⟨_, ⟨by omega, rfl⟩, _, ⟨by omega, rfl⟩, _,
    ⟨by omega, rfl⟩, _, ⟨by omega, rfl⟩, _, ⟨by omega, rfl⟩, _, ⟨by omega, rfl⟩, (),
    ⟨by omega, by omega⟩, rfl⟩, rfl⟩

end NativeImage

/-! ## Crops over wrapping sizes -/

namespace SizeT

structure ImageRegion where
  x : UInt64
  y : UInt64
  width : UInt64
  height : UInt64

namespace ImageRegion

def empty (region : ImageRegion) : Bool := region.width = 0 ∨ region.height = 0

/-- The region, with exact sizes. -/
def toImageRegion (region : ImageRegion) : FacLpr.ImageRegion :=
  ⟨region.x.toNat, region.y.toNat, region.width.toNat, region.height.toNat⟩

/-- A region of a region. -/
def compose (outer inner : ImageRegion) : ImageRegion :=
  ⟨outer.x + inner.x, outer.y + inner.y, inner.width, inner.height⟩

theorem empty_toImageRegion (region : ImageRegion) :
    region.toImageRegion.empty = region.empty := by
  refine decide_eq_decide.mpr ?_
  rw [← UInt64.toNat_inj, ← UInt64.toNat_inj]
  rfl

end ImageRegion

def validateRegion (sourceWidth sourceHeight : UInt64) (region : ImageRegion) :
    Except EngineError Unit := do
  require (!region.empty) (invalidImageError "crop region must be non-empty")
  let right ← checkedAdd region.x region.width "crop x + width"
  let bottom ← checkedAdd region.y region.height "crop y + height"
  require (right ≤ sourceWidth ∧ bottom ≤ sourceHeight)
    (invalidImageError "crop region is outside source image bounds")

def pixelBytes (format : PixelFormat) : Except EngineError UInt64 := do
  let channels := pixelFormatChannels format
  require (channels ≠ 0) (invalidImageError "unsupported pixel format")
  return channels

/-- `crop_bytes`, of any kind of span. -/
def cropBytes {S : Type} [Span S] (source : S) (sourceStride : UInt64) (format : PixelFormat)
    (region : ImageRegion) : Except EngineError S := do
  let bytesPerPixel ← pixelBytes format
  let xOffset ← checkedMultiply region.x bytesPerPixel "crop x byte offset"
  let yOffset ← checkedMultiply region.y sourceStride "crop y byte offset"
  let offset ← checkedAdd yOffset xOffset "crop byte offset"
  let rowBytes ← checkedMultiply region.width bytesPerPixel "crop row bytes"
  let tailRows := region.height - 1
  let tailOffset ← checkedMultiply tailRows sourceStride "crop tail offset"
  let required ← checkedAdd tailOffset rowBytes "crop required bytes"
  require (offset ≤ Span.size source ∧ required ≤ Span.size source - offset)
    (invalidImageError "crop view exceeds source buffer")
  return Span.subspan source offset required

/-- `make_crop_view`. -/
def makeCropView (source : ImageView) (region : ImageRegion) : Except EngineError ImageView := do
  validateRegion source.width source.height region
  return {
    bytes := ← cropBytes source.bytes source.strideBytes source.format region
    width := region.width
    height := region.height
    strideBytes := source.strideBytes
    format := source.format }

/-- Every pixel has bytes. -/
theorem pixelBytes_eq (format : PixelFormat) :
    pixelBytes format = .ok (pixelFormatChannels format) := by
  cases format <;> rfl

theorem validateRegion_toImageRegion (width height : UInt64) (region : ImageRegion) :
    (validateRegion width height region).map id =
      NativeImage.validateRegion width.toNat height.toNat region.toImageRegion := by
  refine require_map_bind (by rw [region.empty_toImageRegion]) fun _ => ?_
  refine except_map_bind (toNat_checkedAdd _ _ _) fun right _ => ?_
  refine except_map_bind (toNat_checkedAdd _ _ _) fun bottom _ => ?_
  rw [Except.map_id, id]
  exact congrArg (require · _) (decide_eq_decide.mpr (by simp only [UInt64.le_iff_toNat_le]))

/-- **The wrapping span of a crop is the exact one**, of a region that is not empty. -/
theorem bytes_cropBytes (source : ByteSpan) (sourceStride : UInt64) (format : PixelFormat)
    {region : ImageRegion} (hheight : region.height ≠ 0) :
    (cropBytes source sourceStride format region).map ByteSpan.bytes =
      NativeImage.cropBytes source.bytes sourceStride.toNat format region.toImageRegion := by
  have hok : ∀ (a : UInt64) (f : UInt64 → Except EngineError ByteSpan),
      (Except.ok a >>= f) = f a := fun _ _ => rfl
  rw [cropBytes, pixelBytes_eq, hok, NativeImage.cropBytes]
  refine except_map_bind (by rw [toNat_checkedMultiply, toNat_pixelFormatChannels]; rfl)
    fun x _ => ?_
  refine except_map_bind (toNat_checkedMultiply _ _ _) fun y _ => ?_
  refine except_map_bind (toNat_checkedAdd _ _ _) fun offset _ => ?_
  refine except_map_bind (by
    rw [toNat_checkedMultiply, toNat_pixelFormatChannels]; rfl) fun row _ => ?_
  refine except_map_bind (by rw [toNat_checkedMultiply, toNat_sub_one hheight]; rfl) fun tail _ => ?_
  refine except_map_bind (toNat_checkedAdd _ _ _) fun required _ => ?_
  refine require_map_bind (decide_eq_decide.mpr ?_) fun _ => rfl
  change offset ≤ source.size ∧ required ≤ source.size - offset ↔ _
  rw [UInt64.le_iff_toNat_le, UInt64.le_iff_toNat_le, ByteSpan.toNat_size]
  refine and_congr_right fun hle => ?_
  rw [UInt64.toNat_sub_of_le _ _ (UInt64.le_iff_toNat_le.mpr (source.toNat_size ▸ hle)),
    ByteSpan.toNat_size]

/-- **The wrapping crop is the exact one**, whatever the source and the region. -/
theorem toImageView_makeCropView (source : ImageView) (region : ImageRegion) :
    (makeCropView source region).map ImageView.toImageView =
      NativeImage.makeCropView source.toImageView region.toImageRegion := by
  refine except_map_bind (validateRegion_toImageRegion _ _ region) fun u hregion => ?_
  have hheight : region.height ≠ 0 := by
    obtain ⟨_, hempty, -⟩ := except_bind_eq_ok.mp hregion
    rw [require_eq_ok, Bool.not_eq_true', ← region.empty_toImageRegion,
      ImageRegion.empty_eq_false] at hempty
    exact size_ne_zero_iff.mpr hempty.2.ne'
  exact except_map_bind (bytes_cropBytes source.bytes source.strideBytes source.format hheight)
    fun _ _ => rfl

variable {source crop : ImageView} {region : ImageRegion}

/-- **What `make_crop_view` returns**, of an image that fits. -/
theorem makeCropView_iff (h : source.toImageView.Fits) : makeCropView source region = .ok crop ↔
    region.toImageRegion.Inside source.width.toNat source.height.toNat ∧
      crop.toImageView = source.toImageView.crop region.toImageRegion := by
  rw [except_eq_ok_iff_of_map toImageView_injective (toImageView_makeCropView source region)]
  exact NativeImage.makeCropView_eq_ok h (h.extent.trans source.bytes.fits)

/-- A region inside an image that fits has a view. -/
theorem exists_makeCropView (h : source.toImageView.Fits)
    (hregion : region.toImageRegion.Inside source.width.toNat source.height.toNat) :
    ∃ crop, makeCropView source region = .ok crop := by
  rw [except_exists_eq_ok_of_map (toImageView_makeCropView source region)]
  exact ⟨_, (NativeImage.makeCropView_eq_ok h (h.extent.trans source.bytes.fits)).mpr
    ⟨hregion, rfl⟩⟩

/-- A region that is not inside has none, whatever the image. -/
theorem exists_error_of_not_inside
    (h : ¬ region.toImageRegion.Inside source.width.toNat source.height.toNat) :
    ∃ e, makeCropView source region = .error e := by
  cases hcrop : makeCropView source region with
  | error e => exact ⟨e, rfl⟩
  | ok crop =>
    have hexact := toImageView_makeCropView source region
    rw [hcrop] at hexact
    exact absurd ((NativeImage.crop_of_makeCropView hexact.symm).1) h

/-- A byte of a pixel, `none` outside the span. -/
def ImageView.pixel (image : ImageView) (x y channel : UInt64) : Option Byte :=
  image.bytes.bytes[(image.pixelIndex x y channel).toNat]?

/-- A region inside a region does not wrap. -/
theorem toImageRegion_compose {outer inner : ImageRegion} {width height : UInt64}
    (houter : outer.toImageRegion.Inside width.toNat height.toNat)
    (hinner : inner.toImageRegion.Inside outer.width.toNat outer.height.toNat) :
    (outer.compose inner).toImageRegion = outer.toImageRegion.compose inner.toImageRegion := by
  have hwidth := toNat_le_sizeMax width
  have hheight := toNat_le_sizeMax height
  obtain ⟨-, hright, hbottom⟩ := houter
  obtain ⟨-, hright', hbottom'⟩ := hinner
  simp only [ImageRegion.toImageRegion] at hright hbottom hright' hbottom'
  have hx : (outer.x + inner.x).toNat = outer.x.toNat + inner.x.toNat :=
    toNat_add_of_le (by omega)
  have hy : (outer.y + inner.y).toNat = outer.y.toNat + inner.y.toNat :=
    toNat_add_of_le (by omega)
  simp only [ImageRegion.toImageRegion, ImageRegion.compose, FacLpr.ImageRegion.compose, hx, hy]

/-- A crop has the shape of its region. -/
theorem shape_crop (hcrop : crop.toImageView = source.toImageView.crop region.toImageRegion) :
    crop.width = region.width ∧ crop.height = region.height ∧
      crop.strideBytes = source.strideBytes ∧ crop.format = source.format :=
  ⟨UInt64.toNat_inj.mp (congrArg FacLpr.ImageView.width hcrop),
    UInt64.toNat_inj.mp (congrArg FacLpr.ImageView.height hcrop),
    UInt64.toNat_inj.mp (congrArg FacLpr.ImageView.strideBytes hcrop),
    congrArg FacLpr.ImageView.format hcrop⟩

/-- **A crop shows the pixels of its region.** -/
theorem pixel_crop (h : source.toImageView.Fits)
    (hregion : region.toImageRegion.Inside source.width.toNat source.height.toNat)
    (hcrop : crop.toImageView = source.toImageView.crop region.toImageRegion)
    {x y channel : UInt64} (hx : x < region.width) (hy : y < region.height)
    (hchannel : channel < pixelFormatChannels source.format) :
    crop.pixel x y channel = source.pixel (x + region.x) (y + region.y) channel := by
  obtain ⟨hwidth, hheight, hstride, hformat⟩ := shape_crop hcrop
  have hcropFits : crop.toImageView.Fits := hcrop ▸ h.crop hregion
  obtain ⟨hindex, hlt⟩ := addressable_of_fits hcropFits x y channel (hwidth ▸ hx) (hheight ▸ hy)
    (hformat ▸ hchannel)
  rw [UInt64.lt_iff_toNat_lt] at hx hy
  have hright := hregion.2.1
  have hbottom := hregion.2.2
  simp only [ImageRegion.toImageRegion] at hright hbottom
  have hcolumn : (x + region.x).toNat = x.toNat + region.x.toNat := by
    have := toNat_le_sizeMax source.width
    exact toNat_add_of_le (by omega)
  have hrow : (y + region.y).toNat = y.toNat + region.y.toNat := by
    have := toNat_le_sizeMax source.height
    exact toNat_add_of_le (by omega)
  obtain ⟨hindex', -⟩ := addressable_of_fits h (x + region.x) (y + region.y) channel
    (by rw [UInt64.lt_iff_toNat_lt, hcolumn]; omega)
    (by rw [UInt64.lt_iff_toNat_lt, hrow]; omega) hchannel
  have hbytes : crop.bytes.bytes = (source.toImageView.crop region.toImageRegion).bytes :=
    congrArg FacLpr.ImageView.bytes hcrop
  rw [UInt64.lt_iff_toNat_lt, ByteSpan.toNat_size, hbytes, h.length_crop hregion] at hlt
  rw [ImageView.pixel, ImageView.pixel, hbytes, FacLpr.ImageView.getElem?_crop hlt, hindex, hindex',
    hstride, hformat, hcolumn, hrow, Nat.add_mul, Nat.add_mul]
  simp only [FacLpr.ImageView.cropOffset, ImageView.toImageView, ImageRegion.toImageRegion,
    toNat_pixelFormatChannels]
  congr 1
  omega

/-! ## Composition -/

/-- The crop of a region: its pixels, in the span from its first byte to its last, a valid image
under the limits of its source, and the crops of its regions. -/
structure IsCrop (limits : ImageLimits) (source : ImageView) (region : ImageRegion)
    (crop : ImageView) : Prop where
  shape : crop.width = region.width ∧ crop.height = region.height ∧
    crop.strideBytes = source.strideBytes ∧ crop.format = source.format
  pixel : ∀ x y channel : UInt64, x < region.width → y < region.height →
    channel < pixelFormatChannels source.format →
      crop.pixel x y channel = source.pixel (x + region.x) (y + region.y) channel
  span : ∃ offset : UInt64, crop.bytes = source.bytes.subspan offset crop.bytes.size ∧
    offset.toNat + crop.bytes.size.toNat ≤ source.bytes.size.toNat
  validated : ∃ validated, validateImage crop limits = .ok validated ∧
    validated.requiredBytes = crop.bytes.size
  composed : ∀ (inner : ImageRegion) (view : ImageView), makeCropView crop inner = .ok view ↔
    inner.toImageRegion.Inside region.width.toNat region.height.toNat ∧
      makeCropView source (region.compose inner) = .ok view

/-- The span of a crop is a part of its source's. -/
theorem span_crop (h : source.toImageView.Fits)
    (hregion : region.toImageRegion.Inside source.width.toNat source.height.toNat)
    (hcrop : crop.toImageView = source.toImageView.crop region.toImageRegion) :
    ∃ offset : UInt64, crop.bytes = source.bytes.subspan offset crop.bytes.size ∧
      offset.toNat + crop.bytes.size.toNat ≤ source.bytes.size.toNat := by
  have hbytes : crop.bytes.bytes = (source.toImageView.crop region.toImageRegion).bytes :=
    congrArg FacLpr.ImageView.bytes hcrop
  have hlength : crop.bytes.size.toNat = source.toImageView.cropExtent region.toImageRegion := by
    rw [ByteSpan.toNat_size, hbytes, h.length_crop hregion]
  have hextent : source.toImageView.cropOffset region.toImageRegion +
      source.toImageView.cropExtent region.toImageRegion ≤ source.bytes.bytes.length :=
    h.cropExtent_le hregion
  have hoffset : (UInt64.ofNat (source.toImageView.cropOffset region.toImageRegion)).toNat =
      source.toImageView.cropOffset region.toImageRegion := by
    have := source.bytes.fits
    rw [UInt64.toNat_ofNat', mod_of_le_sizeMax (by omega)]
  refine ⟨UInt64.ofNat (source.toImageView.cropOffset region.toImageRegion), ?_, ?_⟩
  · refine ByteSpan.ext ?_
    rw [ByteSpan.bytes_subspan, hoffset, hlength, hbytes]
    rfl
  · rw [hoffset, hlength, ByteSpan.toNat_size]
    exact hextent

/-- A crop is valid, and needs all of its bytes. -/
theorem validated_crop {limits : ImageLimits} (h : source.toImageView.Fits)
    (hlimits : source.toImageView.WithinLimits limits.toImageLimits)
    (hregion : region.toImageRegion.Inside source.width.toNat source.height.toNat)
    (hcrop : crop.toImageView = source.toImageView.crop region.toImageRegion) :
    ∃ validated, validateImage crop limits = .ok validated ∧
      validated.requiredBytes = crop.bytes.size := by
  have haccepted := (exists_validateImage_iff crop limits).mpr
    ⟨hcrop ▸ h.crop hregion, hcrop ▸ hlimits.crop hregion⟩
  obtain ⟨validated, hvalidated⟩ := haccepted
  have hexact := toValidatedImage_validateImage crop limits
  rw [hvalidated, hcrop] at hexact
  have hrequired := requiredBytes_of_validateImage hexact.symm
  refine ⟨validated, hvalidated, UInt64.toNat_inj.mp ?_⟩
  have hbytes : crop.bytes.bytes = (source.toImageView.crop region.toImageRegion).bytes :=
    congrArg FacLpr.ImageView.bytes hcrop
  rw [ByteSpan.toNat_size, hbytes, h.length_crop hregion]
  exact hrequired

/-- A crop of a crop is a crop of the source. -/
theorem composed_crop (h : source.toImageView.Fits)
    (hregion : region.toImageRegion.Inside source.width.toNat source.height.toNat)
    (hcrop : crop.toImageView = source.toImageView.crop region.toImageRegion)
    (inner : ImageRegion) (view : ImageView) : makeCropView crop inner = .ok view ↔
      inner.toImageRegion.Inside region.width.toNat region.height.toNat ∧
        makeCropView source (region.compose inner) = .ok view := by
  obtain ⟨hwidth, hheight, -⟩ := shape_crop hcrop
  rw [makeCropView_iff (hcrop ▸ h.crop hregion), makeCropView_iff h, hwidth, hheight, hcrop]
  refine and_congr_right fun hinner => ?_
  rw [toImageRegion_compose hregion hinner, FacLpr.ImageView.crop_crop hinner]
  exact (and_iff_right (hregion.compose hinner)).symm

/-- **Crop views compose.**  Every region inside a validated image has its crop, and no other region
has a view, even one whose sums wrap. -/
theorem crops_compose (limits : ImageLimits) (source : ImageView) (region : ImageRegion) :
    (∀ validated, validateImage source limits = .ok validated →
        region.toImageRegion.Inside source.width.toNat source.height.toNat →
          ∃ crop, makeCropView source region = .ok crop ∧ IsCrop limits source region crop) ∧
      (¬ region.toImageRegion.Inside source.width.toNat source.height.toNat →
        ∃ e, makeCropView source region = .error e) := by
  refine ⟨fun validated hvalidated hregion => ?_, exists_error_of_not_inside⟩
  obtain ⟨hfits, hlimits⟩ := (exists_validateImage_iff source limits).mp ⟨validated, hvalidated⟩
  obtain ⟨crop, hmake⟩ := exists_makeCropView hfits hregion
  have hcrop := ((makeCropView_iff hfits).mp hmake).2
  exact ⟨crop, hmake, {
    shape := shape_crop hcrop
    pixel := fun _ _ _ hx hy hchannel => pixel_crop hfits hregion hcrop hx hy hchannel
    span := span_crop hfits hregion hcrop
    validated := validated_crop hfits hlimits hregion hcrop
    composed := composed_crop hfits hregion hcrop }⟩

theorem length_unpaddedSource : ([1, 2, 0, 3, 4] : List Byte).length ≤ sizeMax := by decide

/-- Two gray rows of two pixels, the last one without its padding. -/
def unpaddedSource : ImageView := ⟨⟨[1, 2, 0, 3, 4], length_unpaddedSource⟩, 2, 2, 3, .gray8⟩

theorem crops_compose_lastPixel :
    (∃ crop, makeCropView unpaddedSource ⟨1, 1, 1, 1⟩ = .ok crop ∧ crop.pixel 0 0 0 = some 4) ∧
      ∃ e, makeCropView unpaddedSource ⟨maxSize, 0, 2, 1⟩ = .error e := by
  obtain ⟨validated, hvalidated⟩ := (exists_validateImage_iff unpaddedSource {}).mpr
    ⟨⟨by decide, by decide, by decide, by decide⟩, by decide, by decide, by decide⟩
  obtain ⟨crop, hmake, hcrop⟩ := (crops_compose {} unpaddedSource ⟨1, 1, 1, 1⟩).1 validated
    hvalidated ⟨rfl, by decide, by decide⟩
  refine ⟨⟨crop, hmake, hcrop.pixel 0 0 0 (by decide) (by decide) (by decide)⟩, ?_⟩
  refine (crops_compose {} unpaddedSource ⟨maxSize, 0, 2, 1⟩).2 fun hinside => ?_
  exact absurd hinside.2.1 (by decide)

end SizeT

end FacLpr

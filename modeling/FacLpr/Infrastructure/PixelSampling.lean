import FacLpr.Application.Image
import FacLpr.Foundations.PixelArithmetic

/-!
# Infrastructure/PixelSampling — the pixels of a view, and samples between them

The two preprocessors each have a copy of `pixel_at` and `bilinear_sample`, the same one.  What they
read of a view is what it shows: two views that show the same (`SamePixels`) have the same samples
(`SamePixels.bilinearSample`), whatever their strides and the bytes between the rows.
-/

namespace FacLpr

/-- `row[i]` of the row `y`. -/
def ImageView.byteAt (image : ImageView) (y i : ℕ) : Byte :=
  image.bytes.getD (y * image.strideBytes + i) 0

/-- The views have one shape and agree on every visible byte. -/
structure SamePixels (a b : ImageView) : Prop where
  width : a.width = b.width
  height : a.height = b.height
  format : a.format = b.format
  bytes : ∀ y < a.height, ∀ i < a.width * pixelFormatChannels a.format, a.byteAt y i = b.byteAt y i

/-- The indices of the pixels are exact as coordinates. -/
structure ImageView.Samples (image : ImageView) : Prop where
  width : 0 < image.width ∧ image.width ≤ 2 ^ 53
  height : 0 < image.height ∧ image.height ≤ 2 ^ 53

structure RgbSample (F : Type) where
  red : F
  green : F
  blue : F

namespace PixelSampling

variable {F D : Type} [Scalar F] [Scalar D] [PixelArithmetic F D]

def byteValue (value : Byte) : F := Scalar.ofRat value.toNat

/-- `pixel_at`. -/
def pixelAt (image : ImageView) (x y : ℕ) : RgbSample F :=
  match image.format with
  | .gray8 =>
      let gray := byteValue (image.byteAt y x)
      ⟨gray, gray, gray⟩
  | .rgb8 => ⟨byteValue (image.byteAt y (x * 3)), byteValue (image.byteAt y (x * 3 + 1)),
      byteValue (image.byteAt y (x * 3 + 2))⟩
  | .bgr8 => ⟨byteValue (image.byteAt y (x * 3 + 2)), byteValue (image.byteAt y (x * 3 + 1)),
      byteValue (image.byteAt y (x * 3))⟩

/-- The interpolation of four values with the weights `dx` and `dy`. -/
def interpolate (dx dy a b c d : F) : F :=
  let top := a * (1 - dx) + b * dx
  let bottom := c * (1 - dx) + d * dx
  top * (1 - dy) + bottom * dy

variable (F) in
/-- The index before a coordinate clamped to `[0, size - 1]`. -/
def cellOf (source : D) (size : ℕ) : ℕ :=
  PixelArithmetic.floorWide F (Scalar.clamp source 0 (Scalar.ofRat (size - 1 : ℕ)))

/-- The distance of a clamped coordinate from that index. -/
def offsetOf (source : D) (size : ℕ) : F :=
  PixelArithmetic.narrow (Scalar.clamp source 0 (Scalar.ofRat (size - 1 : ℕ)) -
    Scalar.ofRat (cellOf F source size))

/-- `bilinear_sample`. -/
def bilinearSample (image : ImageView) (sourceX sourceY : D) : RgbSample F :=
  let x0 := cellOf F sourceX image.width
  let y0 := cellOf F sourceY image.height
  let x1 := min (x0 + 1) (image.width - 1)
  let y1 := min (y0 + 1) (image.height - 1)
  let dx : F := offsetOf sourceX image.width
  let dy : F := offsetOf sourceY image.height
  let p00 := pixelAt image x0 y0
  let p10 := pixelAt image x1 y0
  let p01 := pixelAt image x0 y1
  let p11 := pixelAt image x1 y1
  ⟨interpolate dx dy p00.red p10.red p01.red p11.red,
    interpolate dx dy p00.green p10.green p01.green p11.green,
    interpolate dx dy p00.blue p10.blue p01.blue p11.blue⟩

end PixelSampling

/-! ## What a sample depends on -/

namespace SamePixels

open PixelSampling

variable {F D : Type} [Scalar F] [Scalar D] [PixelArithmetic F D] {a b : ImageView}

/-- A byte of a visible pixel. -/
theorem byteAt (h : SamePixels a b) {x y c : ℕ} (hx : x < a.width) (hy : y < a.height)
    (hc : c < pixelFormatChannels a.format) :
    a.byteAt y (x * pixelFormatChannels a.format + c) =
      b.byteAt y (x * pixelFormatChannels a.format + c) := by
  refine h.bytes y hy _ ?_
  calc x * pixelFormatChannels a.format + c
      < x * pixelFormatChannels a.format + pixelFormatChannels a.format := by omega
    _ = (x + 1) * pixelFormatChannels a.format := (Nat.succ_mul _ _).symm
    _ ≤ a.width * pixelFormatChannels a.format := Nat.mul_le_mul_right _ hx

theorem grayAt (h : SamePixels a b) (hformat : a.format = .gray8) {x y : ℕ} (hx : x < a.width)
    (hy : y < a.height) : a.byteAt y x = b.byteAt y x := by
  refine h.bytes y hy x ?_
  rwa [hformat, pixelFormatChannels, mul_one]

theorem colorAt (h : SamePixels a b) (hformat : pixelFormatChannels a.format = 3) {x y : ℕ}
    (hx : x < a.width) (hy : y < a.height) :
    a.byteAt y (x * 3) = b.byteAt y (x * 3) ∧ a.byteAt y (x * 3 + 1) = b.byteAt y (x * 3 + 1) ∧
      a.byteAt y (x * 3 + 2) = b.byteAt y (x * 3 + 2) := by
  have hbyte : ∀ c < 3, a.byteAt y (x * 3 + c) = b.byteAt y (x * 3 + c) := fun c hc => by
    have hpixel := h.byteAt hx hy (hformat ▸ hc)
    rwa [hformat] at hpixel
  exact ⟨hbyte 0 (by decide), hbyte 1 (by decide), hbyte 2 (by decide)⟩

theorem pixelAt (h : SamePixels a b) {x y : ℕ} (hx : x < a.width) (hy : y < a.height) :
    (PixelSampling.pixelAt a x y : RgbSample F) = PixelSampling.pixelAt b x y := by
  unfold PixelSampling.pixelAt
  rw [← h.format]
  cases hformat : a.format with
  | gray8 => simp only [h.grayAt hformat hx hy]
  | bgr8 | rgb8 =>
    obtain ⟨h0, h1, h2⟩ := h.colorAt (by rw [hformat, pixelFormatChannels]) hx hy
    simp only [h0, h1, h2]

/-- **A sample depends on what the view shows.** -/
theorem bilinearSample [LawfulImageArithmetic F D] (h : SamePixels a b) (hsamples : a.Samples)
    {sourceX sourceY : D} (hx : Scalar.isFinite sourceX = true)
    (hy : Scalar.isFinite sourceY = true) :
    (PixelSampling.bilinearSample a sourceX sourceY : RgbSample F) =
      PixelSampling.bilinearSample b sourceX sourceY := by
  have hwidth := hsamples.width
  have hheight := hsamples.height
  have hx0 : cellOf F sourceX a.width ≤ a.width - 1 :=
    LawfulImageArithmetic.floorWide_clamp_le hx (by omega)
  have hy0 : cellOf F sourceY a.height ≤ a.height - 1 :=
    LawfulImageArithmetic.floorWide_clamp_le hy (by omega)
  have hx1 : min (cellOf F sourceX a.width + 1) (a.width - 1) ≤ a.width - 1 := min_le_right _ _
  have hy1 : min (cellOf F sourceY a.height + 1) (a.height - 1) ≤ a.height - 1 := min_le_right _ _
  have hpixel : ∀ {x y : ℕ}, x ≤ a.width - 1 → y ≤ a.height - 1 →
      (PixelSampling.pixelAt a x y : RgbSample F) = PixelSampling.pixelAt b x y :=
    fun hx hy => h.pixelAt (by omega) (by omega)
  simp only [PixelSampling.bilinearSample, ← h.width, ← h.height, hpixel hx0 hy0, hpixel hx1 hy0,
    hpixel hx0 hy1, hpixel hx1 hy1]

end SamePixels

namespace ImageView.Samples

variable {F D : Type} [Scalar D] [PixelArithmetic F D] [LawfulImageArithmetic F D]
  {image : ImageView} {i m : ℕ}

include F in
/-- The coordinates of the samples along a row are finite. -/
theorem isFinite_x (h : image.Samples) (hi : i < 2 ^ 64) (hm : 0 < m) (hm' : m < 2 ^ 64) :
    Scalar.isFinite (sourceCoordinate i (Scalar.ofRat image.width / Scalar.ofRat m : D)) = true :=
  have hwidth := h.width
  LawfulImageArithmetic.isFinite_sourceCoordinate F hi (by omega) hm hm'

include F in
/-- The coordinates of the samples along a column are finite. -/
theorem isFinite_y (h : image.Samples) (hi : i < 2 ^ 64) (hm : 0 < m) (hm' : m < 2 ^ 64) :
    Scalar.isFinite (sourceCoordinate i (Scalar.ofRat image.height / Scalar.ofRat m : D)) = true :=
  have hheight := h.height
  LawfulImageArithmetic.isFinite_sourceCoordinate F hi (by omega) hm hm'

end ImageView.Samples

end FacLpr

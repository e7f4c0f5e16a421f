import FacLpr.Foundations.ReadLogs
import FacLpr.Infrastructure.PixelSampling

/-!
# Infrastructure/PixelReads — the bytes a sample reads

The readers of `PixelSampling` with a log of the offset of every byte they read.  They return what
`PixelSampling` says, and each byte is one of a visible pixel (`yields_bilinearSample`), whatever the
stride and however the image is scaled.
-/

namespace FacLpr

/-- The offset of a byte of a visible pixel. -/
def ImageView.IsPixelByte (image : ImageView) (offset : ℕ) : Prop :=
  ∃ y < image.height, ∃ i < image.width * pixelFormatChannels image.format,
    offset = y * image.strideBytes + i

/-- The pixels of an accepted view are in its bytes. -/
theorem ImageView.Accepted.lt_length {image : ImageView} {limits : ImageLimits}
    (h : image.Accepted limits) {offset : ℕ} (hoffset : image.IsPixelByte offset) :
    offset < image.bytes.length := by
  obtain ⟨y, hy, i, hi, rfl⟩ := hoffset
  have hrow : y * image.strideBytes ≤ image.strideBytes * (image.height - 1) := by
    rw [Nat.mul_comm]
    exact Nat.mul_le_mul_left _ (Nat.le_sub_one_of_lt hy)
  have hsize := h.size
  omega

namespace PixelReads

open Program PixelSampling

/-- `row[i]` of the row `y`. -/
def readByte (image : ImageView) (y i : ℕ) : Program EngineError (List ℕ) Byte := do
  modify (· ++ [y * image.strideBytes + i])
  return image.byteAt y i

section Readers

variable {F D : Type} [Scalar F] [Scalar D] [PixelArithmetic F D]

/-- `pixel_at`. -/
def pixelAt (image : ImageView) (x y : ℕ) : Program EngineError (List ℕ) (RgbSample F) :=
  match image.format with
  | .gray8 => do
      let gray ← readByte image y x
      return ⟨byteValue gray, byteValue gray, byteValue gray⟩
  | .rgb8 => do
      let red ← readByte image y (x * 3)
      let green ← readByte image y (x * 3 + 1)
      let blue ← readByte image y (x * 3 + 2)
      return ⟨byteValue red, byteValue green, byteValue blue⟩
  | .bgr8 => do
      let red ← readByte image y (x * 3 + 2)
      let green ← readByte image y (x * 3 + 1)
      let blue ← readByte image y (x * 3)
      return ⟨byteValue red, byteValue green, byteValue blue⟩

/-- `bilinear_sample`. -/
def bilinearSample (image : ImageView) (sourceX sourceY : D) :
    Program EngineError (List ℕ) (RgbSample F) := do
  let x0 := cellOf F sourceX image.width
  let y0 := cellOf F sourceY image.height
  let x1 := min (x0 + 1) (image.width - 1)
  let y1 := min (y0 + 1) (image.height - 1)
  let dx : F := offsetOf sourceX image.width
  let dy : F := offsetOf sourceY image.height
  let p00 ← pixelAt image x0 y0
  let p10 ← pixelAt image x1 y0
  let p01 ← pixelAt image x0 y1
  let p11 ← pixelAt image x1 y1
  return ⟨interpolate dx dy p00.red p10.red p01.red p11.red,
    interpolate dx dy p00.green p10.green p01.green p11.green,
    interpolate dx dy p00.blue p10.blue p01.blue p11.blue⟩

end Readers

/-! ## Every byte is one of the view -/

variable {F D : Type} [Scalar F] [Scalar D] [PixelArithmetic F D] {image : ImageView}

theorem yields_readByte {x y c : ℕ} (hx : x < image.width) (hy : y < image.height)
    (hc : c < pixelFormatChannels image.format) :
    Yields image.IsPixelByte (readByte image y (x * pixelFormatChannels image.format + c))
      (image.byteAt y (x * pixelFormatChannels image.format + c)) := by
  refine yields_log ⟨y, hy, _, ?_, rfl⟩ _
  calc x * pixelFormatChannels image.format + c
      < x * pixelFormatChannels image.format + pixelFormatChannels image.format :=
        Nat.add_lt_add_left hc _
    _ = (x + 1) * pixelFormatChannels image.format := (Nat.succ_mul _ _).symm
    _ ≤ image.width * pixelFormatChannels image.format := Nat.mul_le_mul_right _ hx

theorem yields_grayByte (hformat : image.format = .gray8) {x y : ℕ} (hx : x < image.width)
    (hy : y < image.height) :
    Yields image.IsPixelByte (readByte image y x) (image.byteAt y x) := by
  have hbyte := yields_readByte hx hy (c := 0) (by rw [hformat]; decide)
  rwa [hformat, pixelFormatChannels, mul_one, add_zero] at hbyte

theorem yields_colorByte (hformat : pixelFormatChannels image.format = 3) {x y c : ℕ}
    (hx : x < image.width) (hy : y < image.height) (hc : c < 3) :
    Yields image.IsPixelByte (readByte image y (x * 3 + c)) (image.byteAt y (x * 3 + c)) := by
  have hbyte := yields_readByte hx hy (hformat ▸ hc)
  rwa [hformat] at hbyte

theorem yields_pixelAt {x y : ℕ} (hx : x < image.width) (hy : y < image.height) :
    Yields image.IsPixelByte (pixelAt image x y)
      (PixelSampling.pixelAt image x y : RgbSample F) := by
  unfold pixelAt PixelSampling.pixelAt
  cases hformat : image.format with
  | gray8 => exact (yields_grayByte hformat hx hy).bind (yields_pure _)
  | rgb8 =>
    have hcolor : pixelFormatChannels image.format = 3 := by rw [hformat, pixelFormatChannels]
    exact (yields_colorByte hcolor hx hy (c := 0) (by decide)).bind
      ((yields_colorByte hcolor hx hy (by decide)).bind
        ((yields_colorByte hcolor hx hy (by decide)).bind (yields_pure _)))
  | bgr8 =>
    have hcolor : pixelFormatChannels image.format = 3 := by rw [hformat, pixelFormatChannels]
    exact (yields_colorByte hcolor hx hy (by decide)).bind
      ((yields_colorByte hcolor hx hy (by decide)).bind
        ((yields_colorByte hcolor hx hy (c := 0) (by decide)).bind (yields_pure _)))

/-- **A sample reads visible pixels**, and is the sample of the view. -/
theorem yields_bilinearSample [LawfulImageArithmetic F D] (hsamples : image.Samples)
    {sourceX sourceY : D} (hx : Scalar.isFinite sourceX = true)
    (hy : Scalar.isFinite sourceY = true) :
    Yields image.IsPixelByte (bilinearSample image sourceX sourceY)
      (PixelSampling.bilinearSample image sourceX sourceY : RgbSample F) := by
  have hwidth := hsamples.width
  have hheight := hsamples.height
  have hx0 : cellOf F sourceX image.width ≤ image.width - 1 :=
    LawfulImageArithmetic.floorWide_clamp_le hx (by omega)
  have hy0 : cellOf F sourceY image.height ≤ image.height - 1 :=
    LawfulImageArithmetic.floorWide_clamp_le hy (by omega)
  have hx1 : min (cellOf F sourceX image.width + 1) (image.width - 1) ≤ image.width - 1 :=
    min_le_right _ _
  have hy1 : min (cellOf F sourceY image.height + 1) (image.height - 1) ≤ image.height - 1 :=
    min_le_right _ _
  have hpixel : ∀ {x y : ℕ}, x ≤ image.width - 1 → y ≤ image.height - 1 →
      Yields image.IsPixelByte (pixelAt image x y)
        (PixelSampling.pixelAt image x y : RgbSample F) :=
    fun hx hy => yields_pixelAt (by omega) (by omega)
  exact (hpixel hx0 hy0).bind ((hpixel hx1 hy0).bind ((hpixel hx0 hy1).bind
    ((hpixel hx1 hy1).bind (yields_pure _))))

end PixelReads

end FacLpr

import FacLpr.Application.Image

/-!
# Infrastructure/NativeImage — views and copies of a part of an image
-/

namespace FacLpr

namespace NativeImage

def validateRegion (sourceWidth sourceHeight : ℕ) (region : ImageRegion) :
    Except EngineError Unit := do
  require (!region.empty) (invalidImageError "crop region must be non-empty")
  let right ← checkedAdd region.x region.width "crop x + width"
  let bottom ← checkedAdd region.y region.height "crop y + height"
  require (right ≤ sourceWidth ∧ bottom ≤ sourceHeight)
    (invalidImageError "crop region is outside source image bounds")

/-- The bytes from the first of the region to its last. -/
def cropBytes (source : List Byte) (sourceStride : ℕ) (format : PixelFormat)
    (region : ImageRegion) : Except EngineError (List Byte) := do
  let bytesPerPixel := pixelFormatChannels format
  let xOffset ← checkedMultiply region.x bytesPerPixel "crop x byte offset"
  let yOffset ← checkedMultiply region.y sourceStride "crop y byte offset"
  let offset ← checkedAdd yOffset xOffset "crop byte offset"
  let rowBytes ← checkedMultiply region.width bytesPerPixel "crop row bytes"
  let tailOffset ← checkedMultiply (region.height - 1) sourceStride "crop tail offset"
  let required ← checkedAdd tailOffset rowBytes "crop required bytes"
  require (offset ≤ source.length ∧ required ≤ source.length - offset)
    (invalidImageError "crop view exceeds source buffer")
  return (source.drop offset).take required

def makeCropView (source : ImageView) (region : ImageRegion) : Except EngineError ImageView := do
  validateRegion source.width source.height region
  return {
    bytes := ← cropBytes source.bytes source.strideBytes source.format region
    width := region.width
    height := region.height
    strideBytes := source.strideBytes
    format := source.format }

/-- `std::memcpy` over a part of a buffer. -/
def overwrite (bytes : List Byte) (offset : ℕ) (row : List Byte) : List Byte :=
  bytes.take offset ++ row ++ bytes.drop (offset + row.length)

/-- `copy_crop`, which returns the destination it was handed. -/
def copyCrop (source : ImageView) (region : ImageRegion) (destination : ImageBuffer) :
    Except EngineError ImageBuffer := do
  let crop ← makeCropView source region
  require (destination.width = crop.width ∧ destination.height = crop.height ∧
      destination.format = crop.format)
    (invalidImageError "crop destination shape or pixel format does not match source region")
  let rowBytes ← checkedMultiply crop.width (pixelFormatChannels crop.format) "copy crop row bytes"
  require (rowBytes ≤ destination.strideBytes)
    (invalidImageError "crop destination stride is too small")
  let tail ← checkedMultiply (destination.height - 1) destination.strideBytes
    "crop destination tail"
  let required ← checkedAdd tail rowBytes "crop destination required bytes"
  require (required ≤ destination.bytes.length)
    (invalidImageError "crop destination buffer is too small")
  return { destination with
    bytes := (List.range crop.height).foldl (fun bytes y =>
      overwrite bytes (y * destination.strideBytes)
        ((crop.bytes.drop (y * crop.strideBytes)).take rowBytes)) destination.bytes }

/-! ## Copied rows -/

theorem length_overwrite {bytes row : List Byte} {offset : ℕ}
    (h : offset + row.length ≤ bytes.length) :
    (overwrite bytes offset row).length = bytes.length := by
  simp only [overwrite, List.length_append, List.length_take, List.length_drop]
  omega

/-- A byte of an overwritten buffer. -/
theorem getD_overwrite {bytes row : List Byte} {offset : ℕ}
    (h : offset + row.length ≤ bytes.length) (i : ℕ) :
    (overwrite bytes offset row).getD i 0 =
      if offset ≤ i ∧ i < offset + row.length then row.getD (i - offset) 0 else bytes.getD i 0 := by
  have htake : (bytes.take offset).length = offset := by
    rw [List.length_take]
    omega
  simp only [overwrite, List.getD_eq_getElem?_getD]
  rcases Nat.lt_or_ge i offset with hlt | hge
  · rw [if_neg (by omega), List.append_assoc, List.getElem?_append_left (by rwa [htake]),
      List.getElem?_take_of_lt hlt]
  rw [List.append_assoc, List.getElem?_append_right (by rwa [htake]), htake]
  rcases Nat.lt_or_ge i (offset + row.length) with hlt | hge'
  · rw [if_pos ⟨hge, hlt⟩, List.getElem?_append_left (by omega)]
  · rw [if_neg (by omega), List.getElem?_append_right (by omega), List.getElem?_drop]
    congr 2
    omega

/-- The rows of the source, copied one after another: the loop of `copy_crop`. -/
def copyRows (source : List Byte) (sourceStride rowBytes stride rows : ℕ) (bytes : List Byte) :
    List Byte :=
  (List.range rows).foldl (fun bytes y =>
    overwrite bytes (y * stride) ((source.drop (y * sourceStride)).take rowBytes)) bytes

section CopyRows

variable {source bytes : List Byte} {sourceStride rowBytes stride rows : ℕ}

/-- **Copied rows**: every row of the destination holds its row of the source. -/
theorem copyRows_spec (hsource : ∀ y < rows, y * sourceStride + rowBytes ≤ source.length)
    (hbytes : ∀ y < rows, y * stride + rowBytes ≤ bytes.length) (hstride : rowBytes ≤ stride) :
    (copyRows source sourceStride rowBytes stride rows bytes).length = bytes.length ∧
      ∀ y < rows, ∀ i < rowBytes,
        (copyRows source sourceStride rowBytes stride rows bytes).getD (y * stride + i) 0 =
          source.getD (y * sourceStride + i) 0 := by
  induction rows with
  | zero => exact ⟨rfl, nofun⟩
  | succ rows ih =>
    obtain ⟨hlength, hrows⟩ := ih (fun y hy => hsource y (Nat.lt_succ_of_lt hy))
      (fun y hy => hbytes y (Nat.lt_succ_of_lt hy))
    have hrow : ((source.drop (rows * sourceStride)).take rowBytes).length = rowBytes := by
      have hfits := hsource rows (Nat.lt_succ_self rows)
      rw [List.length_take, List.length_drop]
      omega
    have hfits : rows * stride + ((source.drop (rows * sourceStride)).take rowBytes).length ≤
        (copyRows source sourceStride rowBytes stride rows bytes).length := by
      rw [hrow, hlength]
      exact hbytes rows (Nat.lt_succ_self rows)
    have hlast : copyRows source sourceStride rowBytes stride (rows + 1) bytes =
        overwrite (copyRows source sourceStride rowBytes stride rows bytes) (rows * stride)
          ((source.drop (rows * sourceStride)).take rowBytes) := by
      simp only [copyRows, List.range_succ, List.foldl_append, List.foldl_cons, List.foldl_nil]
    rw [hlast]
    refine ⟨(length_overwrite hfits).trans hlength, fun y hy i hi => ?_⟩
    rw [getD_overwrite hfits, hrow]
    rcases (Nat.lt_succ_iff.mp hy).lt_or_eq with hlt | rfl
    · -- an earlier row ends before the last one begins
      have hbefore : y * stride + stride ≤ rows * stride := by
        rw [← Nat.succ_mul]
        exact Nat.mul_le_mul_right stride hlt
      rw [if_neg (by omega)]
      exact hrows y hlt i hi
    · rw [if_pos ⟨Nat.le_add_right _ _, by omega⟩, Nat.add_sub_cancel_left,
        List.getD_eq_getElem?_getD, List.getD_eq_getElem?_getD, List.getElem?_take_of_lt hi,
        List.getElem?_drop]

end CopyRows

end NativeImage

end FacLpr

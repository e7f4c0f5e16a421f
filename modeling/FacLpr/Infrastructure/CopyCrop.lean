import FacLpr.Foundations.RowCopies
import FacLpr.Foundations.Run
import FacLpr.Infrastructure.CropViews

/-!
# Infrastructure/CopyCrop — copying a part of an image, in memory

`copy_crop` makes all of its checks before it copies the first row.  The addresses of its rows do
not wrap, so its loop is `copyRows` of the crop (`foldl_copyRow`): what it refuses leaves the memory
alone, and what it accepts changes the pixels of the destination only (`copyCrop_frame`).
-/

namespace FacLpr

namespace SizeT

open Program

/-- A span of memory: `data()` and `size()`. -/
structure MemorySpan where
  address : ℕ
  size : UInt64

namespace MemorySpan

def subspan (span : MemorySpan) (offset count : UInt64) : MemorySpan :=
  ⟨span.address + offset.toNat, count⟩

instance : Span MemorySpan := ⟨size, subspan⟩

def range (span : MemorySpan) : MemoryRange := ⟨span.address, span.size.toNat⟩

end MemorySpan

/-- A view whose bytes are in memory. -/
structure MemoryView where
  bytes : MemorySpan
  width : UInt64
  height : UInt64
  strideBytes : UInt64
  format : PixelFormat

namespace MemoryView

/-- `make_crop_view`. -/
def makeCropView (source : MemoryView) (region : ImageRegion) : Except EngineError MemoryView := do
  validateRegion source.width source.height region
  return {
    bytes := ← cropBytes source.bytes source.strideBytes source.format region
    width := region.width
    height := region.height
    strideBytes := source.strideBytes
    format := source.format }

/-- The body of the loop of `copy_crop`. -/
def copyRow (crop destination : MemoryView) (rowBytes : UInt64) (s : TracedMemory) (y : ℕ) :
    TracedMemory :=
  let sourceRow := crop.bytes.address + (UInt64.ofNat y * crop.strideBytes).toNat
  let destinationRow := destination.bytes.address + (UInt64.ofNat y * destination.strideBytes).toNat
  memcpy destinationRow sourceRow rowBytes.toNat s

/-- `copy_crop`. -/
def copyCrop (source : MemoryView) (region : ImageRegion) (destination : MemoryView) :
    Program EngineError TracedMemory Unit := do
  let crop ← Program.ofExcept (source.makeCropView region)
  Program.ofExcept <| require (destination.width = crop.width ∧ destination.height = crop.height ∧
      destination.format = crop.format)
    (invalidImageError "crop destination shape or pixel format does not match source region")
  let bytesPerPixel ← Program.ofExcept (pixelBytes crop.format)
  let rowBytes ← Program.ofExcept (checkedMultiply crop.width bytesPerPixel "copy crop row bytes")
  Program.ofExcept <| require (rowBytes ≤ destination.strideBytes)
    (invalidImageError "crop destination stride is too small")
  let tail ← Program.ofExcept <|
    checkedMultiply (destination.height - 1) destination.strideBytes "crop destination tail"
  let requiredDestination ← Program.ofExcept <|
    checkedAdd tail rowBytes "crop destination required bytes"
  Program.ofExcept <| require (requiredDestination ≤ destination.bytes.size)
    (invalidImageError "crop destination buffer is too small")
  modify fun s => (List.range crop.height.toNat).foldl (copyRow crop destination rowBytes) s

/-- Where a byte of a pixel is. -/
def pixelAddress (view : MemoryView) (x y channel : ℕ) : ℕ :=
  view.bytes.address +
    (y * view.strideBytes.toNat + x * FacLpr.pixelFormatChannels view.format + channel)

/-- The rows of a view. -/
def layout (view : MemoryView) : RowLayout := ⟨view.bytes.address, view.strideBytes.toNat⟩

end MemoryView

/-! ## What the checks leave -/

/-- The span a crop is, of any kind of span. -/
theorem exists_of_cropBytes {S : Type} [Span S] {source span : S} {sourceStride : UInt64}
    {format : PixelFormat} {region : ImageRegion} (hheight : region.height ≠ 0)
    (h : cropBytes source sourceStride format region = .ok span) :
    ∃ offset required : UInt64,
      offset.toNat = region.y.toNat * sourceStride.toNat +
        region.x.toNat * FacLpr.pixelFormatChannels format ∧
      required.toNat = (region.height.toNat - 1) * sourceStride.toNat +
        region.width.toNat * FacLpr.pixelFormatChannels format ∧
      offset.toNat + required.toNat ≤ (Span.size source).toNat ∧
      span = Span.subspan source offset required := by
  simp only [cropBytes, pixelBytes_eq, except_bind_eq_ok, require_eq_ok, decide_eq_true_eq] at h
  obtain ⟨channels, hchannels, x, hx, y, hy, offset, hoffset, row, hrow, tail, htail, required,
    hrequired, -, hsize, hspan⟩ := h
  obtain rfl := Except.ok.inj hchannels
  rw [UInt64.le_iff_toNat_le] at hsize
  have hfits := UInt64.le_iff_toNat_le.mp hsize.2
  rw [UInt64.toNat_sub_of_le _ _ (UInt64.le_iff_toNat_le.mpr hsize.1)] at hfits
  refine ⟨offset, required, ?_, ?_, by omega, (Except.ok.inj hspan).symm⟩
  · rw [toNat_of_checkedAdd hoffset, toNat_of_checkedMultiply hy, toNat_of_checkedMultiply hx,
      toNat_pixelFormatChannels]
  · rw [toNat_of_checkedAdd hrequired, toNat_of_checkedMultiply htail,
      toNat_of_checkedMultiply hrow, toNat_sub_one hheight, toNat_pixelFormatChannels]

namespace MemoryView

variable {source destination : MemoryView} {region : ImageRegion}

/-- What `copy_crop` found out before its loop: the span of the crop, and a destination of its shape
that has room for the rows. -/
structure Checked (source : MemoryView) (region : ImageRegion) (destination crop : MemoryView)
    (rowBytes : UInt64) : Prop where
  shape : destination.height = region.height ∧ destination.width = region.width ∧
    destination.format = source.format
  crop : crop.height = region.height ∧ crop.strideBytes = source.strideBytes ∧
    crop.bytes.address = source.bytes.address + (region.y.toNat * source.strideBytes.toNat +
      region.x.toNat * FacLpr.pixelFormatChannels source.format)
  nonempty : 0 < region.height.toNat
  row : rowBytes.toNat = region.width.toNat * FacLpr.pixelFormatChannels source.format
  source : region.y.toNat * source.strideBytes.toNat +
    region.x.toNat * FacLpr.pixelFormatChannels source.format +
      ((region.height.toNat - 1) * source.strideBytes.toNat + rowBytes.toNat) ≤
        source.bytes.size.toNat
  stride : rowBytes.toNat ≤ destination.strideBytes.toNat
  destination : (region.height.toNat - 1) * destination.strideBytes.toNat + rowBytes.toNat ≤
    destination.bytes.size.toNat

theorem of_makeCropView {crop : MemoryView} (h : source.makeCropView region = .ok crop) :
    region.height ≠ 0 ∧ cropBytes source.bytes source.strideBytes source.format region =
      .ok crop.bytes ∧ crop.width = region.width ∧ crop.height = region.height ∧
        crop.strideBytes = source.strideBytes ∧ crop.format = source.format := by
  obtain ⟨u, hregion, h⟩ := except_bind_eq_ok.mp h
  obtain ⟨bytes, hbytes, h⟩ := except_bind_eq_ok.mp h
  obtain rfl := Except.ok.inj h
  refine ⟨fun hzero => ?_, hbytes, rfl, rfl, rfl, rfl⟩
  obtain ⟨_, hempty, -⟩ := except_bind_eq_ok.mp hregion
  rw [require_eq_ok, ImageRegion.empty] at hempty
  simp [hzero] at hempty

/-- **`copy_crop` checks before it copies.** -/
theorem triple_copyCrop (s : TracedMemory) : Triple (· = s) (copyCrop source region destination)
    (fun _ s' => ∃ crop rowBytes, Checked source region destination crop rowBytes ∧
      s' = (List.range crop.height.toNat).foldl (copyRow crop destination rowBytes) s)
    (fun _ s' => s' = s) := by
  have herror : ∀ (α : Type) (v : Except EngineError α) (e : EngineError), v = .error e →
      ∀ s', s' = s → s' = s := fun _ _ _ _ _ h => h
  unfold copyCrop
  refine triple_ofExcept_bind (fun crop hcrop => ?_) (herror _ _)
  refine triple_ofExcept_bind (fun _ hshape => ?_) (herror _ _)
  refine triple_ofExcept_bind (fun channels hchannels => ?_) (herror _ _)
  refine triple_ofExcept_bind (fun rowBytes hrow => ?_) (herror _ _)
  refine triple_ofExcept_bind (fun _ hstride => ?_) (herror _ _)
  refine triple_ofExcept_bind (fun tail htail => ?_) (herror _ _)
  refine triple_ofExcept_bind (fun required hrequired => ?_) (herror _ _)
  refine triple_ofExcept_bind (fun _ hsize => ?_) (herror _ _)
  refine triple_modify.mono (fun _ h => h) (fun _ s' hs' => ?_) (fun _ _ h => h)
  obtain ⟨_, rfl, rfl⟩ := hs'
  refine ⟨crop, rowBytes, ?_, rfl⟩
  obtain ⟨hheight, hbytes, hcropWidth, hcropHeight, hcropStride, hcropFormat⟩ :=
    of_makeCropView hcrop
  obtain ⟨offset, span, hoffset, hspan, hfits, hsub⟩ := exists_of_cropBytes hheight hbytes
  simp only [require_eq_ok, decide_eq_true_eq, UInt64.le_iff_toNat_le] at hshape hstride hsize
  rw [pixelBytes_eq] at hchannels
  obtain rfl := Except.ok.inj hchannels
  have hrowBytes : rowBytes.toNat =
      region.width.toNat * FacLpr.pixelFormatChannels source.format := by
    rw [toNat_of_checkedMultiply hrow, hcropWidth, toNat_pixelFormatChannels, hcropFormat]
  have haddress : crop.bytes.address = source.bytes.address + offset.toNat :=
    congrArg MemorySpan.address hsub
  rw [toNat_of_checkedAdd hrequired, toNat_of_checkedMultiply htail, hshape.2.1, hcropHeight,
    toNat_sub_one hheight] at hsize
  exact {
    shape := ⟨hshape.2.1.trans hcropHeight, hshape.1.trans hcropWidth,
      hshape.2.2.trans hcropFormat⟩
    crop := ⟨hcropHeight, hcropStride, haddress.trans (congrArg _ hoffset)⟩
    nonempty := Nat.pos_of_ne_zero (size_ne_zero_iff.mp hheight)
    row := hrowBytes
    source := by rw [← hoffset, hrowBytes, ← hspan]; exact hfits
    stride := hstride
    destination := hsize }

/-! ## The loop -/

variable {crop : MemoryView} {rowBytes : UInt64}

/-- The start of a row does not wrap. -/
theorem toNat_row {height stride : UInt64} {y : ℕ} (hy : y < height.toNat)
    (hfits : (height.toNat - 1) * stride.toNat ≤ sizeMax) :
    (UInt64.ofNat y * stride).toNat = y * stride.toNat := by
  have hheight := toNat_le_sizeMax height
  have hofNat : (UInt64.ofNat y).toNat = y := by
    rw [UInt64.toNat_ofNat', mod_of_le_sizeMax (by omega)]
  have hle : y * stride.toNat ≤ (height.toNat - 1) * stride.toNat :=
    Nat.mul_le_mul_right _ (by omega)
  rw [toNat_mul_of_le (by rw [hofNat]; omega), hofNat]

/-- **The loop copies the rows of the crop.** -/
theorem Checked.foldl_copyRow (h : Checked source region destination crop rowBytes)
    (s : TracedMemory) : (List.range crop.height.toNat).foldl (copyRow crop destination rowBytes) s =
      copyRows crop.layout destination.layout rowBytes.toNat region.height.toNat s := by
  obtain ⟨hheight, hstride, -⟩ := h.crop
  have hsource := toNat_le_sizeMax source.bytes.size
  have hdestination := toNat_le_sizeMax destination.bytes.size
  have hsourceFits := h.source
  have hdestinationFits := h.destination
  rw [hheight]
  refine List.foldl_ext _ _ _ fun s y hy => ?_
  have hlt := List.mem_range.mp hy
  rw [copyRow, toNat_row hlt (by omega), hstride, toNat_row hlt (by omega), ← hstride]
  rfl

/-- Every row is in the spans. -/
theorem Checked.rows_within (h : Checked source region destination crop rowBytes) {y : ℕ}
    (hy : y < region.height.toNat) :
    MemoryRange.Within ⟨crop.layout.row y, rowBytes.toNat⟩ source.bytes.range ∧
      MemoryRange.Within ⟨destination.layout.row y, rowBytes.toNat⟩ destination.bytes.range := by
  obtain ⟨-, hstride, haddress⟩ := h.crop
  have hsource := h.source
  have hdestination := h.destination
  have hle : y * source.strideBytes.toNat ≤
      (region.height.toNat - 1) * source.strideBytes.toNat := Nat.mul_le_mul_right _ (by omega)
  have hle' : y * destination.strideBytes.toNat ≤
      (region.height.toNat - 1) * destination.strideBytes.toNat := Nat.mul_le_mul_right _ (by omega)
  simp only [MemoryRange.Within, MemorySpan.range, layout, RowLayout.row, hstride, haddress]
  omega

/-- Rows of spans that do not overlap do not. -/
theorem Checked.rowsApart (h : Checked source region destination crop rowBytes)
    (hdisjoint : source.bytes.range.Disjoint destination.bytes.range) :
    RowsApart crop.layout destination.layout rowBytes.toNat region.height.toNat := by
  intro y hy y' hy' address hrow hrow'
  exact hdisjoint address ((h.rows_within hy).1.contains hrow)
    ((h.rows_within hy').2.contains hrow')

/-! ## The frame -/

/-- What `copy_crop` does: the pixels of the region are in the destination, every other byte is as
it was, and only the two spans were touched. -/
structure IsCopy (source : MemoryView) (region : ImageRegion) (destination : MemoryView)
    (s s' : TracedMemory) : Prop where
  pixel : ∀ x < region.width.toNat, ∀ y < region.height.toNat,
    ∀ channel < FacLpr.pixelFormatChannels source.format,
      s'.memory (destination.pixelAddress x y channel) =
        s.memory (source.pixelAddress (x + region.x.toNat) (y + region.y.toNat) channel)
  frame : ∀ address, (∀ x < region.width.toNat, ∀ y < region.height.toNat,
    ∀ channel < FacLpr.pixelFormatChannels source.format,
      address ≠ destination.pixelAddress x y channel) → s'.memory address = s.memory address
  touched : ∃ ranges, s'.touched = s.touched ++ ranges ∧ ∀ range ∈ ranges,
    range.Within source.bytes.range ∨ range.Within destination.bytes.range

/-- The byte of a pixel in its row. -/
theorem Checked.pixelByte_lt (h : Checked source region destination crop rowBytes) {x channel : ℕ}
    (hx : x < region.width.toNat) (hchannel : channel < FacLpr.pixelFormatChannels source.format) :
    x * FacLpr.pixelFormatChannels source.format + channel < rowBytes.toNat := by
  have hle : (x + 1) * FacLpr.pixelFormatChannels source.format ≤
      region.width.toNat * FacLpr.pixelFormatChannels source.format := Nat.mul_le_mul_right _ hx
  rw [Nat.succ_mul] at hle
  rw [h.row]
  omega

theorem Checked.isCopy (h : Checked source region destination crop rowBytes)
    (hdisjoint : source.bytes.range.Disjoint destination.bytes.range) (s : TracedMemory) :
    IsCopy source region destination s
      (copyRows crop.layout destination.layout rowBytes.toNat region.height.toNat s) where
  pixel x hx y hy channel hchannel := by
    obtain ⟨-, hstride, haddress⟩ := h.crop
    have hcopied := copyRows_row (h.rowsApart hdisjoint) h.stride s hy (h.pixelByte_lt hx hchannel)
    have hdestination : destination.pixelAddress x y channel = destination.layout.row y +
        (x * FacLpr.pixelFormatChannels source.format + channel) := by
      simp only [pixelAddress, layout, RowLayout.row, h.shape.2.2]
      omega
    have hsource : source.pixelAddress (x + region.x.toNat) (y + region.y.toNat) channel =
        crop.layout.row y + (x * FacLpr.pixelFormatChannels source.format + channel) := by
      simp only [pixelAddress, layout, RowLayout.row, hstride, haddress, Nat.add_mul]
      omega
    rw [hdestination, hsource, hcopied]
  frame address hout := by
    refine copyRows_frame (h.rowsApart hdisjoint) s fun y hy hrow => ?_
    -- a byte of a row is a byte of a pixel
    have hchannels := Nat.pos_of_ne_zero (pixelFormatChannels_ne_zero source.format)
    obtain ⟨hstart, hend⟩ := hrow
    obtain ⟨i, rfl⟩ := Nat.exists_eq_add_of_le hstart
    have hi : i < rowBytes.toNat := Nat.lt_of_add_lt_add_left hend
    rw [h.row] at hi
    refine hout (i / FacLpr.pixelFormatChannels source.format)
      (Nat.div_lt_of_lt_mul (Nat.mul_comm _ _ ▸ hi)) y hy
      (i % FacLpr.pixelFormatChannels source.format) (Nat.mod_lt _ hchannels) ?_
    have hdivMod := Nat.div_add_mod' i (FacLpr.pixelFormatChannels source.format)
    simp only [pixelAddress, layout, RowLayout.row, h.shape.2.2]
    omega
  touched := by
    obtain ⟨ranges, htouched, hranges⟩ := touched_copyRows s
    refine ⟨ranges, htouched, fun range hrange => ?_⟩
    obtain ⟨y, hy, rfl | rfl⟩ := hranges range hrange
    · exact Or.inl (h.rows_within hy).1
    · exact Or.inr (h.rows_within hy).2

/-- **The frame of `copy_crop`.**  What it accepts, with spans that do not overlap, is copied and
nothing else is changed; what it refuses leaves everything as it was. -/
theorem copyCrop_frame (source : MemoryView) (region : ImageRegion) (destination : MemoryView)
    (s s' : TracedMemory) :
    (source.bytes.range.Disjoint destination.bytes.range →
        copyCrop source region destination s = .ok () s' → IsCopy source region destination s s') ∧
      ∀ e, copyCrop source region destination s = .error e s' → s' = s := by
  obtain ⟨hok, herror⟩ := triple_copyCrop s s rfl
  refine ⟨fun hdisjoint h => ?_, fun e h => herror e s' h⟩
  obtain ⟨crop, rowBytes, hchecked, rfl⟩ := hok () s' h
  exact hchecked.foldl_copyRow s ▸ hchecked.isCopy hdisjoint s

/-- A memory of two gray rows of two pixels, and room for a gray pixel behind them. -/
def grayMemory : TracedMemory := ⟨fun address => UInt8.ofNat address, []⟩

def graySource : MemoryView := ⟨⟨0, 5⟩, 2, 2, 3, .gray8⟩

def grayDestination : MemoryView := ⟨⟨100, 4⟩, 1, 1, 4, .gray8⟩

theorem copyCrop_frame_lastPixel : ∃ s',
    copyCrop graySource ⟨1, 1, 1, 1⟩ grayDestination grayMemory = .ok () s' ∧
      s'.memory 100 = 4 ∧ s'.memory 101 = 101 := by
  have haccepted : ((copyCrop graySource ⟨1, 1, 1, 1⟩ grayDestination).returned?
      grayMemory).isSome = true := by decide +kernel
  obtain ⟨u, hreturned⟩ := Option.isSome_iff_exists.mp haccepted
  obtain ⟨s', hrun⟩ := returned?_eq_some.mp hreturned
  have hdisjoint : graySource.bytes.range.Disjoint grayDestination.bytes.range := by
    intro address hsource hdestination
    exact absurd (hsource.2.trans_le (by decide : 0 + 5 ≤ 100)) (Nat.not_lt.mpr hdestination.1)
  have hcopy :=
    (copyCrop_frame graySource ⟨1, 1, 1, 1⟩ grayDestination grayMemory s').1 hdisjoint hrun
  refine ⟨s', hrun, hcopy.pixel 0 (by decide) 0 (by decide) 0 (by decide), hcopy.frame 101 ?_⟩
  decide

end MemoryView

end SizeT

end FacLpr

import FacLpr.Infrastructure.Crop.WellFormedCrops
import FacLpr.Infrastructure.Opencv.PerspectiveAligner

/-!
# Infrastructure/Opencv/AlignedImages — what is aligned is an image the boundary takes

Whatever OpenCV and `<cmath>` compute, an alignment writes a packed image between the bounds of its
configuration, or copies a region inside the source.  So what `align` returns passes the check the
source passed, but for the number of its bytes, which only a copy is known to keep; and what it
throws is an interruption, a failure of the provider or a failed allocation (`align_valid`).
-/

namespace FacLpr

open Program

/-! ## Packed images -/

/-- An image whose rows follow each other without padding. -/
structure ImageBuffer.Packed (buffer : ImageBuffer) : Prop where
  width : 0 < buffer.width
  height : 0 < buffer.height
  stride : buffer.strideBytes = buffer.width * pixelFormatChannels buffer.format
  bytes : buffer.bytes.length = buffer.strideBytes * buffer.height

theorem ImageBuffer.Packed.fits {buffer : ImageBuffer} (h : buffer.Packed) : buffer.view.Fits where
  width := h.width
  height := h.height
  stride := h.stride.ge
  extent := by
    change (buffer.height - 1) * buffer.strideBytes +
      buffer.width * pixelFormatChannels buffer.format ≤ buffer.bytes.length
    rw [← h.stride, h.bytes, ← Nat.succ_mul, Nat.succ_eq_add_one, Nat.sub_add_cancel h.height,
      Nat.mul_comm]

namespace OpenCvPerspectiveAligner

open PlateGeometryValidator CropHypothesisGenerator

theorem checkedMultiply_eq_ok {left right : ℕ} {field : String} {product : ℕ} :
    CropHypothesisGenerator.checkedMultiply left right field = .ok product ↔
      left * right ≤ sizeMax ∧ left * right = product := by
  simp only [CropHypothesisGenerator.checkedMultiply, except_bind_eq_ok, require_eq_ok,
    decide_eq_true_eq]
  constructor
  · rintro ⟨-, hmax, h⟩
    exact ⟨hmax, Except.ok.inj h⟩
  · rintro ⟨hmax, h⟩
    exact ⟨(), hmax, congrArg Except.ok h⟩

/-- The blank image of a size. -/
def blankImage (width height : ℕ) (format : PixelFormat) : ImageBuffer :=
  ⟨List.replicate (width * pixelFormatChannels format * height) 0, width, height,
    width * pixelFormatChannels format, format⟩

theorem resizeBytes_error {resize : ℕ → Option VectorFault} {bytes : ℕ} (error : EngineError)
    (h : resizeBytes resize bytes = .error error) :
    ∃ fault, resize bytes = some fault ∧ error = fault.error := by
  unfold resizeBytes at h
  cases hresize : resize bytes with
  | none =>
    rw [hresize] at h
    cases h
  | some fault =>
    rw [hresize] at h
    exact ⟨fault, rfl, (Except.error.inj h).symm⟩

/-- **Allocating an image** of a size that fits is left to the vector. -/
theorem allocateImage_eq (resize : ℕ → Option VectorFault) {width height : ℕ} {format : PixelFormat}
    (hwidth : 0 < width) (hheight : 0 < height)
    (hsize : width * pixelFormatChannels format * height ≤ sizeMax) :
    allocateImage resize width height format = do
      resizeBytes resize (width * pixelFormatChannels format * height)
      return blankImage width height format := by
  have hrow := (Nat.le_mul_of_pos_right (width * pixelFormatChannels format) hheight).trans hsize
  have hshape : require (width ≠ 0 ∧ height ≠ 0 ∧ pixelFormatChannels format ≠ 0)
      (invalidImageError "invalid perspective output shape") = .ok () :=
    require_eq_ok.mpr (decide_eq_true
      ⟨hwidth.ne', hheight.ne', pixelFormatChannels_ne_zero format⟩)
  have hstride : CropHypothesisGenerator.checkedMultiply width (pixelFormatChannels format)
      "perspective output stride" = .ok _ := checkedMultiply_eq_ok.mpr ⟨hrow, rfl⟩
  have hbytes : CropHypothesisGenerator.checkedMultiply (width * pixelFormatChannels format) height
      "perspective output bytes" = .ok _ := checkedMultiply_eq_ok.mpr ⟨hsize, rfl⟩
  simp only [allocateImage, bind, Except.bind, hshape, hstride, hbytes]
  rfl

/-- Writing every byte of a blank image leaves it packed. -/
theorem packed_blankImage {width height : ℕ} (format : PixelFormat) (pixel : ℕ → Byte)
    (hwidth : 0 < width) (hheight : 0 < height) :
    ({ blankImage width height format with
      bytes := (List.range (blankImage width height format).bytes.length).map pixel }
        : ImageBuffer).Packed where
  width := hwidth
  height := hheight
  stride := rfl
  bytes := by
    rw [List.length_map, List.length_range]
    exact List.length_replicate

/-! ## The copy of the box -/

section Copy

variable {source : ImageView} {region : ImageRegion}

/-- **Copying a region** is packing its view. -/
theorem exists_copyCrop (h : source.Measured) (hregion : region.Inside source.width source.height) :
    ∃ copied, NativeImage.copyCrop source region
        (blankImage region.width region.height source.format) = .ok copied ∧
      packCopy (source.crop region) = .ok copied := by
  have hmeasured := h.crop hregion
  obtain ⟨copied, hcopied⟩ := exists_packCopy hmeasured
  have hview : NativeImage.makeCropView source region = .ok (source.crop region) :=
    (NativeImage.makeCropView_eq_ok h.toFits h.size).mpr ⟨hregion, rfl⟩
  have hwhole : NativeImage.makeCropView (source.crop region) ⟨0, 0, region.width, region.height⟩ =
      .ok (source.crop region) := by
    refine (NativeImage.makeCropView_eq_ok hmeasured.toFits hmeasured.size).mpr
      ⟨hmeasured.toFits.inside_whole, ?_⟩
    exact (ImageView.crop_crop hmeasured.toFits.inside_whole).symm
  refine ⟨copied, ?_, hcopied⟩
  simp only [packCopy, except_bind_eq_ok, require_eq_ok, checkedMultiply_eq_ok] at hcopied
  obtain ⟨-, -, _, ⟨-, rfl⟩, _, ⟨-, rfl⟩, hcopied⟩ := hcopied
  refine Eq.trans ?_ hcopied
  change NativeImage.copyCrop source region (blankImage region.width region.height source.format) =
    NativeImage.copyCrop (source.crop region) ⟨0, 0, region.width, region.height⟩
      (blankImage region.width region.height source.format)
  unfold NativeImage.copyCrop
  rw [hview, hwhole]

/-- A packed copy is a packed image of no more bytes than the rows it was copied from. -/
theorem packed_of_packCopy {view : ImageView} (h : view.Measured) {buffer : ImageBuffer}
    (hpack : packCopy view = .ok buffer) :
    buffer.Packed ∧ buffer.width = view.width ∧ buffer.height = view.height ∧
      buffer.format = view.format ∧ buffer.bytes.length ≤ view.bytes.length := by
  obtain ⟨hsame, hstride, hlength⟩ := packCopy_spec hpack
  have hwidth : view.width = buffer.width := hsame.width
  have hheight : view.height = buffer.height := hsame.height
  have hformat : view.format = buffer.format := hsame.format
  refine ⟨⟨hwidth ▸ h.width, hheight ▸ h.height, ?_, ?_⟩, hwidth.symm, hheight.symm,
    hformat.symm, ?_⟩
  · rw [hstride, hwidth, hformat]
  · rw [hlength, hstride, hheight]
  · rw [hlength]
    calc view.width * pixelFormatChannels view.format * view.height
        = (view.height - 1) * (view.width * pixelFormatChannels view.format) +
            view.width * pixelFormatChannels view.format := by
          rw [← Nat.succ_mul, Nat.succ_eq_add_one, Nat.sub_add_cancel h.height, Nat.mul_comm]
      _ ≤ (view.height - 1) * view.strideBytes + view.width * pixelFormatChannels view.format :=
          Nat.add_le_add_right (Nat.mul_le_mul_left _ h.stride) _
      _ ≤ view.bytes.length := h.extent

end Copy

variable {σ F D : Type} [Scalar F] [Scalar D] [GeometryArithmetic F D] [ImageArithmetic F D]

omit [Scalar D] [GeometryArithmetic F D] in
/-- A region of a box is empty or inside the source. -/
theorem bboxRegion_inside {box : BoundingBox F} {source : ImageView} {horizontal vertical : F}
    (h : (bboxRegion D box source horizontal vertical).empty = false) :
    (bboxRegion D box source horizontal vertical).Inside source.width source.height := by
  refine ⟨h, ?_⟩
  have hnone : noRegion.empty = true := rfl
  unfold bboxRegion at h ⊢
  split at h
  · exact absurd (h.symm.trans hnone) Bool.false_ne_true
  rename_i hvalid
  simp only [if_neg hvalid] at h ⊢
  split at h
  · exact absurd (h.symm.trans hnone) Bool.false_ne_true
  rename_i hspan
  simp only [if_neg hspan] at h ⊢
  split at h
  · rename_i hindices
    rw [if_pos hindices]
    dsimp only
    omega
  · exact absurd (h.symm.trans hnone) Bool.false_ne_true

/-! ## What the aligner returns -/

/-- What the constructor checked of the sizes. -/
structure Sizes (aligner : OpenCvPerspectiveAligner F) : Prop where
  minimumWidth : 0 < aligner.config.minimumOutputWidth
  minimumHeight : 0 < aligner.config.minimumOutputHeight
  maximumWidth : aligner.config.maximumOutputWidth ≤ aligner.imageLimits.maxImageWidth
  maximumHeight : aligner.config.maximumOutputHeight ≤ aligner.imageLimits.maxImageHeight

theorem sizes (aligner : OpenCvPerspectiveAligner F) : aligner.Sizes := by
  have haccepted := require_eq_ok.mp aligner.accepted
  simp only [Bool.and_eq_true, decide_eq_true_eq] at haccepted
  obtain ⟨⟨⟨-, hwidth, hheight, -, -, hmaxWidth, hmaxHeight⟩, -⟩, -⟩ := haccepted
  exact ⟨Nat.pos_of_ne_zero hwidth, Nat.pos_of_ne_zero hheight, hmaxWidth, hmaxHeight⟩

theorem pixelFormatChannels_le (format : PixelFormat) : pixelFormatChannels format ≤ 3 := by
  cases format <;> decide

/-- What an accepted configuration of the limits bounds. -/
theorem bounds_of_check {limits : ImageLimits} (h : limits.check = .ok ()) :
    limits.maxImageWidth ≤ 32768 ∧ limits.maxImageHeight ≤ 32768 ∧
      limits.maxImageBytes ≤ sizeMax := by
  simp only [ImageLimits.check, except_bind_eq_ok, require_eq_ok, decide_eq_true_eq] at h
  obtain ⟨-, -, -, -, -, -, -, ⟨hwidth, hheight⟩, hbytes⟩ := h
  refine ⟨hwidth, hheight, hbytes.trans ?_⟩
  unfold sizeMax
  omega

theorem length_le_of_validateImage {image : ImageView} {limits : ImageLimits}
    {validated : ValidatedImage} (h : validateImage image limits = .ok validated) :
    image.bytes.length ≤ limits.maxImageBytes := by
  simp only [validateImage, except_bind_eq_ok, require_eq_ok, decide_eq_true_eq] at h
  obtain ⟨-, -, -, -, -, -, -, hlength, -⟩ := h
  exact hlength

/-- What the aligner may return for a source. -/
structure Aligned (aligner : OpenCvPerspectiveAligner F) (source : ImageView)
    (image : ImageBuffer) : Prop where
  packed : image.Packed
  format : image.format = source.format
  /-- It is of a size the configuration allows, or copied from a region of the source, and then
  passes the check the source passed. -/
  origin : ((aligner.config.minimumOutputWidth ≤ image.width ∧
      image.width ≤ aligner.config.maximumOutputWidth) ∧
    aligner.config.minimumOutputHeight ≤ image.height ∧
      image.height ≤ aligner.config.maximumOutputHeight) ∨
    (∃ region : ImageRegion, region.Inside source.width source.height ∧
      ImageView.ShowsRegion image.view source region) ∧
    ∃ validated, validateImage image.view aligner.imageLimits = .ok validated
  /-- Only the number of its bytes may keep it from passing that check. -/
  accepted : (∃ validated, validateImage image.view aligner.imageLimits = .ok validated) ↔
    image.bytes.length ≤ aligner.imageLimits.maxImageBytes

/-- A packed image of an accepted width and height passes the check unless it has too many bytes. -/
theorem exists_validateImage_iff_of_packed {limits : ImageLimits} (h : limits.check = .ok ())
    {image : ImageBuffer} (hpacked : image.Packed) (hwidth : image.width ≤ limits.maxImageWidth)
    (hheight : image.height ≤ limits.maxImageHeight) :
    (∃ validated, validateImage image.view limits = .ok validated) ↔
      image.bytes.length ≤ limits.maxImageBytes := by
  constructor
  · rintro ⟨validated, hvalidated⟩
    exact length_le_of_validateImage hvalidated
  · intro hbytes
    have hsize : image.view.bytes.length ≤ sizeMax := hbytes.trans (bounds_of_check h).2.2
    exact (exists_validateImage_eq_ok hsize).mpr ⟨hpacked.fits, ⟨hwidth, hheight, hbytes⟩⟩

/-- An allocation that failed. -/
def IsAllocationFailure (library : WarpLibrary F) (e : Exn) : Prop :=
  ∃ bytes fault, (library.resizeOutput bytes = some fault ∨
    library.resizeCopy bytes = some fault) ∧ e = .engine fault.error

omit [Scalar D] [GeometryArithmetic F D] [ImageArithmetic F D] in
/-- **A copied region** passes the check the source passed. -/
theorem aligned_of_copyCrop {aligner : OpenCvPerspectiveAligner F}
    (h : aligner.imageLimits.check = .ok ()) {source : ImageView} {validated : ValidatedImage}
    (hsource : validateImage source aligner.imageLimits = .ok validated) {region : ImageRegion}
    (hregion : region.Inside source.width source.height) {copied : ImageBuffer}
    (hpack : packCopy (source.crop region) = .ok copied) : aligner.Aligned source copied := by
  have hmeasured := ImageView.measured_of_validateImage hsource
  have hsize := (length_le_of_validateImage hsource).trans (bounds_of_check h).2.2
  obtain ⟨hpacked, hwidth, hheight, hformat, hlength⟩ :=
    packed_of_packCopy (hmeasured.crop hregion) hpack
  have hlimits := ((exists_validateImage_eq_ok hsize).mp ⟨validated, hsource⟩).2.crop hregion
  have hshows := (ImageView.showsRegion_crop source region).congr (packCopy_spec hpack).1
  have haccepted := exists_validateImage_iff_of_packed h hpacked
    (hwidth.trans_le hlimits.width) (hheight.trans_le hlimits.height)
  exact ⟨hpacked, hformat, Or.inr ⟨⟨region, hregion, hshows⟩,
    haccepted.mpr (hlength.trans hlimits.bytes)⟩, haccepted⟩

omit [Scalar D] [GeometryArithmetic F D] in
/-- The fallback, of a region with pixels: its copy, once it is allocated. -/
theorem exists_bboxFallback_eq (library : WarpLibrary F) {aligner : OpenCvPerspectiveAligner F}
    {source : ImageView} (hmeasured : source.Measured) (detection : Detection F)
    (hallowed : aligner.config.allowBboxFallback = true)
    (hregion : (paddedBboxRegion D detection.bbox source aligner.config).Inside source.width
      source.height) :
    ∃ bytes copied, packCopy (source.crop (paddedBboxRegion D detection.bbox source
        aligner.config)) = .ok copied ∧
      bboxFallback D library aligner source detection =
        (resizeBytes library.resizeCopy bytes).map fun _ => some copied := by
  have hempty := hregion.1
  unfold bboxFallback
  simp only [hallowed, hempty, Bool.not_true, Bool.false_eq_true, if_false]
  generalize paddedBboxRegion D detection.bbox source aligner.config = region at hregion
  have hcrop := hmeasured.crop hregion
  obtain ⟨copied, hcopied, hpack⟩ := exists_copyCrop hmeasured hregion
  refine ⟨region.width * pixelFormatChannels source.format * region.height, copied, hpack, ?_⟩
  have hallocate : allocateImage library.resizeCopy region.width region.height source.format = do
      resizeBytes library.resizeCopy
        (region.width * pixelFormatChannels source.format * region.height)
      return blankImage region.width region.height source.format :=
    allocateImage_eq library.resizeCopy hcrop.width hcrop.height (packedSize_le hcrop)
  rw [hallocate]
  cases resizeBytes library.resizeCopy
      (region.width * pixelFormatChannels source.format * region.height) with
  | error e => rfl
  | ok _ =>
    change (do
      let copied ← NativeImage.copyCrop source region
        (blankImage region.width region.height source.format)
      return some copied : Except EngineError (Option ImageBuffer)) = .ok (some copied)
    rw [hcopied]
    rfl

omit [Scalar D] [GeometryArithmetic F D] in
/-- **The fallback copies a region of the source**, or nothing, where it can allocate the copy. -/
theorem bboxFallback_valid (library : WarpLibrary F) {aligner : OpenCvPerspectiveAligner F}
    (h : aligner.imageLimits.check = .ok ()) {source : ImageView} {validated : ValidatedImage}
    (hsource : validateImage source aligner.imageLimits = .ok validated)
    (detection : Detection F) :
    (∀ aligned, bboxFallback D library aligner source detection = .ok aligned →
      ∀ image ∈ aligned, aligner.Aligned source image) ∧
    ∀ error, bboxFallback D library aligner source detection = .error error →
      IsAllocationFailure library (.engine error) := by
  have hnone (hfallback : bboxFallback D library aligner source detection = .ok none) :
      (∀ aligned, bboxFallback D library aligner source detection = .ok aligned →
        ∀ image ∈ aligned, aligner.Aligned source image) ∧
      ∀ error, bboxFallback D library aligner source detection = .error error →
        IsAllocationFailure library (.engine error) := by
    refine ⟨fun aligned haligned => ?_, fun error herror => nomatch hfallback.symm.trans herror⟩
    obtain rfl := Except.ok.inj (hfallback.symm.trans haligned)
    exact fun image himage => nomatch himage
  cases hallowed : aligner.config.allowBboxFallback with
  | false => exact hnone (by rw [bboxFallback, hallowed]; rfl)
  | true =>
    cases hempty : (paddedBboxRegion D detection.bbox source aligner.config).empty with
    | true => exact hnone (by simp only [bboxFallback, hallowed, hempty]; rfl)
    | false =>
      have hregion : (paddedBboxRegion D detection.bbox source aligner.config).Inside source.width
        source.height := bboxRegion_inside hempty
      obtain ⟨bytes, copied, hpack, hfallback⟩ := exists_bboxFallback_eq library
        (ImageView.measured_of_validateImage hsource) detection hallowed hregion
      rw [hfallback]
      cases hresize : resizeBytes library.resizeCopy bytes with
      | error e =>
        refine ⟨fun _ haligned => (nomatch haligned), fun error herror => ?_⟩
        obtain rfl := Except.error.inj herror
        obtain ⟨fault, hfault, rfl⟩ := resizeBytes_error e hresize
        exact ⟨bytes, fault, Or.inr hfault, rfl⟩
      | ok _ =>
        refine ⟨fun aligned haligned image himage => ?_, fun _ herror => nomatch herror⟩
        obtain rfl := Except.ok.inj haligned
        obtain rfl := Option.some.inj himage
        exact aligned_of_copyCrop h hsource hregion hpack

/-! ## The alignment -/

omit [ImageArithmetic F D] in
/-- The evaluation of a detection throws nothing. -/
theorem exists_evaluate (c : Config F) (detection : Detection F) :
    ∃ evaluation, evaluate D c detection = .ok evaluation := by
  unfold evaluate
  dsimp only
  split
  · exact ⟨_, rfl⟩
  split
  · exact ⟨_, rfl⟩
  split
  · exact ⟨_, rfl⟩
  split
  · exact ⟨_, rfl⟩
  rename_i hfinite
  split
  · exact ⟨_, rfl⟩
  · refine ⟨_, except_bind_eq_ok.mpr ⟨_, except_bind_eq_ok.mpr ⟨(), ?_, rfl⟩, rfl⟩⟩
    exact require_eq_ok.mpr (decide_eq_true (not_not.mp hfinite))

omit [GeometryArithmetic F D] in
theorem boundedDimension_ok [LawfulBoundArithmetic F D] {measured : F} {minimum maximum size : ℕ}
    (hmaximum : maximum < 2 ^ 53) (h : boundedDimension D measured minimum maximum = .ok size) :
    minimum ≤ size ∧ size ≤ maximum := by
  simp only [boundedDimension, except_bind_eq_ok, require_eq_ok, Bool.and_eq_true,
    decide_eq_true_eq] at h
  obtain ⟨-, ⟨-, -, hbounds⟩, hsize⟩ := h
  obtain rfl := Except.ok.inj hsize
  exact LawfulBoundArithmetic.floorWide_clamp_mem hbounds hmaximum

/-- A failure of the provider. -/
def IsProviderFailure (e : Exn) : Prop := ∃ message, e = .engine (providerError message)

theorem isProviderFailure_of_require {check : Bool} {message : String} (error : EngineError)
    (h : require check (providerError message) = .error error) :
    IsProviderFailure (.engine error) :=
  ⟨message, congrArg Exn.engine (require_eq_error h)⟩

omit [GeometryArithmetic F D] in
theorem boundedDimension_error {measured : F} {minimum maximum : ℕ} (error : EngineError)
    (h : boundedDimension D measured minimum maximum = .error error) :
    IsProviderFailure (.engine error) :=
  except_bind_error isProviderFailure_of_require (fun _ _ hreturn => by cases hreturn) error h

omit [Scalar D] [ImageArithmetic F D] in
theorem normalizedDirection_error {start finish : Point2f F} (error : EngineError)
    (h : normalizedDirection D start finish = .error error) :
    IsProviderFailure (.engine error) :=
  except_bind_error isProviderFailure_of_require (fun _ _ hreturn => by cases hreturn) error h

omit [Scalar D] [ImageArithmetic F D] in
theorem paddedCorners_error {corners : Fin 4 → Point2f F} {source : ImageView}
    {config : PerspectiveAlignerConfig F} (error : EngineError)
    (h : paddedCorners D corners source config = .error error) :
    IsProviderFailure (.engine error) := by
  exact except_bind_error (except_bind_error normalizedDirection_error fun _ =>
    except_bind_error normalizedDirection_error fun _ =>
      except_bind_error normalizedDirection_error fun _ =>
        except_bind_error normalizedDirection_error fun _ _ hreturn => by cases hreturn)
    (fun _ _ hreturn => by cases hreturn) error h

omit [Scalar D] [GeometryArithmetic F D] [ImageArithmetic F D] in
/-- **A warped output** has its bytes written, each of them, by OpenCV. -/
theorem warped_eq_some {library : WarpLibrary F} {source : ImageView}
    {corners : Fin 4 → Point2f F} {output image : ImageBuffer}
    (h : warped library source corners output = .ok (some image)) :
    ∃ transform pixel,
      library.getPerspectiveTransform corners (destinationCorners output) = .ok transform ∧
      library.usable transform = true ∧
      library.warpPerspective source transform output = .ok pixel ∧
      image = { output with bytes := (List.range output.bytes.length).map pixel } := by
  obtain ⟨transform, htransform, h⟩ := except_bind_eq_ok.mp h
  split at h
  · cases h
  rename_i husable
  obtain ⟨pixel, hpixel, himage⟩ := except_bind_eq_ok.mp h
  refine ⟨transform, pixel, htransform, by simpa using husable, hpixel, ?_⟩
  exact (Option.some.inj (Except.ok.inj himage)).symm

omit [Scalar F] in
/-- The view of a validated image passes the checks of the adapter. -/
theorem checkView_eq_ok (library : WarpLibrary F)
    (hcontinuous : ∀ view : ImageView,
      view.strideBytes = view.width * pixelFormatChannels view.format → library.isContinuous view)
    {limits : ImageLimits} (hlimits : limits.check = .ok ()) {source : ImageView}
    {validated : ValidatedImage} (hsource : validateImage source limits = .ok validated) :
    library.checkView validated = .ok () := by
  obtain ⟨hmaxWidth, hmaxHeight, -⟩ := bounds_of_check hlimits
  have haccepted := (accepted_of_validateImage hsource).1
  obtain ⟨hview, hrow⟩ : validated.view = source ∧
      validated.minimumRowBytes = source.width * pixelFormatChannels source.format := by
    simp only [validateImage, except_bind_eq_ok, FacLpr.checkedMultiply_eq_ok] at hsource
    obtain ⟨-, -, -, -, -, -, -, -, row, ⟨-, rfl⟩, -, -, tail, ⟨-, rfl⟩, required, -, -, -, -, -,
      hvalidated⟩ := hsource
    obtain rfl := Except.ok.inj hvalidated
    exact ⟨rfl, rfl⟩
  have hwidth := haccepted.width.2
  have hheight := haccepted.height.2
  simp only [WarpLibrary.checkView, except_bind_eq_ok, require_eq_ok, decide_eq_true_eq, hview,
    hrow, Bool.or_eq_true, bne_iff_ne]
  refine ⟨(), by omega, (), by omega, ?_⟩
  by_cases hstride : source.strideBytes = source.width * pixelFormatChannels source.format
  · exact Or.inl (hcontinuous source hstride)
  · exact Or.inr hstride

variable [World σ]

/-- What an alignment may throw. -/
def IsAlignmentFailure (library : WarpLibrary F) (e : Exn) : Prop :=
  IsInterruption e ∨ IsProviderFailure e ∨ IsAllocationFailure library e

omit [Scalar D] [GeometryArithmetic F D] [ImageArithmetic F D] in
/-- An output of an allowed size has no more bytes than a size can count. -/
theorem outputBytes_le {aligner : OpenCvPerspectiveAligner F}
    (h : aligner.imageLimits.check = .ok ()) (format : PixelFormat) {width height : ℕ}
    (hwidth : width ≤ aligner.config.maximumOutputWidth)
    (hheight : height ≤ aligner.config.maximumOutputHeight) :
    width * pixelFormatChannels format * height ≤ sizeMax := by
  have hsizes := aligner.sizes
  obtain ⟨hmaxWidth, hmaxHeight, -⟩ := bounds_of_check h
  have hle := Nat.mul_le_mul (Nat.mul_le_mul (hwidth.trans (hsizes.maximumWidth.trans hmaxWidth))
    (pixelFormatChannels_le format)) (hheight.trans (hsizes.maximumHeight.trans hmaxHeight))
  exact hle.trans (by decide)

omit [GeometryArithmetic F D] [World σ] in
theorem returns_outputWidth [LawfulBoundArithmetic F D] {aligner : OpenCvPerspectiveAligner F}
    (h : aligner.imageLimits.check = .ok ()) (measured : F) :
    Returns (Run.ofExcept (boundedDimension D measured aligner.config.minimumOutputWidth
        aligner.config.maximumOutputWidth) : Run σ ℕ) fun width =>
      aligner.config.minimumOutputWidth ≤ width ∧ width ≤ aligner.config.maximumOutputWidth := by
  have hle := aligner.sizes.maximumWidth.trans (bounds_of_check h).1
  exact returns_runOfExcept fun width hwidth => boundedDimension_ok (by omega) hwidth

omit [GeometryArithmetic F D] [World σ] in
theorem returns_outputHeight [LawfulBoundArithmetic F D] {aligner : OpenCvPerspectiveAligner F}
    (h : aligner.imageLimits.check = .ok ()) (measured : F) :
    Returns (Run.ofExcept (boundedDimension D measured aligner.config.minimumOutputHeight
        aligner.config.maximumOutputHeight) : Run σ ℕ) fun height =>
      aligner.config.minimumOutputHeight ≤ height ∧
        height ≤ aligner.config.maximumOutputHeight := by
  have hle := aligner.sizes.maximumHeight.trans (bounds_of_check h).2.1
  exact returns_runOfExcept fun height hheight => boundedDimension_ok (by omega) hheight

/-- **A rectified plate** is a valid image, or none. -/
theorem aligned_rectify [LawfulBoundArithmetic F D] (library : WarpLibrary F)
    {aligner : OpenCvPerspectiveAligner F} (h : aligner.imageLimits.check = .ok ())
    {validated : ValidatedImage}
    (hsource : validateImage validated.view aligner.imageLimits = .ok validated)
    (detection : Detection F) (ordered : Fin 4 → Point2f F) (context : OperationContext) :
    Returns (rectify D library aligner validated detection ordered context :
        Run σ (Option ImageBuffer))
      fun aligned => ∀ image ∈ aligned, aligner.Aligned validated.view image := by
  have hsizes := aligner.sizes
  have hfallback : Returns
      (Run.ofExcept (bboxFallback D library aligner validated.view detection) :
        Run σ (Option ImageBuffer))
      fun aligned => ∀ image ∈ aligned, aligner.Aligned validated.view image :=
    returns_runOfExcept (bboxFallback_valid (D := D) library h hsource detection).1
  refine (returns_self _).bind fun corners _ => ?_
  refine (returns_outputWidth h _).bind fun width hwidth => ?_
  refine (returns_outputHeight h _).bind fun height hheight => ?_
  have hpositive := hsizes.minimumWidth.trans_le hwidth.1
  have hpositive' := hsizes.minimumHeight.trans_le hheight.1
  refine (returns_self _).bind fun _ _ => (returns_self _).bind fun _ _ => ?_
  rw [allocateImage_eq library.resizeOutput hpositive hpositive'
    (outputBytes_le h _ hwidth.2 hheight.2)]
  refine (returns_runOfExcept fun output houtput => ?_).bind fun output
    (houtput : output = blankImage width height validated.view.format) => ?_
  · obtain ⟨-, -, houtput⟩ := except_bind_eq_ok.mp houtput
    exact (Except.ok.inj houtput).symm
  subst houtput
  split
  · exact hfallback
  · exact hfallback
  · exact returns_throw _ _
  · rename_i image hwarped
    refine (returns_self _).bind fun _ _ => returns_pure ?_
    rintro _ ⟨⟩
    obtain ⟨transform, pixel, -, -, -, rfl⟩ := warped_eq_some hwarped
    have hpacked := packed_blankImage validated.view.format pixel hpositive hpositive'
    exact ⟨hpacked, rfl, Or.inl ⟨hwidth, hheight⟩,
      exists_validateImage_iff_of_packed h hpacked (hwidth.2.trans hsizes.maximumWidth)
        (hheight.2.trans hsizes.maximumHeight)⟩

/-- **What a rectification throws**: its allocations may fail in the output and in the copy. -/
theorem throws_rectify [LawfulBoundArithmetic F D] (library : WarpLibrary F)
    (hcontinuous : ∀ view : ImageView,
      view.strideBytes = view.width * pixelFormatChannels view.format → library.isContinuous view)
    {aligner : OpenCvPerspectiveAligner F} (h : aligner.imageLimits.check = .ok ())
    {validated : ValidatedImage}
    (hsource : validateImage validated.view aligner.imageLimits = .ok validated)
    (detection : Detection F) (ordered : Fin 4 → Point2f F) (context : OperationContext) :
    Throws (rectify D library aligner validated detection ordered context :
      Run σ (Option ImageBuffer)) (IsAlignmentFailure library) := by
  have hsizes := aligner.sizes
  have hcopy : Throws (Run.ofExcept (bboxFallback D library aligner validated.view detection) :
      Run σ (Option ImageBuffer)) (IsAlignmentFailure library) :=
    throws_runOfExcept fun error herror => Or.inr (Or.inr
      ((bboxFallback_valid (D := D) library h hsource detection).2 error herror))
  refine (throws_runOfExcept fun error herror =>
    Or.inr (Or.inl (paddedCorners_error error herror))).bind fun corners => ?_
  refine (throws_runOfExcept fun error herror => Or.inr (Or.inl
    (boundedDimension_error error herror))).bind_of_returns (returns_outputWidth h _)
      fun width hwidth => ?_
  refine (throws_runOfExcept fun error herror => Or.inr (Or.inl
    (boundedDimension_error error herror))).bind_of_returns (returns_outputHeight h _)
      fun height hheight => ?_
  refine ((throws_checkContext _ _ _).mono fun _ => Or.inl).bind fun _ => ?_
  rw [checkView_eq_ok library hcontinuous h hsource, allocateImage_eq library.resizeOutput
    (hsizes.minimumWidth.trans_le hwidth.1) (hsizes.minimumHeight.trans_le hheight.1)
    (outputBytes_le h _ hwidth.2 hheight.2)]
  refine throws_pure.bind fun _ => (throws_runOfExcept (except_bind_error (fun error herror => ?_)
    fun _ _ hreturn => by cases hreturn)).bind fun output => ?_
  · obtain ⟨fault, hfault, rfl⟩ := resizeBytes_error error herror
    exact Or.inr (Or.inr ⟨_, fault, Or.inl hfault, rfl⟩)
  split
  · exact hcopy
  · exact hcopy
  · exact throws_throw (Or.inr (Or.inl ⟨_, rfl⟩))
  · exact ((throws_checkContext _ _ _).mono fun _ => Or.inl).bind fun _ => throws_pure

/-- **Aligned images are valid.**  For a validated source, whatever OpenCV does with it, an
alignment returns a packed image of the source's format, that passes the source's check unless it
has too many bytes, or nothing; and it throws an interruption, a failure of the provider or a failed
allocation. -/
theorem align_valid [LawfulBoundArithmetic F D] (library : WarpLibrary F)
    (hcontinuous : ∀ view : ImageView,
      view.strideBytes = view.width * pixelFormatChannels view.format → library.isContinuous view)
    {aligner : OpenCvPerspectiveAligner F} (h : aligner.imageLimits.check = .ok ())
    {source : ImageView} {validated : ValidatedImage}
    (hsource : validateImage source aligner.imageLimits = .ok validated)
    (detection : Detection F) (context : OperationContext) :
    Returns (align D library aligner source detection context : Run σ (Option ImageBuffer))
        (fun aligned => ∀ image ∈ aligned, aligner.Aligned source image) ∧
      Throws (align D library aligner source detection context : Run σ (Option ImageBuffer))
        (IsAlignmentFailure library) := by
  obtain rfl := validateImage_view hsource
  obtain ⟨hfallback, hfallbackError⟩ := bboxFallback_valid (D := D) library h hsource detection
  obtain ⟨evaluation, hevaluation⟩ := exists_evaluate (D := D) aligner.geometry detection
  have hthrows := throws_rectify (D := D) (σ := σ) library hcontinuous h hsource detection
    evaluation.orderedCorners context
  have halign : (align D library aligner validated.view detection context :
      Run σ (Option ImageBuffer)) = checkAlignerContext context >>= fun _ =>
        if !evaluation.valid then
          Run.ofExcept (bboxFallback D library aligner validated.view detection)
        else rectify D library aligner validated detection evaluation.orderedCorners context := by
    unfold align
    rw [hsource, hevaluation]
    rfl
  rw [halign]
  refine ⟨(returns_self _).bind fun _ _ => ?_,
    ((throws_checkContext _ _ _).mono fun _ => Or.inl).bind fun _ =>
      Throws.ite (throws_runOfExcept fun error herror =>
        Or.inr (Or.inr (hfallbackError error herror))) hthrows⟩
  split
  · exact returns_runOfExcept hfallback
  · exact aligned_rectify library h hsource detection evaluation.orderedCorners context

/-! ### An upright plate -/

section Upright

/-- Arithmetic that is exact along the axes, and orders angles as `std::atan2` does. -/
@[reducible] def axisArithmetic : GeometryArithmetic ℚ ℚ where
  hypot x y := |x| + |y|
  absolute x := |x|
  absoluteWide x := |x|
  atan2 y x :=
    if 0 ≤ x then y / (|x| + |y|) else if 0 ≤ y then 2 - y / (|x| + |y|) else -2 - y / (|x| + |y|)
  widen x := x
  narrow x := x

attribute [local instance] axisArithmetic

theorem defaultGeometry_accepted :
    PlateGeometryValidator.validateConfig ({} : GeometryConfig ℚ) = .ok () := by decide +kernel

/-- An aligner whose outputs may have more bytes than its limits allow. -/
def tightAligner : OpenCvPerspectiveAligner ℚ where
  config := {}
  imageLimits := { maxImageBytes := 700 }
  geometry := ⟨{}, defaultGeometry_accepted⟩
  accepted := by decide +kernel

/-- An OpenCV that warps everything to grey. -/
def greyLibrary : WarpLibrary ℚ where
  Transform := Unit
  getPerspectiveTransform _ _ := .ok ()
  usable _ := true
  warpPerspective _ _ _ := .ok fun _ => 128
  isContinuous _ := true
  resizeOutput _ := none
  resizeCopy _ := none

def uprightImage : ImageView := ⟨List.replicate 640 7, 40, 16, 40, .gray8⟩

def uprightDetection : Detection ℚ where
  bbox := ⟨4, 3, 32, 10⟩
  quadrilateral := some ⟨![⟨4, 3⟩, ⟨36, 3⟩, ⟨36, 13⟩, ⟨4, 13⟩], fun _ => 1⟩
  confidence := 1
  geometryScore := 0
  provider := ascii "yolo_pose_onnx"

theorem align_valid_upright : ∃ image,
    (align ℚ greyLibrary tightAligner uprightImage uprightDetection ⟨none⟩).returned?
      Frozen.frozen = some (some image) ∧ image.width = 64 ∧ image.bytes.length = 1024 ∧
        tightAligner.Aligned uprightImage image := by
  have hsizes : (((align ℚ greyLibrary tightAligner uprightImage uprightDetection
      ⟨none⟩).returned? Frozen.frozen).bind fun aligned => aligned.map fun image =>
        (image.width, image.bytes.length)) = some (64, 1024) := by
    decide +kernel
  obtain ⟨aligned, hreturned, hmapped⟩ := Option.bind_eq_some_iff.mp hsizes
  obtain ⟨image, rfl, hsize⟩ := Option.map_eq_some_iff.mp hmapped
  obtain ⟨hwidth, hbytes⟩ := Prod.mk.inj hsize
  obtain ⟨s', hrun⟩ := returned?_eq_some.mp hreturned
  obtain ⟨validated, hsource⟩ : ∃ validated,
      validateImage uprightImage tightAligner.imageLimits = .ok validated :=
    (exists_validateImage_eq_ok (by decide +kernel)).mpr
      ⟨⟨by decide, by decide, by decide, by decide +kernel⟩, by decide, by decide,
        by decide +kernel⟩
  have hvalid := (align_valid greyLibrary (fun _ _ => rfl) (by decide +kernel) hsource
    uprightDetection ⟨none⟩).1 _ _ _ hrun
  exact ⟨image, hreturned, hwidth, hbytes, hvalid image rfl⟩

end Upright

end OpenCvPerspectiveAligner

end FacLpr

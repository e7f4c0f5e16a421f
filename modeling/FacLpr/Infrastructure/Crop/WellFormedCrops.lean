import FacLpr.Infrastructure.Crop.CropRegions
import FacLpr.Infrastructure.Crop.PaddingNoninterference

/-!
# Infrastructure/Crop/WellFormedCrops — every crop is one of its source

Over exact arithmetic a validated source and an aligned image that is valid are never refused a
region, a view or a copy (`WellFormed.addKind`), so `generate` is only ever interrupted.  What it
returns is `WellFormed`: every crop shows the region it cites.
-/

namespace FacLpr

open Program

/-! ## Views whose sizes are sizes -/

namespace ImageView

/-- The view fits and its extent is a `std::size_t`. -/
structure Measured (image : ImageView) : Prop extends image.Fits where
  size : image.cropExtent image.whole ≤ sizeMax

theorem measured_of_validateImage {image : ImageView} {limits : ImageLimits}
    {validated : ValidatedImage} (h : validateImage image limits = .ok validated) :
    image.Measured := by
  have haccepted := (accepted_of_validateImage h).1
  have hsize := haccepted.size
  have hextent := haccepted.extent
  rw [Nat.mul_comm] at hsize hextent
  exact ⟨⟨haccepted.width.1, haccepted.height.1, haccepted.stride, hsize⟩, hextent⟩

/-- A region of the pixels of a view shown by another. -/
structure ShowsRegion (shown image : ImageView) (region : ImageRegion) : Prop where
  width : shown.width = region.width
  height : shown.height = region.height
  format : shown.format = image.format
  pixel : ∀ x < region.width, ∀ y < region.height, ∀ channel < pixelFormatChannels image.format,
    shown.byteAt y (x * pixelFormatChannels image.format + channel) =
      image.byteAt (region.y + y) ((region.x + x) * pixelFormatChannels image.format + channel)

variable {image shown : ImageView} {region : ImageRegion}

theorem Fits.inside_whole (h : image.Fits) : image.whole.Inside image.width image.height :=
  ⟨ImageRegion.empty_eq_false.mpr ⟨h.width, h.height⟩, (Nat.zero_add _).le, (Nat.zero_add _).le⟩

theorem showsRegion_whole (image : ImageView) : ShowsRegion image image image.whole :=
  ⟨rfl, rfl, rfl, fun x _ y _ channel _ => by simp only [whole, Nat.zero_add]⟩

/-- What shows the same shows the region. -/
theorem ShowsRegion.congr {shown' : ImageView} (h : ShowsRegion shown image region)
    (hsame : SamePixels shown shown') : ShowsRegion shown' image region where
  width := hsame.width.symm.trans h.width
  height := hsame.height.symm.trans h.height
  format := hsame.format.symm.trans h.format
  pixel x hx y hy channel hchannel := by
    have hbyte := hsame.byteAt (h.width ▸ hx) (h.height ▸ hy) (h.format ▸ hchannel)
    rw [h.format] at hbyte
    exact hbyte.symm.trans (h.pixel x hx y hy channel hchannel)

/-- A crop is measured when its image is. -/
theorem Measured.crop (h : image.Measured) (hregion : region.Inside image.width image.height) :
    (image.crop region).Measured where
  toFits := h.toFits.crop hregion
  size := (Nat.le_add_left _ _).trans ((cropOffset_add_le hregion).trans h.size)

/-- **A crop shows its region.** -/
theorem showsRegion_crop (image : ImageView) (region : ImageRegion) :
    ShowsRegion (image.crop region) image region where
  width := rfl
  height := rfl
  format := rfl
  pixel x hx y hy channel hchannel := by
    have hpixel : x * pixelFormatChannels image.format + channel <
        region.width * pixelFormatChannels image.format := by
      calc x * pixelFormatChannels image.format + channel
          < (x + 1) * pixelFormatChannels image.format := by rw [Nat.succ_mul]; omega
        _ ≤ region.width * pixelFormatChannels image.format := Nat.mul_le_mul_right _ hx
    have hrow : y * image.strideBytes ≤ (region.height - 1) * image.strideBytes :=
      Nat.mul_le_mul_right _ (Nat.le_sub_one_of_lt hy)
    have hextent : y * image.strideBytes + (x * pixelFormatChannels image.format + channel) <
        image.cropExtent region := by
      rw [cropExtent]
      omega
    have hindex : image.cropOffset region +
        (y * image.strideBytes + (x * pixelFormatChannels image.format + channel)) =
          (region.y + y) * image.strideBytes +
            ((region.x + x) * pixelFormatChannels image.format + channel) := by
      rw [cropOffset, Nat.add_mul, Nat.add_mul]
      omega
    rw [byteAt, byteAt, List.getD_eq_getElem?_getD, List.getD_eq_getElem?_getD, ← hindex]
    exact congrArg (Option.getD · 0) (getElem?_crop hextent)

end ImageView

/-! ## What a measured view is never refused -/

namespace CropHypothesisGenerator

open ImageView

variable {σ F D : Type} [Scalar F] {view : ImageView}

theorem exists_fingerprintCrop (h : view.Measured) :
    ∃ fingerprint, fingerprintCrop view = .ok fingerprint := by
  have hchannels := pixelFormatChannels_pos view.format
  have hsize := h.size
  have hextent := h.extent
  have hrow : 0 < view.width * pixelFormatChannels view.format := Nat.mul_pos h.width hchannels
  have hbytes : view.bytes ≠ [] := List.ne_nil_of_length_pos (by omega)
  have hwidth : view.width ≤ sizeMax / pixelFormatChannels view.format :=
    (Nat.le_div_iff_mul_le hchannels).mpr ((Nat.le_add_left _ _).trans hsize)
  exact ⟨_, fingerprintCrop_eq_ok.mpr ⟨⟨h.width.ne', h.height.ne', hbytes⟩, hwidth, h.stride, rfl⟩⟩

/-- The packed bytes are no more than those of the rows. -/
theorem packedSize_le (h : view.Measured) :
    view.width * pixelFormatChannels view.format * view.height ≤ sizeMax := by
  have hheight := Nat.sub_add_cancel h.height
  calc view.width * pixelFormatChannels view.format * view.height
      = (view.height - 1) * (view.width * pixelFormatChannels view.format) +
          view.width * pixelFormatChannels view.format := by
        rw [← Nat.succ_mul, Nat.succ_eq_add_one, hheight, Nat.mul_comm]
    _ ≤ (view.height - 1) * view.strideBytes + view.width * pixelFormatChannels view.format :=
        Nat.add_le_add_right (Nat.mul_le_mul_left _ h.stride) _
    _ ≤ sizeMax := h.size

theorem exists_packCopy (h : view.Measured) : ∃ buffer, packCopy view = .ok buffer := by
  have hpacked := packedSize_le h
  have hrow : view.width * pixelFormatChannels view.format ≤ sizeMax :=
    (Nat.le_add_left _ _).trans h.size
  have htail : (view.height - 1) * (view.width * pixelFormatChannels view.format) +
      view.width * pixelFormatChannels view.format =
        view.width * pixelFormatChannels view.format * view.height := by
    rw [← Nat.succ_mul, Nat.succ_eq_add_one, Nat.sub_add_cancel h.height, Nat.mul_comm]
  have hcrop : NativeImage.makeCropView view view.whole = .ok (view.crop view.whole) :=
    (NativeImage.makeCropView_eq_ok h.toFits h.size).mpr ⟨h.inside_whole, rfl⟩
  have hbytes : (view.height - 1) * (view.width * pixelFormatChannels view.format) +
      view.width * pixelFormatChannels view.format ≤ (List.replicate
        (view.width * pixelFormatChannels view.format * view.height) (0 : Byte)).length := by
    rw [List.length_replicate, htail]
  simp only [packCopy, CropHypothesisGenerator.checkedMultiply, NativeImage.copyCrop,
    except_bind_eq_ok, require_eq_ok, checkedMultiply_eq_ok, checkedAdd_eq_ok, decide_eq_true_eq]
  exact ⟨_, (), ⟨h.width.ne', h.height.ne'⟩, _, ⟨(), hrow, rfl⟩, _, ⟨(), hpacked, rfl⟩, _, hcrop,
    (), ⟨rfl, rfl, rfl⟩, _, ⟨hrow, rfl⟩, (), le_rfl, _,
    ⟨(Nat.le_add_right _ _).trans (htail.le.trans hpacked), rfl⟩, _,
    ⟨htail.le.trans hpacked, rfl⟩, (), hbytes, rfl⟩

/-- **A measured view is tried** without an error. -/
theorem exists_tryAdd (h : view.Measured) (config : CropHypothesisGeneratorConfig F)
    (kind : CropGeneratorKind) (sourceName : Text) (hypotheses : List (CropHypothesis F)) :
    ∃ next, tryAdd config view kind sourceName hypotheses = .ok next := by
  obtain ⟨fingerprint, hfingerprint⟩ := exists_fingerprintCrop h
  obtain ⟨buffer, hbuffer⟩ := exists_packCopy h
  unfold tryAdd
  split
  · exact ⟨_, rfl⟩
  · by_cases hseen : (hypotheses.any fun hypothesis => hypothesis.fingerprint == fingerprint) = true
    · exact ⟨_, except_bind_eq_ok.mpr ⟨fingerprint, hfingerprint, if_pos hseen⟩⟩
    · exact ⟨_, except_bind_eq_ok.mpr ⟨fingerprint, hfingerprint,
        (if_neg hseen).trans (except_bind_eq_ok.mpr ⟨buffer, hbuffer, rfl⟩)⟩⟩

/-! ## The crops of a detection -/

/-- What a crop of a kind cites: the name of an image, the image, and a region of it. -/
structure Citation where
  name : Text
  image : ImageView
  region : ImageRegion

section Crops

variable (config : CropHypothesisGeneratorConfig ℚ) (source : ImageView) (box : BoundingBox ℚ)
  (aligned : Option ImageBuffer)

def cited : CropGeneratorKind → Option Citation
  | .plateDominantSource => some ⟨ascii "source_image", source, source.whole⟩
  | .plateDominantTextRegion =>
      some ⟨ascii "source_image", source, plateTextRegion ℚ source config⟩
  | .rectified =>
      aligned.map fun image => ⟨ascii "perspective_aligner", image.view, image.view.whole⟩
  | .rawBbox => some ⟨ascii "source_image", source, bboxRegion ℚ box source 0 0⟩
  | .paddedBbox => some ⟨ascii "source_image", source, bboxRegion ℚ box source
      config.horizontalPaddingRatio config.verticalPaddingRatio⟩

/-- A crop as large as it must be, with the fingerprint of its image, which shows the region its
type and its source cite. -/
structure IsCrop (hypothesis : CropHypothesis ℚ) : Prop where
  width : config.minimumWidth ≤ hypothesis.image.width
  height : config.minimumHeight ≤ hypothesis.image.height
  fingerprint : fingerprintCrop hypothesis.image.view = .ok hypothesis.fingerprint
  shown : ∃ kind citation, cited config source box aligned kind = some citation ∧
    hypothesis.type = kindName kind ∧ hypothesis.source = citation.name ∧
    citation.region.Inside citation.image.width citation.image.height ∧
    ImageView.ShowsRegion hypothesis.image.view citation.image citation.region

/-- No more crops than are asked for, no fingerprint twice, and each a crop. -/
structure WellFormed (hypotheses : List (CropHypothesis ℚ)) : Prop where
  count : hypotheses.length ≤ config.maximumHypotheses
  distinct : hypotheses.Pairwise fun hypothesis other => hypothesis.fingerprint ≠ other.fingerprint
  crop : ∀ hypothesis ∈ hypotheses, IsCrop config source box aligned hypothesis

variable {config source box aligned} {hypotheses next : List (CropHypothesis ℚ)}

theorem wellFormed_nil : WellFormed config source box aligned [] :=
  ⟨Nat.zero_le _, List.Pairwise.nil, fun _ hmem => absurd hmem List.not_mem_nil⟩

/-- **`try_add` keeps the crops well formed**, of a view that shows what it cites. -/
theorem WellFormed.tryAdd (h : WellFormed config source box aligned hypotheses)
    {view : ImageView} {kind : CropGeneratorKind} {citation : Citation}
    (hcited : cited config source box aligned kind = some citation)
    (hinside : citation.region.Inside citation.image.width citation.image.height)
    (hmeasured : view.Measured) (hshows : view.ShowsRegion citation.image citation.region) :
    ∃ next, tryAdd config view kind citation.name hypotheses = .ok next ∧
      WellFormed config source box aligned next := by
  obtain ⟨next, hadd⟩ := exists_tryAdd hmeasured config kind citation.name hypotheses
  refine ⟨next, hadd, ?_⟩
  obtain rfl | ⟨image, fingerprint, ⟨hcount, hwidth, hheight⟩, hview, hnew, himage, rfl⟩ :=
    tryAdd_cases hadd
  · exact h
  obtain ⟨hsame, -⟩ := packCopy_spec himage
  refine ⟨?_, ?_, ?_⟩
  · rw [List.length_append]
    exact hcount
  · refine List.pairwise_append.mpr ⟨h.distinct, List.pairwise_singleton _ _, ?_⟩
    intro hypothesis hmem other hother
    obtain rfl := List.mem_singleton.mp hother
    exact hnew hypothesis hmem
  · intro hypothesis hmem
    rcases List.mem_append.mp hmem with hmem | hmem
    · exact h.crop hypothesis hmem
    · obtain rfl := List.mem_singleton.mp hmem
      exact ⟨hwidth.trans_eq hsame.width, hheight.trans_eq hsame.height,
        fingerprintCrop_packCopy hview himage, kind, citation, hcited, rfl, rfl, hinside,
        hshows.congr hsame⟩

/-- A region of the source is cropped without an error. -/
theorem WellFormed.tryAddRegion (h : WellFormed config source box aligned hypotheses)
    (hsource : source.Measured) {kind : CropGeneratorKind} {region : ImageRegion}
    (hcited : cited config source box aligned kind = some ⟨ascii "source_image", source, region⟩)
    (hinside : region.empty = false → region.Inside source.width source.height) :
    ∃ next, tryAddRegion config source region kind hypotheses = .ok next ∧
      WellFormed config source box aligned next := by
  unfold CropHypothesisGenerator.tryAddRegion
  by_cases hempty : region.empty = true
  · exact ⟨hypotheses, if_pos hempty, h⟩
  have hregion := hinside (Bool.not_eq_true _ ▸ hempty)
  have hview : NativeImage.makeCropView source region = .ok (source.crop region) :=
    (NativeImage.makeCropView_eq_ok hsource.toFits hsource.size).mpr ⟨hregion, rfl⟩
  obtain ⟨next, hadd, hnext⟩ := h.tryAdd hcited hregion (hsource.crop hregion)
    (ImageView.showsRegion_crop source region)
  exact ⟨next, (if_neg hempty).trans (except_bind_eq_ok.mpr ⟨_, hview, hadd⟩), hnext⟩

/-- **A registered kind** adds its crop without an error. -/
theorem WellFormed.addKind (h : WellFormed config source box aligned hypotheses)
    (hsource : source.Measured) (haligned : ∀ image ∈ aligned, image.view.Measured)
    (kind : CropGeneratorKind) :
    ∃ next, addKind ℚ config source box aligned kind hypotheses = .ok next ∧
      WellFormed config source box aligned next := by
  cases kind with
  | plateDominantSource | plateDominantTextRegion => exact ⟨hypotheses, rfl, h⟩
  | rectified =>
    cases aligned with
    | none => exact ⟨hypotheses, rfl, h⟩
    | some image =>
      have himage := haligned image rfl
      have hcited : cited config source box (some image) .rectified =
        some ⟨ascii "perspective_aligner", image.view, image.view.whole⟩ := rfl
      exact h.tryAdd hcited himage.inside_whole himage (ImageView.showsRegion_whole image.view)
  | rawBbox | paddedBbox => exact h.tryAddRegion hsource rfl bboxRegion_inside

/-- The crops of a detection that fills the frame. -/
theorem wellFormed_plateDominantCrops (hconfig : config.Ratios) (hsource : source.Measured) :
    ∃ next, plateDominantCrops ℚ config source = .ok next ∧
      WellFormed config source box aligned next := by
  obtain ⟨hypotheses, hfirst, hkept⟩ := wellFormed_nil.tryAdd
    (rfl : cited config source box aligned .plateDominantSource = _) hsource.inside_whole hsource
    (ImageView.showsRegion_whole source)
  obtain ⟨next, hsecond, hnext⟩ := hkept.tryAddRegion hsource
    (rfl : cited config source box aligned .plateDominantTextRegion = _)
    fun _ => plateTextRegion_inside hconfig hsource.width hsource.height
  exact ⟨next, except_bind_eq_ok.mpr ⟨hypotheses, hfirst, hsecond⟩, hnext⟩

/-! ## The run -/

variable [World σ]

/-- **The loop over the registered kinds** is only ever interrupted. -/
theorem WellFormed.addKinds (h : WellFormed config source box aligned hypotheses)
    (hsource : source.Measured) (haligned : ∀ image ∈ aligned, image.view.Measured)
    (context : OperationContext) (kinds : List CropGeneratorKind) :
    Throws (addKinds ℚ config source box aligned context kinds hypotheses :
        Run σ (List (CropHypothesis ℚ))) IsInterruption ∧
      Returns (addKinds ℚ config source box aligned context kinds hypotheses :
        Run σ (List (CropHypothesis ℚ))) (WellFormed config source box aligned) := by
  induction kinds generalizing hypotheses with
  | nil => exact ⟨throws_pure, returns_pure h⟩
  | cons kind kinds ih =>
    obtain ⟨next, hadd, hnext⟩ := h.addKind hsource haligned kind
    have hstep : (Run.ofExcept (CropHypothesisGenerator.addKind ℚ config source box aligned kind
        hypotheses) >>= CropHypothesisGenerator.addKinds ℚ config source box aligned context kinds :
          Run σ (List (CropHypothesis ℚ))) =
        CropHypothesisGenerator.addKinds ℚ config source box aligned context kinds next := by
      rw [hadd]
      rfl
    have hrest := ih hnext
    rw [← hstep] at hrest
    refine ⟨(throws_checkContext _ _ _).bind fun _ => Throws.ite throws_pure hrest.1,
      (returns_self _).bind fun _ _ => ?_⟩
    split
    · exact returns_pure h
    · exact hrest.2

variable (σ aligned) in
/-- **Crops are well formed.**  For a validated source, any detection and an aligned image that is
valid, `generate` is only ever interrupted, and the crops it returns are well formed; the region of
the box is in that of the padded box, and both are in the image. -/
theorem generate_wellFormed (generator : CropHypothesisGenerator ℚ) {limits : ImageLimits}
    {validated : ValidatedImage} (hsource : validateImage source limits = .ok validated)
    (haligned : ∀ image ∈ aligned, ∃ limits validated,
      validateImage image.view limits = .ok validated)
    (detection : Detection ℚ) (context : OperationContext) :
    Throws (generate ℚ generator source detection aligned context :
        Run σ (List (CropHypothesis ℚ))) IsInterruption ∧
      Returns (generate ℚ generator source detection aligned context :
        Run σ (List (CropHypothesis ℚ)))
          (WellFormed generator.config source detection.bbox aligned) ∧
      (bboxRegion ℚ detection.bbox source 0 0).pixels ⊆
        (bboxRegion ℚ detection.bbox source generator.config.horizontalPaddingRatio
          generator.config.verticalPaddingRatio).pixels ∧
      (bboxRegion ℚ detection.bbox source generator.config.horizontalPaddingRatio
        generator.config.verticalPaddingRatio).pixels ⊆ source.whole.pixels := by
  have hmeasured := ImageView.measured_of_validateImage hsource
  have hvalid : ∀ image ∈ aligned, image.view.Measured := fun image himage => by
    obtain ⟨limits, validated, h⟩ := haligned image himage
    exact ImageView.measured_of_validateImage h
  have hratios := CropHypothesisGeneratorConfig.ratios_of_check generator.accepted
  have hnil : WellFormed generator.config source detection.bbox aligned [] := wellFormed_nil
  have hloop := hnil.addKinds (σ := σ) hmeasured hvalid context generator.config.generatorOrder
  obtain ⟨next, hcrops, hnext⟩ : ∃ next,
      plateDominantCrops ℚ generator.config source = .ok next ∧
        WellFormed generator.config source detection.bbox aligned next :=
    wellFormed_plateDominantCrops hratios hmeasured
  refine ⟨(throws_checkContext _ _ _).bind fun _ => Throws.ite ?_ hloop.1,
    (returns_self _).bind fun _ _ => ?_,
    bboxRegion_subset hratios.horizontalPadding hratios.verticalPadding,
    ImageRegion.pixels_subset bboxRegion_inside⟩
  · exact throws_runOfExcept fun error herror => by rw [hcrops] at herror; cases herror
  · split
    · refine returns_runOfExcept fun crops hreturned => ?_
      rw [hcrops] at hreturned
      exact Except.ok.inj hreturned ▸ hnext
    · exact hloop.2

end Crops

/-! ### A box over the border -/

/-- Twenty columns and ten rows. -/
def borderImage : ImageView := ⟨(List.range 200).map UInt8.ofNat, 20, 10, 20, .gray8⟩

/-- A detection that leaves the image on the left. -/
def borderDetection : Detection ℚ where
  bbox := ⟨-9 / 2, 1, 41 / 2, 8⟩
  quadrilateral := none
  confidence := 1
  geometryScore := 1
  provider := ascii "detector"

theorem exists_validateImage_borderImage :
    ∃ validated, validateImage borderImage {} = .ok validated :=
  (exists_validateImage_eq_ok (by decide +kernel)).mpr
    ⟨⟨by decide, by decide, by decide, by decide +kernel⟩,
      ⟨by decide, by decide, by decide +kernel⟩⟩

/-- A raw and a padded crop. -/
theorem borderCrops : ((generate ℚ CropHypothesisGenerator.default borderImage borderDetection none
    ⟨none⟩).returned? Frozen.frozen).map (fun crops =>
      crops.map fun crop => (crop.image.width, crop.image.height)) = some [(16, 8), (18, 10)] := by
  decide +kernel

theorem generate_wellFormed_border : ∃ crops,
    (generate ℚ CropHypothesisGenerator.default borderImage borderDetection none ⟨none⟩).returned?
        Frozen.frozen = some crops ∧
      crops.map (fun crop => (crop.image.width, crop.image.height)) = [(16, 8), (18, 10)] ∧
      WellFormed CropHypothesisGenerator.default.config borderImage borderDetection.bbox none
        crops := by
  obtain ⟨validated, hsource⟩ := exists_validateImage_borderImage
  obtain ⟨crops, hreturned, hsizes⟩ := Option.map_eq_some_iff.mp borderCrops
  obtain ⟨s', hrun⟩ := returned?_eq_some.mp hreturned
  obtain ⟨-, hcrops, -⟩ := generate_wellFormed Frozen none CropHypothesisGenerator.default hsource
    (fun _ himage => nomatch himage) borderDetection ⟨none⟩
  exact ⟨crops, hreturned, hsizes, hcrops _ _ _ hrun⟩

end CropHypothesisGenerator

end FacLpr

import FacLpr.Infrastructure.Crop.CropHypothesisGenerator
import FacLpr.Infrastructure.CropQuality
import FacLpr.Infrastructure.Lprnet.LprNetPreprocessor
import FacLpr.Infrastructure.Yolo.YoloPosePreprocessor

/-!
# Infrastructure/Crop/PaddingNoninterference — what lies between the rows is not read

Two validated views that show the same pixels have one fingerprint, one quality and one input
tensor, whatever their strides, the bytes between the rows and those past the last.  A packed copy
shows what its view shows, so the crops of a detection show pairwise different things.
-/

namespace FacLpr

open Program

namespace SamePixels

variable {a b : ImageView}

theorem fingerprintBytes (h : SamePixels a b) :
    FacLpr.fingerprintBytes a (a.width * pixelFormatChannels a.format) =
      FacLpr.fingerprintBytes b (b.width * pixelFormatChannels b.format) := by
  have hrows : (List.range a.height).flatMap (fun y =>
      (List.range (a.width * pixelFormatChannels a.format)).map fun x =>
        UInt64.ofNat (a.bytes.getD (y * a.strideBytes + x) 0).toNat) =
      (List.range a.height).flatMap fun y =>
        (List.range (a.width * pixelFormatChannels a.format)).map fun x =>
          UInt64.ofNat (b.bytes.getD (y * b.strideBytes + x) 0).toNat :=
    List.flatMap_congr fun y hy => List.map_congr_left fun x hx =>
      congrArg (fun byte : Byte => UInt64.ofNat byte.toNat)
        (h.bytes y (List.mem_range.mp hy) x (List.mem_range.mp hx))
  unfold FacLpr.fingerprintBytes
  rw [hrows, h.width, h.height, h.format]

end SamePixels

/-- The fingerprint of the pixels of a view. -/
def fingerprintOf (image : ImageView) : UInt64 :=
  (fingerprintBytes image (image.width * pixelFormatChannels image.format)).foldl
    (fun hash value => (hash ^^^ value) * 1099511628211) 14695981039346656037

theorem SamePixels.fingerprintOf {a b : ImageView} (h : SamePixels a b) :
    FacLpr.fingerprintOf a = FacLpr.fingerprintOf b := by
  unfold FacLpr.fingerprintOf
  rw [h.fingerprintBytes]

theorem fingerprintCrop_eq_ok {image : ImageView} {fingerprint : UInt64} :
    fingerprintCrop image = .ok fingerprint ↔
      (image.width ≠ 0 ∧ image.height ≠ 0 ∧ image.bytes ≠ []) ∧
      image.width ≤ sizeMax / pixelFormatChannels image.format ∧
      image.width * pixelFormatChannels image.format ≤ image.strideBytes ∧
      fingerprintOf image = fingerprint := by
  simp only [fingerprintCrop, except_bind_eq_ok, require_eq_ok, decide_eq_true_eq]
  constructor
  · rintro ⟨-, hextent, -, hwidth, -, hstride, h⟩
    exact ⟨hextent, hwidth, hstride, Except.ok.inj h⟩
  · rintro ⟨hextent, hwidth, hstride, h⟩
    exact ⟨(), hextent, (), hwidth, (), hstride, congrArg Except.ok h⟩

theorem pixelFormatChannels_pos (format : PixelFormat) : 0 < pixelFormatChannels format := by
  cases format <;> decide

/-- An accepted view has a fingerprint. -/
theorem ImageView.Accepted.fingerprintCrop {image : ImageView} {limits : ImageLimits}
    (h : image.Accepted limits) : FacLpr.fingerprintCrop image = .ok (fingerprintOf image) :=
  fingerprintCrop_eq_ok.mpr ⟨⟨h.width.1.ne', h.height.1.ne', h.bytes⟩,
    (Nat.le_div_iff_mul_le (pixelFormatChannels_pos _)).mpr h.row, h.stride, rfl⟩

namespace CropQuality

variable {F D : Type} [Scalar F] [Scalar D] [ImageArithmetic F D]

/-- The quality of an accepted view; only its extent can be refused. -/
theorem evaluateCropQuality_of_accepted {image : ImageView} {limits : ImageLimits}
    (h : image.Accepted limits) (config : CropQualityConfig F) :
    evaluateCropQuality D image config = do
      validateQualityConfig config
      if image.width < config.minWidth ∨ image.height < config.minHeight then return {}
      else
        let pixelCount ← checkedMultiply image.width image.height "quality pixel count"
        return qualityOf D config pixelCount (luminances image) (laplacians image) := by
  have hrow : checkedMultiply image.width (pixelFormatChannels image.format) "quality row bytes" =
      .ok (image.width * pixelFormatChannels image.format) := checkedMultiply_eq_ok.mpr ⟨h.row, rfl⟩
  have htail : checkedMultiply (image.height - 1) image.strideBytes "quality image tail" =
      .ok (image.strideBytes * (image.height - 1)) :=
    checkedMultiply_eq_ok.mpr ⟨by rw [mul_comm]; exact h.tail, mul_comm _ _⟩
  have hextent : checkedAdd (image.strideBytes * (image.height - 1))
      (image.width * pixelFormatChannels image.format) "quality image bytes" =
      .ok (image.strideBytes * (image.height - 1) +
        image.width * pixelFormatChannels image.format) := checkedAdd_eq_ok.mpr ⟨h.extent, rfl⟩
  unfold evaluateCropQuality
  refine bind_congr fun _ => ?_
  simp only [h.bytes, or_false]
  split
  · rfl
  · simp only [hrow, htail, hextent, require, bind, Except.bind, h.stride, h.size, decide_true,
      if_true]

/-- **The quality of a view depends on what it shows.** -/
theorem evaluateCropQuality_congr {a b : ImageView} {limits limits' : ImageLimits}
    (ha : a.Accepted limits) (hb : b.Accepted limits') (h : SamePixels a b)
    (config : CropQualityConfig F) :
    evaluateCropQuality D a config = evaluateCropQuality D b config := by
  rw [evaluateCropQuality_of_accepted ha, evaluateCropQuality_of_accepted hb, h.width, h.height,
    h.luminances, h.laplacians]

end CropQuality

/-! ## Packed copies -/

namespace NativeImage

theorem cropBytes_whole {source : List Byte} {stride : ℕ} {format : PixelFormat}
    {width height : ℕ} {bytes : List Byte}
    (h : cropBytes source stride format ⟨0, 0, width, height⟩ = .ok bytes) :
    (height - 1) * stride + width * pixelFormatChannels format ≤ source.length ∧
      bytes = source.take ((height - 1) * stride + width * pixelFormatChannels format) := by
  simp only [cropBytes, except_bind_eq_ok, require_eq_ok, checkedMultiply_eq_ok, checkedAdd_eq_ok,
    decide_eq_true_eq] at h
  obtain ⟨x, ⟨-, rfl⟩, y, ⟨-, rfl⟩, offset, ⟨-, rfl⟩, row, ⟨-, rfl⟩, tail, ⟨-, rfl⟩, required,
    ⟨-, rfl⟩, -, hsize, h⟩ := h
  cases h
  simp only [Nat.zero_mul, Nat.add_zero, Nat.sub_zero, List.drop_zero] at hsize ⊢
  exact ⟨hsize.2, trivial⟩

theorem makeCropView_whole {source view : ImageView}
    (h : makeCropView source ⟨0, 0, source.width, source.height⟩ = .ok view) :
    (source.height - 1) * source.strideBytes +
        source.width * pixelFormatChannels source.format ≤ source.bytes.length ∧
      view = { source with bytes := source.bytes.take ((source.height - 1) * source.strideBytes +
        source.width * pixelFormatChannels source.format) } := by
  unfold makeCropView at h
  obtain ⟨-, -, h⟩ := except_bind_eq_ok.mp h
  obtain ⟨bytes, hbytes, h⟩ := except_bind_eq_ok.mp h
  obtain ⟨hsize, rfl⟩ := cropBytes_whole hbytes
  exact ⟨hsize, (Except.ok.inj h).symm⟩

end NativeImage

namespace CropHypothesisGenerator

open NativeImage

/-- **A packed copy shows what its view shows**, in rows without padding. -/
theorem packCopy_spec {view : ImageView} {buffer : ImageBuffer}
    (h : packCopy view = .ok buffer) :
    SamePixels view buffer.view ∧
      buffer.strideBytes = view.width * pixelFormatChannels view.format ∧
      buffer.bytes.length = view.width * pixelFormatChannels view.format * view.height := by
  simp only [packCopy, CropHypothesisGenerator.checkedMultiply, copyCrop, except_bind_eq_ok,
    require_eq_ok, decide_eq_true_eq] at h
  obtain ⟨-, -, stride, ⟨-, -, hstride⟩, required, ⟨-, -, hrequired⟩, crop, hcrop, -, -, row,
    hrow, -, -, -, -, -, -, -, -, h⟩ := h
  obtain ⟨hsize, rfl⟩ := makeCropView_whole hcrop
  obtain rfl := (checkedMultiply_eq_ok.mp hrow).2
  obtain rfl := Except.ok.inj hstride
  obtain rfl := Except.ok.inj hrequired
  obtain rfl := Except.ok.inj h
  generalize hrowBytes : view.width * pixelFormatChannels view.format = rowBytes at *
  have hlast : ∀ y < view.height,
      y * view.strideBytes + rowBytes ≤ (view.height - 1) * view.strideBytes + rowBytes :=
    fun y hy => Nat.add_le_add_right (Nat.mul_le_mul_right _ (by omega)) _
  have hsource : ∀ y < view.height, y * view.strideBytes + rowBytes ≤
      (view.bytes.take ((view.height - 1) * view.strideBytes + rowBytes)).length := fun y hy => by
    rw [List.length_take]
    exact le_min (hlast y hy) ((hlast y hy).trans hsize)
  have hbytes : ∀ y < view.height, y * rowBytes + rowBytes ≤
      (List.replicate (rowBytes * view.height) (0 : Byte)).length := fun y hy => by
    rw [List.length_replicate, ← Nat.succ_mul, Nat.mul_comm rowBytes]
    exact Nat.mul_le_mul_right _ hy
  obtain ⟨hlength, hrows⟩ := copyRows_spec hsource hbytes (le_refl _)
  refine ⟨⟨rfl, rfl, rfl, fun y hy i hi => ?_⟩, rfl, hlength.trans List.length_replicate⟩
  rw [hrowBytes] at hi
  have hbefore : y * view.strideBytes + i <
      (view.height - 1) * view.strideBytes + rowBytes := by
    have := hlast y hy
    omega
  refine Eq.trans ?_ (hrows y hy i hi).symm
  rw [ImageView.byteAt, List.getD_eq_getElem?_getD, List.getD_eq_getElem?_getD,
    List.getElem?_take_of_lt hbefore]

/-- A packed copy keeps the fingerprint. -/
theorem fingerprintCrop_packCopy {view : ImageView} {buffer : ImageBuffer} {fingerprint : UInt64}
    (hview : fingerprintCrop view = .ok fingerprint) (h : packCopy view = .ok buffer) :
    fingerprintCrop buffer.view = .ok fingerprint := by
  obtain ⟨⟨hwidth, hheight, -⟩, hmax, -, hfingerprint⟩ := fingerprintCrop_eq_ok.mp hview
  obtain ⟨hsame, hstride, hlength⟩ := packCopy_spec h
  have hpositive : 0 < buffer.bytes.length := by
    rw [hlength]
    exact Nat.mul_pos (Nat.mul_pos (Nat.pos_of_ne_zero hwidth) (pixelFormatChannels_pos _))
      (Nat.pos_of_ne_zero hheight)
  rw [hsame.width, hsame.format] at hmax hstride
  rw [hsame.width] at hwidth
  rw [hsame.height] at hheight
  exact fingerprintCrop_eq_ok.mpr ⟨⟨hwidth, hheight, List.ne_nil_of_length_pos hpositive⟩, hmax,
    hstride.ge, hsame.fingerprintOf.symm.trans hfingerprint⟩

/-- Every crop has the fingerprint of its image, and no two the same. -/
structure Distinct {F : Type} (hypotheses : List (CropHypothesis F)) : Prop where
  fingerprint : ∀ hypothesis ∈ hypotheses,
    fingerprintCrop hypothesis.image.view = .ok hypothesis.fingerprint
  apart : hypotheses.Pairwise fun hypothesis other => hypothesis.fingerprint ≠ other.fingerprint

variable {σ F D : Type} [Scalar F] [Scalar D] [ImageArithmetic F D] [World σ]

theorem distinct_tryAdd (config : CropHypothesisGeneratorConfig F) :
    KeptByTryAdd config Distinct := by
  intro view kind sourceName hypotheses next h hadd
  obtain rfl | ⟨image, fingerprint, -, hview, hnew, himage, rfl⟩ := tryAdd_cases hadd
  · exact h
  · constructor
    · intro hypothesis hmem
      rcases List.mem_append.mp hmem with hmem | hmem
      · exact h.fingerprint hypothesis hmem
      · obtain rfl := List.mem_singleton.mp hmem
        exact fingerprintCrop_packCopy hview himage
    · refine List.pairwise_append.mpr ⟨h.apart, List.pairwise_singleton _ _, ?_⟩
      intro hypothesis hmem other hother
      obtain rfl := List.mem_singleton.mp hother
      exact hnew hypothesis hmem

omit [Scalar F] in
/-- Crops with different fingerprints show different things. -/
theorem Distinct.pairwise_not_samePixels {hypotheses : List (CropHypothesis F)}
    (h : Distinct hypotheses) :
    hypotheses.Pairwise fun hypothesis other =>
      ¬ SamePixels hypothesis.image.view other.image.view := by
  refine h.apart.imp_of_mem fun hmem hmem' hne hsame => hne ?_
  have hfingerprint := (fingerprintCrop_eq_ok.mp (h.fingerprint _ hmem)).2.2.2
  have hfingerprint' := (fingerprintCrop_eq_ok.mp (h.fingerprint _ hmem')).2.2.2
  exact (hfingerprint.symm.trans hsame.fingerprintOf).trans hfingerprint'

end CropHypothesisGenerator

/-! ## The two runs -/

section

variable {F D : Type} [Scalar F] [Scalar D] [ImageArithmetic F D] [LawfulImageArithmetic F D]

variable (F D) in
/-- **Padding does not interfere.**  Validated views that show the same pixels have one fingerprint,
quality, detector tensor and recognizer tensor; a crop has the fingerprint of its packed copy, and
crops that show the same are tried once.  The limits are any under which the coordinates of a pixel
are exact (`ImageLimits.exact_of_check`). -/
theorem padding_noninterference (σ : Type) [World σ] {a b : ImageView} {limits limits' : ImageLimits}
    {image image' : ValidatedImage} (ha : validateImage a limits = .ok image)
    (hb : validateImage b limits' = .ok image') (h : SamePixels a b)
    (hlimits : limits.maxImageWidth ≤ 2 ^ 53 ∧ limits.maxImageHeight ≤ 2 ^ 53) :
    fingerprintCrop a = fingerprintCrop b ∧
    (∀ config : CropQualityConfig F, CropQuality.evaluateCropQuality D a config =
      CropQuality.evaluateCropQuality D b config) ∧
    (∀ preprocessor : YoloPosePreprocessor F,
      preprocessor.preprocess D image = preprocessor.preprocess D image') ∧
    (∀ preprocessor : LprNetPreprocessor F,
      preprocessor.preprocess D image = preprocessor.preprocess D image') ∧
    ∀ (generator : CropHypothesisGenerator F) (source : ImageView) (detection : Detection F)
      (aligned : Option ImageBuffer) (context : OperationContext),
      Returns (generator.generate D source detection aligned context :
        Run σ (List (CropHypothesis F))) fun hypotheses =>
        (∀ hypothesis ∈ hypotheses,
          fingerprintCrop hypothesis.image.view = .ok hypothesis.fingerprint) ∧
        hypotheses.Pairwise fun hypothesis other =>
          ¬ SamePixels hypothesis.image.view other.image.view := by
  obtain ⟨haccepted, himage⟩ := accepted_of_validateImage ha
  obtain ⟨hbAccepted, himage'⟩ := accepted_of_validateImage hb
  have hsamples : image.view.Samples := by
    rw [himage]
    exact ⟨⟨haccepted.width.1, haccepted.width.2.trans hlimits.1⟩,
      ⟨haccepted.height.1, haccepted.height.2.trans hlimits.2⟩⟩
  have hviews : SamePixels image.view image'.view := by rwa [himage, himage']
  refine ⟨?_, ?_, ?_, ?_, ?_⟩
  · rw [haccepted.fingerprintCrop, hbAccepted.fingerprintCrop, h.fingerprintOf]
  · exact fun config => CropQuality.evaluateCropQuality_congr haccepted hbAccepted h config
  · exact fun preprocessor => preprocessor.preprocess_congr hviews hsamples
  · exact fun preprocessor => preprocessor.preprocess_congr hviews hsamples
  · intro generator source detection aligned context
    have hdistinct := (CropHypothesisGenerator.distinct_tryAdd generator.config).generate
      (σ := σ) (D := D) ⟨fun _ hmem => absurd hmem List.not_mem_nil, List.Pairwise.nil⟩
      source detection aligned context
    exact hdistinct.mono fun hypotheses h => ⟨h.fingerprint, h.pairwise_not_samePixels⟩

/-- Two gray pixels, packed, and in a longer row before other bytes. -/
theorem padding_noninterference_gray :
    fingerprintCrop ⟨[1, 2], 2, 1, 2, .gray8⟩ = fingerprintCrop ⟨[1, 2, 9, 9], 2, 1, 3, .gray8⟩ := by
  have hsame : SamePixels ⟨[1, 2], 2, 1, 2, .gray8⟩ ⟨[1, 2, 9, 9], 2, 1, 3, .gray8⟩ :=
    ⟨rfl, rfl, rfl, by decide⟩
  have hpacked : validateImage ⟨[1, 2], 2, 1, 2, .gray8⟩ {} =
      .ok ⟨⟨[1, 2], 2, 1, 2, .gray8⟩, 1, 2, 2⟩ := rfl
  have hpadded : validateImage ⟨[1, 2, 9, 9], 2, 1, 3, .gray8⟩ {} =
      .ok ⟨⟨[1, 2, 9, 9], 2, 1, 3, .gray8⟩, 1, 2, 2⟩ := rfl
  exact (padding_noninterference Binary32 Binary64 Frozen hpacked hpadded hsame
    (ImageLimits.exact_of_check rfl)).1

end

end FacLpr

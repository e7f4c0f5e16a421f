import FacLpr.Infrastructure.Lprnet.LprNetPreprocessor
import FacLpr.Infrastructure.PixelReads

/-!
# Infrastructure/Lprnet/FilledTensors — the recognizer's tensor is filled

The loop stores to every element of the tensor once, in either layout; the two layouts hold the same
values, transposed; and the samples read visible pixels only.
-/

namespace FacLpr

namespace LprNetPreprocessor

open Program

variable {F D : Type} [Scalar F] [Scalar D] [PixelArithmetic F D]

variable (D) in
/-- `preprocess_into`, with a log of the offsets of the bytes it reads. -/
def readInto (preprocessor : LprNetPreprocessor F) (image : ValidatedImage) (output : List F) :
    Program EngineError (List ℕ) (List F) := do
  Program.ofExcept (require (output.length = preprocessor.tensorElements)
    (invalidImageError "LPRNet output tensor workspace has the wrong element count"))
  let spec := preprocessor.spec
  let sourceScaleX : D := Scalar.ofRat image.view.width / Scalar.ofRat spec.width
  let sourceScaleY : D := Scalar.ofRat image.view.height / Scalar.ofRat spec.height
  (List.range spec.height).foldlM (fun output outputY =>
    (List.range spec.width).foldlM (fun output outputX => do
      let sample ← PixelReads.bilinearSample image.view (sourceCoordinate outputX sourceScaleX)
        (sourceCoordinate outputY sourceScaleY)
      return storeAll output (sampleStores spec sample (outputY * spec.width + outputX)))
      output) output

/-! ## Every element once -/

theorem length_sampleStores (spec : LprNetInputSpec F) (sample : RgbSample F) (pixelIndex : ℕ) :
    (sampleStores spec sample pixelIndex).length = spec.channels := by
  rw [sampleStores, List.length_map, List.length_range]

theorem length_imageStores (spec : LprNetInputSpec F) (image : ImageView) :
    (imageStores D spec image).length = spec.width * spec.height * spec.channels := by
  simp only [imageStores, List.length_flatMap, length_sampleStores, List.map_const',
    List.length_range, List.sum_replicate_nat]
  rw [← mul_assoc, mul_comm spec.height]

/-- **Every element is stored to once**, in either layout. -/
theorem imageStores_perm (preprocessor : LprNetPreprocessor F) (image : ImageView) :
    ((imageStores D preprocessor.spec image).map Prod.fst).Perm
      (List.range preprocessor.tensorElements) := by
  have helements := preprocessor.spec_bounds.2.2.2
  refine map_fst_perm_range ?_ fun i hi => imageStores_covers preprocessor.spec image ?_
  · rw [length_imageStores, helements]
  · rwa [← helements]

theorem preprocessInto_eq (preprocessor : LprNetPreprocessor F) (image : ValidatedImage)
    {output : List F} (h : output.length = preprocessor.tensorElements) :
    preprocessor.preprocessInto D image output =
      .ok (storeAll output (imageStores D preprocessor.spec image.view)) := by
  unfold preprocessInto
  rw [decide_eq_true h]
  rfl

/-! ## What an element holds -/

theorem neZero_three : NeZero 3 := ⟨by decide⟩

attribute [local instance] neZero_three

/-- A channel of a pixel of the output, normalized. -/
def elementValue (D : Type) [Scalar D] [PixelArithmetic F D] (spec : LprNetInputSpec F)
    (image : ImageView) (outputY outputX channel : ℕ) : F :=
  let sourceScaleX : D := Scalar.ofRat image.width / Scalar.ofRat spec.width
  let sourceScaleY : D := Scalar.ofRat image.height / Scalar.ofRat spec.height
  normalizeValue (orderedChannels (bilinearSample image (sourceCoordinate outputX sourceScaleX)
    (sourceCoordinate outputY sourceScaleY)) spec (Fin.ofNat 3 channel)) (Fin.ofNat 3 channel) spec

theorem mem_imageStores {spec : LprNetInputSpec F} (image : ImageView) {outputY outputX channel : ℕ}
    (hy : outputY < spec.height) (hx : outputX < spec.width) (hchannel : channel < spec.channels) :
    (elementIndex spec (outputY * spec.width + outputX) channel,
      elementValue D spec image outputY outputX channel) ∈ imageStores D spec image :=
  List.mem_flatMap.mpr ⟨outputY, List.mem_range.mpr hy, List.mem_flatMap.mpr
    ⟨outputX, List.mem_range.mpr hx, List.mem_map.mpr ⟨channel, List.mem_range.mpr hchannel, rfl⟩⟩⟩

/-- **What the tensor holds**, at the place of a channel of a pixel. -/
theorem getElem?_storeAll_imageStores (preprocessor : LprNetPreprocessor F) (image : ImageView)
    {output : List F} (h : output.length = preprocessor.tensorElements)
    {outputY outputX channel : ℕ} (hy : outputY < preprocessor.spec.height)
    (hx : outputX < preprocessor.spec.width) (hchannel : channel < preprocessor.spec.channels) :
    (storeAll output (imageStores D preprocessor.spec image))[elementIndex preprocessor.spec
      (outputY * preprocessor.spec.width + outputX) channel]? =
        some (elementValue D preprocessor.spec image outputY outputX channel) := by
  have hperm := imageStores_perm (D := D) preprocessor image
  have hmem := mem_imageStores (D := D) image hy hx hchannel
  refine getElem?_storeAll (hperm.nodup_iff.mpr List.nodup_range) hmem ?_
  have hrange := hperm.mem_iff.mp (List.mem_map_of_mem hmem)
  rw [h]
  exact List.mem_range.mp hrange

/-- The second tensor, channels last, is the index transpose of the first, channels first. -/
def IsTransposed (spec : LprNetInputSpec F) (nchw nhwc : List F) : Prop :=
  ∀ y < spec.height, ∀ x < spec.width, ∀ channel < spec.channels, ∃ value,
    nchw[channel * (spec.width * spec.height) + (y * spec.width + x)]? = some value ∧
      nhwc[(y * spec.width + x) * spec.channels + channel]? = some value

theorem isTransposed {nchw nhwc : LprNetPreprocessor F} (hnchw : nchw.spec.layout = .nchw)
    (hnhwc : nhwc.spec = { nchw.spec with layout := .nhwc }) (image : ImageView)
    {output output' : List F} (h : output.length = nchw.tensorElements)
    (h' : output'.length = nhwc.tensorElements) :
    IsTransposed nchw.spec (storeAll output (imageStores D nchw.spec image))
      (storeAll output' (imageStores D nhwc.spec image)) := by
  intro y hy x hx channel hchannel
  have hfirst := getElem?_storeAll_imageStores (D := D) nchw image h hy hx hchannel
  have hy' : y < nhwc.spec.height := by rwa [hnhwc]
  have hx' : x < nhwc.spec.width := by rwa [hnhwc]
  have hchannel' : channel < nhwc.spec.channels := by rwa [hnhwc]
  have hlast := getElem?_storeAll_imageStores (D := D) nhwc image h' hy' hx' hchannel'
  have hindex : elementIndex nchw.spec (y * nchw.spec.width + x) channel =
      channel * (nchw.spec.width * nchw.spec.height) + (y * nchw.spec.width + x) := by
    rw [elementIndex, hnchw]
  have hindex' : elementIndex nhwc.spec (y * nhwc.spec.width + x) channel =
      (y * nchw.spec.width + x) * nchw.spec.channels + channel := by
    rw [hnhwc]
    rfl
  have hvalue : elementValue D nhwc.spec image y x channel =
      elementValue D nchw.spec image y x channel := by
    rw [hnhwc]
    rfl
  rw [hindex] at hfirst
  rw [hindex', hvalue] at hlast
  exact ⟨_, hfirst, hlast⟩

/-! ## The bytes it reads -/

/-- **The samples read visible pixels**, and the loop stores what it says. -/
theorem yields_readInto [LawfulImageArithmetic F D] (preprocessor : LprNetPreprocessor F)
    {image : ValidatedImage} (hsamples : image.view.Samples) {output : List F}
    (h : output.length = preprocessor.tensorElements) :
    Yields image.view.IsPixelByte (preprocessor.readInto D image output)
      (storeAll output (imageStores D preprocessor.spec image.view)) := by
  obtain ⟨hwidth, hheight, -⟩ := preprocessor.spec_bounds
  have hloops : storeAll output (imageStores D preprocessor.spec image.view) = _ :=
    storeAll_flatMap _ _ output
  rw [hloops]
  refine (yields_ofExcept (a := ()) (require_eq_ok.mpr (decide_eq_true h))).bind ?_
  refine yields_foldlM (fun y hy output => ?_) output
  rw [storeAll_flatMap]
  refine yields_foldlM (fun x hx output => ?_) output
  have hx' := (List.mem_range.mp hx).trans hwidth.2
  have hy' := (List.mem_range.mp hy).trans hheight.2
  exact (PixelReads.yields_bilinearSample hsamples
    (hsamples.isFinite_x (F := F) hx' hwidth.1 hwidth.2)
    (hsamples.isFinite_y (F := F) hy' hheight.1 hheight.2)).bind (yields_pure _)

/-- **The tensor is filled**: every element is stored to once and none beyond, the two layouts are
transposes of one another, and every byte read is one of a visible pixel, in the view. -/
theorem preprocessInto_fills [LawfulImageArithmetic F D] (preprocessor : LprNetPreprocessor F)
    {image : ImageView} {limits : ImageLimits} {validated : ValidatedImage}
    (h : validateImage image limits = .ok validated) (hlimits : limits.check = .ok ())
    {output : List F} (houtput : output.length = preprocessor.tensorElements) :
    preprocessor.preprocessInto D validated output =
        .ok (storeAll output (imageStores D preprocessor.spec validated.view)) ∧
      ((imageStores D preprocessor.spec validated.view).map Prod.fst).Perm
        (List.range output.length) ∧
      (∀ (nhwc : LprNetPreprocessor F) (output' : List F), preprocessor.spec.layout = .nchw →
        nhwc.spec = { preprocessor.spec with layout := .nhwc } →
        output'.length = nhwc.tensorElements →
        ∃ values values', preprocessor.preprocessInto D validated output = .ok values ∧
          nhwc.preprocessInto D validated output' = .ok values' ∧
          IsTransposed preprocessor.spec values values') ∧
      Yields (fun offset => offset < image.bytes.length ∧ image.IsPixelByte offset)
        (preprocessor.readInto D validated output)
        (storeAll output (imageStores D preprocessor.spec validated.view)) := by
  obtain ⟨haccepted, hview⟩ := accepted_of_validateImage h
  have hexact := ImageLimits.exact_of_check hlimits
  have hsamples : validated.view.Samples := by
    rw [hview]
    exact ⟨⟨haccepted.width.1, haccepted.width.2.trans hexact.1⟩,
      ⟨haccepted.height.1, haccepted.height.2.trans hexact.2⟩⟩
  refine ⟨preprocessInto_eq preprocessor validated houtput, ?_, ?_, ?_⟩
  · rw [houtput]
    exact imageStores_perm preprocessor validated.view
  · intro nhwc output' hnchw hnhwc houtput'
    exact ⟨_, _, preprocessInto_eq preprocessor validated houtput,
      preprocessInto_eq nhwc validated houtput',
      isTransposed hnchw hnhwc validated.view houtput houtput'⟩
  · refine (yields_readInto (D := D) preprocessor hsamples houtput).mono fun offset hoffset => ?_
    rw [hview] at hoffset
    exact ⟨haccepted.lt_length hoffset, hoffset⟩

/-- An input of `3` by `2` pixels, channels first. -/
def channelsFirst : LprNetPreprocessor ℚ :=
  ⟨{ width := 3, height := 2, channels := 3 }, 18, (1, 3, 2, 3), by decide +kernel, by decide +kernel⟩

/-- The same input, channels last. -/
def channelsLast : LprNetPreprocessor ℚ :=
  ⟨{ width := 3, height := 2, channels := 3, layout := .nhwc }, 18, (1, 2, 3, 3),
    by decide +kernel, by decide +kernel⟩

/-- One gray pixel fills both tensors: every sample clamps to it. -/
theorem preprocessInto_fills_onePixel :
    ∃ values values',
      channelsFirst.preprocessInto ℚ ⟨⟨[7], 1, 1, 1, .gray8⟩, 1, 1, 1⟩ (List.replicate 18 0) =
          .ok values ∧
        channelsLast.preprocessInto ℚ ⟨⟨[7], 1, 1, 1, .gray8⟩, 1, 1, 1⟩ (List.replicate 18 0) =
          .ok values' ∧
        IsTransposed channelsFirst.spec values values' := by
  have himage : validateImage ⟨[7], 1, 1, 1, .gray8⟩ {} =
      .ok ⟨⟨[7], 1, 1, 1, .gray8⟩, 1, 1, 1⟩ := rfl
  have hlength : (List.replicate 18 (0 : ℚ)).length = channelsFirst.tensorElements := rfl
  obtain ⟨-, -, htransposed, -⟩ := preprocessInto_fills (D := ℚ) channelsFirst himage rfl hlength
  exact htransposed channelsLast (List.replicate 18 0) rfl rfl rfl

end LprNetPreprocessor

end FacLpr

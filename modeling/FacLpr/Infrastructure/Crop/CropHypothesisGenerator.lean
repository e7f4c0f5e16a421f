import FacLpr.Application.OperationContext
import FacLpr.Domain.Recognition
import FacLpr.Foundations.PixelArithmetic
import FacLpr.Infrastructure.NativeImage

/-!
# Infrastructure/Crop/CropHypothesisGenerator — the crops tried for a detection

A detection that fills the frame is read off the whole source; any other gets one crop for each
registered kind.  Crops of equal fingerprint are tried once.
-/

namespace FacLpr

inductive CropGeneratorKind where
  | plateDominantSource
  | plateDominantTextRegion
  | rectified
  | rawBbox
  | paddedBbox
  deriving DecidableEq

structure CropHypothesisGeneratorConfig (F : Type) [Scalar F] where
  generatorOrder : List CropGeneratorKind := [.rectified, .rawBbox, .paddedBbox]
  maximumHypotheses : ℕ := 8
  minimumWidth : ℕ := 16
  minimumHeight : ℕ := 8
  horizontalPaddingRatio : F := Scalar.ofRat (6 / 100)
  verticalPaddingRatio : F := Scalar.ofRat (4 / 100)
  preferSourceWhenDetectionDominatesFrame : Bool := true
  plateDominantMinAreaRatio : F := Scalar.ofRat (65 / 100)
  plateDominantTextLeftInsetRatio : F := Scalar.ofRat (10 / 100)
  plateDominantTextRightInsetRatio : F := Scalar.ofRat (2 / 100)
  plateDominantTextVerticalInsetRatio : F := Scalar.ofRat (4 / 100)

namespace CropHypothesisGeneratorConfig

variable {F : Type} [Scalar F]

def validInset (value : F) : Bool :=
  Scalar.isFinite value && decide (0 ≤ value) && decide (value < Scalar.ofRat (1 / 2))

/-- A padding ratio `validate_config` lets pass. -/
def validPadding (value : F) : Bool :=
  Scalar.isFinite value && !decide (value < 0) && !decide (Scalar.ofRat (1 / 2) < value)

/-- `validate_config`. -/
def check (config : CropHypothesisGeneratorConfig F) : Except EngineError Unit := do
  require (!config.generatorOrder.isEmpty && decide (config.generatorOrder.length ≤ 32) &&
      decide (config.maximumHypotheses ≠ 0) && decide (config.maximumHypotheses ≤ 32) &&
      decide (config.minimumWidth ≠ 0) && decide (config.minimumHeight ≠ 0) &&
      validPadding config.horizontalPaddingRatio && validPadding config.verticalPaddingRatio &&
      (Scalar.isFinite config.plateDominantMinAreaRatio &&
        !decide (config.plateDominantMinAreaRatio ≤ 0) &&
        !decide (1 < config.plateDominantMinAreaRatio)) &&
      validInset config.plateDominantTextLeftInsetRatio &&
      validInset config.plateDominantTextRightInsetRatio &&
      validInset config.plateDominantTextVerticalInsetRatio &&
      !decide (Scalar.ofRat (3 / 4) ≤ config.plateDominantTextLeftInsetRatio +
        config.plateDominantTextRightInsetRatio) &&
      !decide (Scalar.ofRat (3 / 4) ≤
        config.plateDominantTextVerticalInsetRatio * Scalar.ofRat 2))
    (configurationError "crop hypothesis generator configuration is invalid")
  let _ ← config.generatorOrder.foldlM (fun seen kind => do
    require (kind ≠ .plateDominantSource ∧ kind ≠ .plateDominantTextRegion) (configurationError
      "plate-dominant crops are automatic and must not be registered explicitly")
    require (!seen.contains kind)
      (configurationError "crop generator registry contains duplicate generator kinds")
    return kind :: seen) ([] : List CropGeneratorKind)
  return

end CropHypothesisGeneratorConfig

/-- A generator its constructor accepted. -/
structure CropHypothesisGenerator (F : Type) [Scalar F] where
  config : CropHypothesisGeneratorConfig F
  accepted : config.check = .ok ()

/-- The generator of the default configuration, in exact arithmetic. -/
def CropHypothesisGenerator.default : CropHypothesisGenerator ℚ := ⟨{}, by decide +kernel⟩

/-! ## Fingerprints -/

/-- The position of a format in its enumeration. -/
def PixelFormat.code : PixelFormat → UInt64
  | .gray8 => 0
  | .bgr8 => 1
  | .rgb8 => 2

/-- The bytes `fingerprint_crop` mixes, in order. -/
def fingerprintBytes (image : ImageView) (rowBytes : ℕ) : List UInt64 :=
  (List.range 8).flatMap (fun shift => [UInt64.ofNat ((image.width >>> (shift * 8)) &&& 0xFF),
    UInt64.ofNat ((image.height >>> (shift * 8)) &&& 0xFF)]) ++
  [image.format.code] ++
  (List.range image.height).flatMap fun y => (List.range rowBytes).map fun x =>
    UInt64.ofNat (image.bytes.getD (y * image.strideBytes + x) 0).toNat

/-- `fingerprint_crop`: FNV-1a over the shape, the format and the pixels. -/
def fingerprintCrop (image : ImageView) : Except EngineError UInt64 := do
  require (image.width ≠ 0 ∧ image.height ≠ 0 ∧ image.bytes ≠ [])
    (invalidImageError "cannot fingerprint empty crop")
  let channels := pixelFormatChannels image.format
  require (image.width ≤ sizeMax / channels)
    (invalidImageError "invalid crop shape for fingerprinting")
  let rowBytes := image.width * channels
  require (rowBytes ≤ image.strideBytes)
    (invalidImageError "crop stride is invalid for fingerprinting")
  return (fingerprintBytes image rowBytes).foldl
    (fun hash value => (hash ^^^ value) * 1099511628211) 14695981039346656037

/-! ## Regions -/

namespace CropHypothesisGenerator

/-- `checked_multiply`. -/
def checkedMultiply (left right : ℕ) (field : String) : Except EngineError ℕ := do
  require (left * right ≤ sizeMax) (resourceExhaustedError (field ++ " overflows size_t"))
  return left * right

/-- `pack_copy`. -/
def packCopy (view : ImageView) : Except EngineError ImageBuffer := do
  let channels := pixelFormatChannels view.format
  require (view.width ≠ 0 ∧ view.height ≠ 0) (invalidImageError "cannot pack invalid crop view")
  let stride ← checkedMultiply view.width channels "crop packed stride"
  let required ← checkedMultiply stride view.height "crop packed bytes"
  NativeImage.copyCrop view ⟨0, 0, view.width, view.height⟩
    ⟨List.replicate required 0, view.width, view.height, stride, view.format⟩

variable {σ F D : Type} [Scalar F] [Scalar D] [PixelArithmetic F D]

/-- A default-constructed `ImageRegion`. -/
def noRegion : ImageRegion := ⟨0, 0, 0, 0⟩

/-- The span of a box along one axis, clamped to the source. -/
def clampedSpan (start extent padding : F) (size : ℕ) : F × F :=
  (Scalar.clamp (start - padding) 0 (Scalar.ofRat size),
    Scalar.clamp (start + extent + padding) 0 (Scalar.ofRat size))

variable (D) in
/-- `bbox_region`. -/
def bboxRegion (box : BoundingBox F) (source : ImageView) (horizontalPadding verticalPadding : F) :
    ImageRegion :=
  if !box.isValid then noRegion
  else
    let (left, right) := clampedSpan box.x box.width (box.width * horizontalPadding) source.width
    let (top, bottom) := clampedSpan box.y box.height (box.height * verticalPadding) source.height
    if ¬ (left < right ∧ top < bottom) then noRegion
    else
      let x := PixelArithmetic.floor D left
      let y := PixelArithmetic.floor D top
      let x2 := min source.width (PixelArithmetic.ceil D right)
      let y2 := min source.height (PixelArithmetic.ceil D bottom)
      if x < x2 ∧ y < y2 then ⟨x, y, x2 - x, y2 - y⟩ else noRegion

variable (D) in
/-- `plate_text_region`. -/
def plateTextRegion (source : ImageView) (config : CropHypothesisGeneratorConfig F) : ImageRegion :=
  let inset (size : ℕ) (ratio : F) : ℕ :=
    PixelArithmetic.floorWide F (Scalar.ofRat size * PixelArithmetic.widen ratio : D)
  if source.width = 0 ∨ source.height = 0 then noRegion
  else
    let left := inset source.width config.plateDominantTextLeftInsetRatio
    let rightInset := inset source.width config.plateDominantTextRightInsetRatio
    let vertical := inset source.height config.plateDominantTextVerticalInsetRatio
    if source.width ≤ left + rightInset ∨ source.height ≤ vertical * 2 then noRegion
    else ⟨left, vertical, source.width - left - rightInset, source.height - vertical * 2⟩

variable (D) in
/-- `detection_area_ratio`. -/
def detectionAreaRatio (box : BoundingBox F) (source : ImageView) : F :=
  if !box.isValid ∨ source.width = 0 ∨ source.height = 0 then 0
  else
    let left := Scalar.clamp box.x 0 (Scalar.ofRat source.width)
    let top := Scalar.clamp box.y 0 (Scalar.ofRat source.height)
    let right := Scalar.clamp (box.x + box.width) 0 (Scalar.ofRat source.width)
    let bottom := Scalar.clamp (box.y + box.height) 0 (Scalar.ofRat source.height)
    if ¬ (left < right ∧ top < bottom) then 0
    else
      let detectionArea : D :=
        PixelArithmetic.widen (right - left) * PixelArithmetic.widen (bottom - top)
      let sourceArea : D := Scalar.ofRat source.width * Scalar.ofRat source.height
      if ¬ 0 < sourceArea then 0
      else PixelArithmetic.narrow (Scalar.clamp (detectionArea / sourceArea) 0 1)

/-! ## The crops -/

/-- `kind_name`. -/
def kindName : CropGeneratorKind → Text
  | .plateDominantSource => ascii "plate_dominant_source"
  | .plateDominantTextRegion => ascii "plate_dominant_text_region"
  | .rectified => ascii "rectified"
  | .rawBbox => ascii "raw_bbox"
  | .paddedBbox => ascii "padded_bbox"

/-- `try_add`.  The fingerprints seen are those of the hypotheses. -/
def tryAdd (config : CropHypothesisGeneratorConfig F) (view : ImageView) (kind : CropGeneratorKind)
    (sourceName : Text) (hypotheses : List (CropHypothesis F)) :
    Except EngineError (List (CropHypothesis F)) :=
  if config.maximumHypotheses ≤ hypotheses.length ∨ view.width < config.minimumWidth ∨
      view.height < config.minimumHeight ∨ view.bytes = [] then .ok hypotheses
  else do
    let fingerprint ← fingerprintCrop view
    if hypotheses.any fun hypothesis => hypothesis.fingerprint == fingerprint then return hypotheses
    else
      let image ← packCopy view
      return hypotheses ++ [{
        image
        type := kindName kind
        source := sourceName
        fingerprint
        quality := 0 }]

/-- A crop of the source, when there is a region for it. -/
def tryAddRegion (config : CropHypothesisGeneratorConfig F) (source : ImageView)
    (region : ImageRegion) (kind : CropGeneratorKind) (hypotheses : List (CropHypothesis F)) :
    Except EngineError (List (CropHypothesis F)) :=
  if region.empty then .ok hypotheses
  else do
    let view ← NativeImage.makeCropView source region
    tryAdd config view kind (ascii "source_image") hypotheses

/-- The crops of a detection that fills the frame. -/
def plateDominantCrops (D : Type) [Scalar D] [PixelArithmetic F D]
    (config : CropHypothesisGeneratorConfig F) (source : ImageView) :
    Except EngineError (List (CropHypothesis F)) := do
  let hypotheses ← tryAdd config source .plateDominantSource (ascii "source_image") []
  tryAddRegion config source (plateTextRegion D source config) .plateDominantTextRegion hypotheses

/-- The body of the loop over the registered kinds. -/
def addKind (D : Type) [Scalar D] [PixelArithmetic F D] (config : CropHypothesisGeneratorConfig F)
    (source : ImageView) (box : BoundingBox F) (aligned : Option ImageBuffer)
    (kind : CropGeneratorKind) (hypotheses : List (CropHypothesis F)) :
    Except EngineError (List (CropHypothesis F)) :=
  match kind with
  | .plateDominantSource | .plateDominantTextRegion => .ok hypotheses
  | .rectified =>
      match aligned with
      | none => .ok hypotheses
      | some image => tryAdd config image.view kind (ascii "perspective_aligner") hypotheses
  | .rawBbox => tryAddRegion config source (bboxRegion D box source 0 0) kind hypotheses
  | .paddedBbox =>
      tryAddRegion config source
        (bboxRegion D box source config.horizontalPaddingRatio config.verticalPaddingRatio) kind
        hypotheses

variable [World σ]

def checkCropContext (context : OperationContext) : Run σ Unit :=
  checkContext context "crop generation cancelled" "crop generation deadline exceeded"

/-- The loop over the registered kinds. -/
def addKinds (D : Type) [Scalar D] [PixelArithmetic F D] (config : CropHypothesisGeneratorConfig F)
    (source : ImageView) (box : BoundingBox F) (aligned : Option ImageBuffer)
    (context : OperationContext) :
    List CropGeneratorKind → List (CropHypothesis F) → Run σ (List (CropHypothesis F))
  | [], hypotheses => pure hypotheses
  | kind :: kinds, hypotheses => do
      checkCropContext context
      if config.maximumHypotheses ≤ hypotheses.length then return hypotheses
      else
        let hypotheses ← Run.ofExcept (addKind D config source box aligned kind hypotheses)
        addKinds D config source box aligned context kinds hypotheses

/-- `CropHypothesisGenerator::generate`. -/
def generate (D : Type) [Scalar D] [PixelArithmetic F D] (generator : CropHypothesisGenerator F)
    (source : ImageView) (detection : Detection F) (aligned : Option ImageBuffer)
    (context : OperationContext) : Run σ (List (CropHypothesis F)) := do
  checkCropContext context
  if generator.config.preferSourceWhenDetectionDominatesFrame ∧
      generator.config.plateDominantMinAreaRatio ≤ detectionAreaRatio D detection.bbox source then
    Run.ofExcept (plateDominantCrops D generator.config source)
  else
    addKinds D generator.config source detection.bbox aligned context
      generator.config.generatorOrder []

/-! ## What holds of the crops -/

open Program

section Invariant

variable {config : CropHypothesisGeneratorConfig F} {hypotheses next : List (CropHypothesis F)}
  {I : List (CropHypothesis F) → Prop}

/-- `try_add` keeps what holds of the crops so far. -/
def KeptByTryAdd (config : CropHypothesisGeneratorConfig F) (I : List (CropHypothesis F) → Prop) :
    Prop :=
  ∀ ⦃view : ImageView⦄ ⦃kind : CropGeneratorKind⦄ ⦃sourceName : Text⦄
    ⦃hypotheses next : List (CropHypothesis F)⦄, I hypotheses →
      tryAdd config view kind sourceName hypotheses = .ok next → I next

theorem KeptByTryAdd.tryAddRegion (hI : KeptByTryAdd config I) {source : ImageView}
    {region : ImageRegion} {kind : CropGeneratorKind} (h : I hypotheses)
    (hadd : tryAddRegion config source region kind hypotheses = .ok next) : I next := by
  unfold CropHypothesisGenerator.tryAddRegion at hadd
  split at hadd
  · cases hadd
    exact h
  · obtain ⟨view, -, hadd⟩ := except_bind_eq_ok.mp hadd
    exact hI h hadd

theorem KeptByTryAdd.addKind (hI : KeptByTryAdd config I) {source : ImageView}
    {box : BoundingBox F} {aligned : Option ImageBuffer} {kind : CropGeneratorKind}
    (h : I hypotheses) (hadd : addKind D config source box aligned kind hypotheses = .ok next) :
    I next := by
  cases kind with
  | plateDominantSource | plateDominantTextRegion =>
    cases hadd
    exact h
  | rectified =>
    cases aligned with
    | none =>
      cases hadd
      exact h
    | some image => exact hI h hadd
  | rawBbox | paddedBbox => exact hI.tryAddRegion h hadd

theorem KeptByTryAdd.addKinds (hI : KeptByTryAdd config I) (source : ImageView)
    (box : BoundingBox F) (aligned : Option ImageBuffer) (context : OperationContext)
    (kinds : List CropGeneratorKind) (h : I hypotheses) :
    Returns (addKinds D config source box aligned context kinds hypotheses :
      Run σ (List (CropHypothesis F))) I := by
  induction kinds generalizing hypotheses with
  | nil => exact returns_pure h
  | cons kind kinds ih =>
    refine (returns_self _).bind fun _ _ => ?_
    split
    · exact returns_pure h
    · exact (returns_runOfExcept fun _ hadd => hI.addKind h hadd).bind fun _ hnext => ih hnext

/-- **What `try_add` keeps holds of the crops of a generator.** -/
theorem KeptByTryAdd.generate {generator : CropHypothesisGenerator F}
    (hI : KeptByTryAdd generator.config I) (hnil : I []) (source : ImageView)
    (detection : Detection F) (aligned : Option ImageBuffer) (context : OperationContext) :
    Returns (generate D generator source detection aligned context :
      Run σ (List (CropHypothesis F))) I := by
  refine (returns_self _).bind fun _ _ => ?_
  split
  · refine returns_runOfExcept fun next hnext => ?_
    obtain ⟨hypotheses, hsource, hregion⟩ := except_bind_eq_ok.mp hnext
    exact hI.tryAddRegion (hI hnil hsource) hregion
  · exact hI.addKinds source detection.bbox aligned context _ hnil

end Invariant

/-! ## The quality of a crop -/

/-- Every crop has quality zero. -/
def Unrated (hypotheses : List (CropHypothesis F)) : Prop :=
  ∀ hypothesis ∈ hypotheses, hypothesis.quality = 0

/-- `try_add` leaves the crops or, with room for one more, appends one, with the fingerprint and a
packed copy of a view that is large enough. -/
theorem tryAdd_cases {config : CropHypothesisGeneratorConfig F} {view : ImageView}
    {kind : CropGeneratorKind} {sourceName : Text} {hypotheses next : List (CropHypothesis F)}
    (h : tryAdd config view kind sourceName hypotheses = .ok next) :
    next = hypotheses ∨ ∃ image fingerprint, (hypotheses.length < config.maximumHypotheses ∧
        config.minimumWidth ≤ view.width ∧ config.minimumHeight ≤ view.height) ∧
      fingerprintCrop view = .ok fingerprint ∧
      (∀ hypothesis ∈ hypotheses, hypothesis.fingerprint ≠ fingerprint) ∧
      packCopy view = .ok image ∧
      next = hypotheses ++ [⟨image, kindName kind, sourceName, fingerprint, 0⟩] := by
  unfold tryAdd at h
  split at h
  · cases h
    exact Or.inl rfl
  · rename_i hroom
    obtain ⟨fingerprint, hfingerprint, h⟩ := except_bind_eq_ok.mp h
    split at h
    · cases h
      exact Or.inl rfl
    · rename_i hnew
      obtain ⟨image, himage, h⟩ := except_bind_eq_ok.mp h
      cases h
      refine Or.inr ⟨image, fingerprint, ⟨by omega, by omega, by omega⟩, hfingerprint,
        fun hypothesis hmem heq => hnew ?_, himage, rfl⟩
      exact List.any_eq_true.mpr ⟨hypothesis, hmem, beq_iff_eq.mpr heq⟩

theorem unrated_tryAdd (config : CropHypothesisGeneratorConfig F) :
    KeptByTryAdd config Unrated := by
  intro view kind sourceName hypotheses next h hadd
  obtain rfl | ⟨image, fingerprint, -, -, -, -, rfl⟩ := tryAdd_cases hadd
  · exact h
  · intro hypothesis hmem
    rcases List.mem_append.mp hmem with hmem | hmem
    · exact h hypothesis hmem
    · obtain rfl := List.mem_singleton.mp hmem
      rfl

/-- **No crop of the generator is rated**: its quality is zero. -/
theorem returns_generate (generator : CropHypothesisGenerator F) (source : ImageView)
    (detection : Detection F) (aligned : Option ImageBuffer) (context : OperationContext) :
    Returns (generate D generator source detection aligned context :
      Run σ (List (CropHypothesis F))) Unrated :=
  (unrated_tryAdd generator.config).generate (fun _ hmem => absurd hmem List.not_mem_nil)
    source detection aligned context

end CropHypothesisGenerator

end FacLpr

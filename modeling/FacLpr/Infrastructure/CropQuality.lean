import FacLpr.Infrastructure.PixelSampling

/-!
# Infrastructure/CropQuality — sharpness, exposure and clipping of a crop

`evaluate_crop_quality` reads the luminances of the pixels and their Laplacians; the rest is
arithmetic on the two lists (`qualityOf`).
-/

namespace FacLpr

structure CropQualityConfig (F : Type) [Scalar F] where
  minWidth : ℕ := 16
  minHeight : ℕ := 8
  targetExposure : F := Scalar.ofRat 128
  clippingLow : ℕ := 4
  clippingHigh : ℕ := 251
  maxClippedRatio : F := Scalar.ofRat (15 / 100)
  sharpnessReference : F := Scalar.ofRat 400
  sharpnessWeight : F := Scalar.ofRat (55 / 100)
  exposureWeight : F := Scalar.ofRat (25 / 100)
  clippingWeight : F := Scalar.ofRat (20 / 100)

structure CropQuality (F : Type) [Scalar F] where
  sharpness : F := 0
  exposure : F := 0
  clipping : F := 0
  overall : F := 0
  meanIntensity : F := 0
  clippedRatio : F := 0
  laplacianVariance : F := 0

namespace CropQuality

variable {F : Type} [Scalar F]

/-- A weight of `validate_quality_config`. -/
def validWeight (weight : F) : Bool := Scalar.isFinite weight && !decide (weight < 0)

/-- `validate_quality_config`. -/
def validateQualityConfig (config : CropQualityConfig F) : Except EngineError Unit := do
  require (decide (config.minWidth ≠ 0) && decide (config.minHeight ≠ 0) &&
      (validWeight config.targetExposure && !decide (Scalar.ofRat 255 < config.targetExposure)) &&
      decide (config.clippingLow ≤ 255) && decide (config.clippingHigh ≤ 255) &&
      decide (config.clippingLow < config.clippingHigh) &&
      (Scalar.isFinite config.maxClippedRatio && !decide (config.maxClippedRatio ≤ 0) &&
        !decide (1 < config.maxClippedRatio)) &&
      (Scalar.isFinite config.sharpnessReference && !decide (config.sharpnessReference ≤ 0)) &&
      validWeight config.sharpnessWeight && validWeight config.exposureWeight &&
      validWeight config.clippingWeight)
    (configurationError "crop quality configuration is invalid")
  require (!decide (config.sharpnessWeight + config.exposureWeight + config.clippingWeight ≤ 0))
    (configurationError "crop quality weights must have a positive sum")

/-- `luminance_at`. -/
def luminanceAt (image : ImageView) (x y : ℕ) : ℕ :=
  let luminance (red green blue : ℕ) : ℕ := (77 * red + 150 * green + 29 * blue + 128) >>> 8
  match image.format with
  | .gray8 => (image.byteAt y x).toNat
  | .rgb8 => luminance (image.byteAt y (x * 3)).toNat (image.byteAt y (x * 3 + 1)).toNat
      (image.byteAt y (x * 3 + 2)).toNat
  | .bgr8 => luminance (image.byteAt y (x * 3 + 2)).toNat (image.byteAt y (x * 3 + 1)).toNat
      (image.byteAt y (x * 3)).toNat

/-- The luminances of the pixels, row by row. -/
def luminances (image : ImageView) : List ℕ :=
  (List.range image.height).flatMap fun y => (List.range image.width).map fun x =>
    luminanceAt image x y

/-- The Laplacian at a pixel off the border. -/
def laplacianAt (image : ImageView) (x y : ℕ) : ℤ :=
  luminanceAt image (x - 1) y + luminanceAt image (x + 1) y + luminanceAt image x (y - 1) +
    luminanceAt image x (y + 1) - 4 * luminanceAt image x y

/-- The Laplacians of the pixels off the border, row by row. -/
def laplacians (image : ImageView) : List ℤ :=
  if 3 ≤ image.width ∧ 3 ≤ image.height then
    (List.range (image.height - 2)).flatMap fun y => (List.range (image.width - 2)).map fun x =>
      laplacianAt image (x + 1) (y + 1)
  else []

/-- The variance of the Laplacians; of none it is zero. -/
def varianceOf (D : Type) [Scalar D] [PixelArithmetic F D] (laplacians : List ℤ) : F :=
  if laplacians = [] then 0
  else
    let sum : D := laplacians.foldl (fun sum value => sum + Scalar.ofRat value) 0
    let squareSum : D := laplacians.foldl
      (fun sum value => sum + Scalar.ofRat value * Scalar.ofRat value) 0
    let count : D := Scalar.ofRat laplacians.length
    let mean := sum / count
    PixelArithmetic.narrow (Scalar.max 0 (squareSum / count - mean * mean))

/-- The arithmetic of `evaluate_crop_quality`. -/
def qualityOf (D : Type) [Scalar D] [ImageArithmetic F D] (config : CropQualityConfig F)
    (pixelCount : ℕ) (luminances : List ℕ) (laplacians : List ℤ) : CropQuality F :=
  let intensitySum : D := luminances.foldl (fun sum value => sum + Scalar.ofRat value) 0
  let clipped := luminances.countP fun value =>
    value ≤ config.clippingLow ∨ config.clippingHigh ≤ value
  let mean : F := PixelArithmetic.narrow (intensitySum / Scalar.ofRat pixelCount)
  let clippedRatio : F := Scalar.ofRat clipped / Scalar.ofRat pixelCount
  let exposureDenominator :=
    Scalar.max config.targetExposure (Scalar.ofRat 255 - config.targetExposure)
  let exposure :=
    if 0 < exposureDenominator then
      Scalar.clamp01 (1 - ImageArithmetic.absolute D (mean - config.targetExposure) /
        exposureDenominator)
    else 1
  let clipping := Scalar.clamp01 (1 - clippedRatio / config.maxClippedRatio)
  let variance := varianceOf D laplacians
  let sharpness := Scalar.clamp01 (variance / config.sharpnessReference)
  let weightSum := config.sharpnessWeight + config.exposureWeight + config.clippingWeight
  { sharpness
    exposure
    clipping
    overall := Scalar.clamp01 ((sharpness * config.sharpnessWeight +
      exposure * config.exposureWeight + clipping * config.clippingWeight) / weightSum)
    meanIntensity := mean
    clippedRatio
    laplacianVariance := variance }

/-- `evaluate_crop_quality`. -/
def evaluateCropQuality (D : Type) [Scalar D] [ImageArithmetic F D] (image : ImageView)
    (config : CropQualityConfig F) : Except EngineError (CropQuality F) := do
  validateQualityConfig config
  if image.width < config.minWidth ∨ image.height < config.minHeight ∨ image.bytes = [] then
    return {}
  else
    let packedRow ←
      checkedMultiply image.width (pixelFormatChannels image.format) "quality row bytes"
    require (packedRow ≤ image.strideBytes) (invalidImageError "quality input stride is too small")
    let tail ← checkedMultiply (image.height - 1) image.strideBytes "quality image tail"
    let required ← checkedAdd tail packedRow "quality image bytes"
    require (required ≤ image.bytes.length)
      (invalidImageError "quality input buffer is too small")
    let pixelCount ← checkedMultiply image.width image.height "quality pixel count"
    return qualityOf D config pixelCount (luminances image) (laplacians image)

end CropQuality

/-! ## What the quality depends on -/

namespace SamePixels

open CropQuality

variable {F D : Type} [Scalar F] {a b : ImageView}

theorem luminanceAt (h : SamePixels a b) {x y : ℕ} (hx : x < a.width) (hy : y < a.height) :
    CropQuality.luminanceAt a x y = CropQuality.luminanceAt b x y := by
  unfold CropQuality.luminanceAt
  rw [← h.format]
  cases hformat : a.format with
  | gray8 => simp only [h.grayAt hformat hx hy]
  | bgr8 | rgb8 =>
    obtain ⟨h0, h1, h2⟩ := h.colorAt (by rw [hformat, pixelFormatChannels]) hx hy
    simp only [h0, h1, h2]

theorem luminances (h : SamePixels a b) :
    CropQuality.luminances a = CropQuality.luminances b := by
  unfold CropQuality.luminances
  rw [← h.height, ← h.width]
  refine List.flatMap_congr fun y hy => List.map_congr_left fun x hx => ?_
  exact h.luminanceAt (List.mem_range.mp hx) (List.mem_range.mp hy)

theorem laplacians (h : SamePixels a b) :
    CropQuality.laplacians a = CropQuality.laplacians b := by
  unfold CropQuality.laplacians
  rw [← h.height, ← h.width]
  split
  · refine List.flatMap_congr fun y hy => List.map_congr_left fun x hx => ?_
    have hx' := List.mem_range.mp hx
    have hy' := List.mem_range.mp hy
    have hluminance : ∀ {x y : ℕ}, x < a.width → y < a.height →
        CropQuality.luminanceAt a x y = CropQuality.luminanceAt b x y := h.luminanceAt
    unfold laplacianAt
    rw [hluminance (by omega) (by omega), hluminance (by omega) (by omega),
      hluminance (by omega) (by omega), hluminance (by omega) (by omega),
      hluminance (by omega) (by omega)]
  · rfl

end SamePixels

end FacLpr

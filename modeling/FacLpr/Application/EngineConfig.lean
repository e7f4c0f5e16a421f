import FacLpr.Application.Config
import FacLpr.Application.Image

/-!
# Application/EngineConfig — the engine's whole configuration

`validate_engine_config` goes through the five parts of a configuration and throws at the first
value out of range.  What passes is `EngineConfig.Valid`.
-/

namespace FacLpr

/-! ## The parts -/

/-- The detector part: thresholds, and the tiles a large image is cut into. -/
@[ext]
structure DetectorConfig (F : Type) [Scalar F] where
  confidenceThreshold : F := Scalar.ofRat (50 / 100)
  nmsIouThreshold : F := Scalar.ofRat (45 / 100)
  maxDetections : ℕ := 32
  adaptiveTiling : Bool := true
  tileWidth : ℕ := 1280
  tileHeight : ℕ := 960
  tileOverlapRatio : F := Scalar.ofRat (20 / 100)

/-- The recognition part: the beam search and the recognizers. -/
@[ext]
structure RecognitionConfig (F : Type) [Scalar F] where
  beamWidth : ℕ := 16
  resultLimit : ℕ := 5
  classesPerStep : ℕ := 6
  maxRecognizers : ℕ := 8
  minimumCandidateConfidence : F := Scalar.ofRat 0

/-- The crop part: how many hypotheses a plate gets, how they are padded and which filters they
go through. -/
@[ext]
structure CropConfig (F : Type) [Scalar F] where
  maxHypotheses : ℕ := 8
  horizontalPaddingRatio : F := Scalar.ofRat (6 / 100)
  verticalPaddingRatio : F := Scalar.ofRat (4 / 100)
  minimumWidth : ℕ := 60
  minimumHeight : ℕ := 18
  enableClahe : Bool := true
  enableSharpen : Bool := true
  enableAdaptiveThreshold : Bool := true
  enableDoubleRow : Bool := true

/-- The performance part: the workers, their queue, and the limits of an image. -/
@[ext]
structure PerformanceConfig extends ImageLimits where
  workerCount : ℕ := 1
  queueCapacity : ℕ := 8
  /-- In milliseconds. -/
  recognitionTimeout : ℤ := 5000

attribute [ext] DecisionConfig

/-- The five parts, each with its defaults. -/
structure EngineConfig (F : Type) [Scalar F] where
  detector : DetectorConfig F := {}
  recognition : RecognitionConfig F := {}
  crop : CropConfig F := {}
  decision : DecisionConfig F := {}
  performance : PerformanceConfig := {}

/-! ## Validation -/

variable {F : Type} [Scalar F]

/-- The checks `validate_engine_config` makes of the detector part. -/
def DetectorConfig.check (config : DetectorConfig F) : Except EngineError Unit := do
  requireUnitInterval config.confidenceThreshold "detector.confidence_threshold"
  requireUnitInterval config.nmsIouThreshold "detector.nms_iou_threshold"
  requirePositive config.maxDetections "detector.max_detections"
  requirePositive config.tileWidth "detector.tile_width"
  requirePositive config.tileHeight "detector.tile_height"
  require (decide (0 ≤ config.tileOverlapRatio) &&
      decide (config.tileOverlapRatio < Scalar.ofRat (50 / 100)))
    (configurationError "detector.tile_overlap_ratio must be in [0, 0.5)")

/-- Of the recognition part. -/
def RecognitionConfig.check (config : RecognitionConfig F) : Except EngineError Unit := do
  requirePositive config.beamWidth "recognition.beam_width"
  requirePositive config.resultLimit "recognition.result_limit"
  requirePositive config.classesPerStep "recognition.classes_per_step"
  requirePositive config.maxRecognizers "recognition.max_recognizers"
  requireUnitInterval config.minimumCandidateConfidence
    "recognition.minimum_candidate_confidence"
  require (!decide (config.beamWidth < config.resultLimit))
    (configurationError "recognition.result_limit cannot exceed recognition.beam_width")
  require (!decide (64 < config.classesPerStep))
    (configurationError "recognition.classes_per_step cannot exceed 64")
  require (!decide (32 < config.maxRecognizers))
    (configurationError "recognition.max_recognizers cannot exceed 32")

/-- Of the crop part. -/
def CropConfig.check (config : CropConfig F) : Except EngineError Unit := do
  requirePositive config.maxHypotheses "crop.max_hypotheses"
  requireUnitInterval config.horizontalPaddingRatio "crop.horizontal_padding_ratio"
  requireUnitInterval config.verticalPaddingRatio "crop.vertical_padding_ratio"
  requirePositive config.minimumWidth "crop.minimum_width"
  requirePositive config.minimumHeight "crop.minimum_height"
  require (!decide (32 < config.maxHypotheses))
    (configurationError "crop.max_hypotheses cannot exceed 32")

/-- Of the performance part; the limits of an image are those of the image boundary. -/
def PerformanceConfig.check (config : PerformanceConfig) : Except EngineError Unit := do
  requirePositive config.workerCount "performance.worker_count"
  requirePositive config.queueCapacity "performance.queue_capacity"
  requirePositive config.maxImageWidth "performance.max_image_width"
  requirePositive config.maxImageHeight "performance.max_image_height"
  requirePositive config.maxImageBytes "performance.max_image_bytes"
  require (!decide (256 < config.workerCount))
    (configurationError "performance.worker_count cannot exceed 256")
  require (!decide (65536 < config.queueCapacity))
    (configurationError "performance.queue_capacity cannot exceed 65536")
  require (!(decide (32768 < config.maxImageWidth) || decide (32768 < config.maxImageHeight)))
    (configurationError "performance image dimensions exceed safe engine limits")
  require (!decide (1024 * 1024 * 1024 < config.maxImageBytes))
    (configurationError "performance.max_image_bytes cannot exceed 1 GiB")
  require (!(decide (config.recognitionTimeout ≤ 0) ||
      decide (5 * 60 * 1000 < config.recognitionTimeout)))
    (configurationError "performance.recognition_timeout must be in (0, 5min]")

/-- `validate_engine_config`: the parts in their order, so the first that fails names the error. -/
def validateEngineConfig (config : EngineConfig F) : Except EngineError Unit := do
  config.detector.check
  config.recognition.check
  config.crop.check
  config.decision.check
  config.performance.check

/-! ## What passes -/

/-- A value of the unit interval. -/
def InUnit (value : F) : Prop := 0 ≤ value ∧ value ≤ 1

/-- Tiles overlap by less than a half. -/
structure DetectorConfig.Valid (config : DetectorConfig F) : Prop where
  confidenceThreshold : InUnit config.confidenceThreshold
  nmsIouThreshold : InUnit config.nmsIouThreshold
  maxDetections : 0 < config.maxDetections
  tileWidth : 0 < config.tileWidth
  tileHeight : 0 < config.tileHeight
  tileOverlapRatio : 0 ≤ config.tileOverlapRatio ∧
    config.tileOverlapRatio < Scalar.ofRat (50 / 100)

/-- A beam search does not give more results than its beam is wide. -/
structure RecognitionConfig.Valid (config : RecognitionConfig F) : Prop where
  beamWidth : 0 < config.beamWidth
  resultLimit : 0 < config.resultLimit ∧ config.resultLimit ≤ config.beamWidth
  classesPerStep : 0 < config.classesPerStep ∧ config.classesPerStep ≤ 64
  maxRecognizers : 0 < config.maxRecognizers ∧ config.maxRecognizers ≤ 32
  minimumCandidateConfidence : InUnit config.minimumCandidateConfidence

/-- The sizes are positive and the paddings shares of the plate. -/
structure CropConfig.Valid (config : CropConfig F) : Prop where
  maxHypotheses : 0 < config.maxHypotheses ∧ config.maxHypotheses ≤ 32
  horizontalPaddingRatio : InUnit config.horizontalPaddingRatio
  verticalPaddingRatio : InUnit config.verticalPaddingRatio
  minimumWidth : 0 < config.minimumWidth
  minimumHeight : 0 < config.minimumHeight

/-- The only decision part that passes is one that fails closed. -/
structure DecisionConfig.Valid (config : DecisionConfig F) : Prop where
  acceptedConfidenceThreshold : InUnit config.acceptedConfidenceThreshold
  reviewConfidenceThreshold : InUnit config.reviewConfidenceThreshold
  strongConflictThreshold : InUnit config.strongConflictThreshold
  minimumCropQuality : InUnit config.minimumCropQuality
  minimumGeometryScore : InUnit config.minimumGeometryScore
  minimumEffectiveDetectorConfidence : InUnit config.minimumEffectiveDetectorConfidence
  ordered : ¬ config.acceptedConfidenceThreshold < config.reviewConfidenceThreshold
  allowAcceptWhenDegraded : config.allowAcceptWhenDegraded = false
  failClosed : config.failClosed = true

/-- Every number is positive and bounded. -/
structure PerformanceConfig.Valid (config : PerformanceConfig) : Prop where
  workerCount : 0 < config.workerCount ∧ config.workerCount ≤ 256
  queueCapacity : 0 < config.queueCapacity ∧ config.queueCapacity ≤ 65536
  maxImageWidth : 0 < config.maxImageWidth ∧ config.maxImageWidth ≤ 32768
  maxImageHeight : 0 < config.maxImageHeight ∧ config.maxImageHeight ≤ 32768
  maxImageBytes : 0 < config.maxImageBytes ∧ config.maxImageBytes ≤ 1024 * 1024 * 1024
  recognitionTimeout : 0 < config.recognitionTimeout ∧ config.recognitionTimeout ≤ 5 * 60 * 1000

/-- **A valid configuration** — every part is. -/
structure EngineConfig.Valid (config : EngineConfig F) : Prop where
  detector : config.detector.Valid
  recognition : config.recognition.Valid
  crop : config.crop.Valid
  decision : config.decision.Valid
  performance : config.performance.Valid

/-- The check of a size. -/
theorem requirePositive_eq_ok {value : ℕ} {name : String} {u : Unit} :
    requirePositive value name = .ok u ↔ 0 < value := by
  rw [requirePositive, require_eq_ok, decide_eq_true_eq, Nat.pos_iff_ne_zero]

/-- The check of a share. -/
theorem requireUnitInterval_eq_ok {value : F} {name : String} {u : Unit} :
    requireUnitInterval value name = .ok u ↔ InUnit value := by
  rw [requireUnitInterval, require_eq_ok, Bool.and_eq_true, decide_eq_true_eq, decide_eq_true_eq,
    InUnit]

/-- The detector part passes when it is valid. -/
theorem DetectorConfig.check_eq_ok {config : DetectorConfig F} {u : Unit} :
    config.check = .ok u ↔ config.Valid := by
  simp only [check, except_bind_eq_ok, exists_const, requirePositive_eq_ok,
    requireUnitInterval_eq_ok, require_eq_ok, Bool.and_eq_true, decide_eq_true_eq]
  constructor
  · rintro ⟨h₁, h₂, h₃, h₄, h₅, h₆⟩
    exact ⟨h₁, h₂, h₃, h₄, h₅, h₆⟩
  · rintro ⟨h₁, h₂, h₃, h₄, h₅, h₆⟩
    exact ⟨h₁, h₂, h₃, h₄, h₅, h₆⟩

/-- The recognition part passes when it is valid. -/
theorem RecognitionConfig.check_eq_ok {config : RecognitionConfig F} {u : Unit} :
    config.check = .ok u ↔ config.Valid := by
  simp only [check, except_bind_eq_ok, exists_const, requirePositive_eq_ok,
    requireUnitInterval_eq_ok, require_eq_ok, Bool.not_eq_true', decide_eq_false_iff_not, not_lt]
  constructor
  · rintro ⟨h₁, h₂, h₃, h₄, h₅, h₆, h₇, h₈⟩
    exact ⟨h₁, ⟨h₂, h₆⟩, ⟨h₃, h₇⟩, ⟨h₄, h₈⟩, h₅⟩
  · rintro ⟨h₁, ⟨h₂, h₆⟩, ⟨h₃, h₇⟩, ⟨h₄, h₈⟩, h₅⟩
    exact ⟨h₁, h₂, h₃, h₄, h₅, h₆, h₇, h₈⟩

/-- The crop part passes when it is valid. -/
theorem CropConfig.check_eq_ok {config : CropConfig F} {u : Unit} :
    config.check = .ok u ↔ config.Valid := by
  simp only [check, except_bind_eq_ok, exists_const, requirePositive_eq_ok,
    requireUnitInterval_eq_ok, require_eq_ok, Bool.not_eq_true', decide_eq_false_iff_not, not_lt]
  constructor
  · rintro ⟨h₁, h₂, h₃, h₄, h₅, h₆⟩
    exact ⟨⟨h₁, h₆⟩, h₂, h₃, h₄, h₅⟩
  · rintro ⟨⟨h₁, h₆⟩, h₂, h₃, h₄, h₅⟩
    exact ⟨h₁, h₂, h₃, h₄, h₅, h₆⟩

/-- The decision part passes when it is valid. -/
theorem DecisionConfig.check_eq_ok {config : DecisionConfig F} {u : Unit} :
    config.check = .ok u ↔ config.Valid := by
  simp only [check, except_bind_eq_ok, exists_const, requireUnitInterval_eq_ok, require_eq_ok,
    Bool.not_eq_true', decide_eq_false_iff_not]
  constructor
  · rintro ⟨h₁, h₂, h₃, h₄, h₅, h₆, h₇, h₈, h₉⟩
    exact ⟨h₁, h₂, h₃, h₄, h₅, h₆, h₇, h₈, h₉⟩
  · rintro ⟨h₁, h₂, h₃, h₄, h₅, h₆, h₇, h₈, h₉⟩
    exact ⟨h₁, h₂, h₃, h₄, h₅, h₆, h₇, h₈, h₉⟩

/-- The performance part passes when it is valid. -/
theorem PerformanceConfig.check_eq_ok {config : PerformanceConfig} {u : Unit} :
    config.check = .ok u ↔ config.Valid := by
  simp only [check, except_bind_eq_ok, exists_const, requirePositive_eq_ok, require_eq_ok,
    Bool.not_eq_true', Bool.or_eq_false_iff, decide_eq_false_iff_not, not_lt, not_le]
  constructor
  · rintro ⟨h₁, h₂, h₃, h₄, h₅, h₆, h₇, h₈, h₉, h₁₀⟩
    exact ⟨⟨h₁, h₆⟩, ⟨h₂, h₇⟩, ⟨h₃, h₈.1⟩, ⟨h₄, h₈.2⟩, ⟨h₅, h₉⟩, h₁₀⟩
  · rintro ⟨⟨h₁, h₆⟩, ⟨h₂, h₇⟩, ⟨h₃, h₈⟩, ⟨h₄, h₈'⟩, ⟨h₅, h₉⟩, h₁₀⟩
    exact ⟨h₁, h₂, h₃, h₄, h₅, h₆, h₇, ⟨h₈, h₈'⟩, h₉, h₁₀⟩

/-- **What passes is what is valid.** -/
theorem validateEngineConfig_eq_ok {config : EngineConfig F} {u : Unit} :
    validateEngineConfig config = .ok u ↔ config.Valid := by
  simp only [validateEngineConfig, except_bind_eq_ok, exists_const, DetectorConfig.check_eq_ok,
    RecognitionConfig.check_eq_ok, CropConfig.check_eq_ok, DecisionConfig.check_eq_ok,
    PerformanceConfig.check_eq_ok]
  constructor
  · rintro ⟨h₁, h₂, h₃, h₄, h₅⟩
    exact ⟨h₁, h₂, h₃, h₄, h₅⟩
  · rintro ⟨h₁, h₂, h₃, h₄, h₅⟩
    exact ⟨h₁, h₂, h₃, h₄, h₅⟩

/-- The image boundary takes the limits of a valid configuration. -/
theorem PerformanceConfig.Valid.imageLimits {config : PerformanceConfig} (h : config.Valid) :
    config.toImageLimits.check = .ok () := by
  simp only [ImageLimits.check, except_bind_eq_ok, exists_const, requirePositive_eq_ok,
    require_eq_ok, decide_eq_true_eq]
  exact ⟨h.maxImageWidth.1, h.maxImageHeight.1, h.maxImageBytes.1,
    ⟨h.maxImageWidth.2, h.maxImageHeight.2⟩, h.maxImageBytes.2⟩

end FacLpr

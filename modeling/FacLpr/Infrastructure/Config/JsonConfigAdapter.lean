import FacLpr.Application.EngineConfig
import FacLpr.Foundations.RecordFields
import FacLpr.Foundations.Text
import Mathlib.Data.UInt

/-!
# Infrastructure/Config/JsonConfigAdapter — the configuration as a JSON document

`parse_config` checks the schema, reads each section it finds over the defaults and validates the
result.  Under `UnknownFieldPolicy.reject` a member that no section knows is thrown at.

The JSON library is a parameter (`Library`): what it parses, and what its conversions make of a
value.  `Library.Documented` is what it documents of them.
-/

namespace FacLpr

namespace JsonConfig

/-! ## Documents -/

/-- A value of `nlohmann::json`: an integer is kept unsigned unless it is negative. -/
inductive Document (D : Type) where
  | null
  | boolean (value : Bool)
  | integer (value : Int64)
  | unsigned (value : UInt64)
  | floating (value : D)
  | string (value : Text)
  | array (items : List (Document D))
  | object (members : List (Text × Document D))

/-- The entries of an object, which is a `std::map`. -/
abbrev Members (D : Type) := List (Text × Document D)

/-- The JSON library: its parser, and what `get` makes of a value. -/
structure Library (D F : Type) where
  /-- `Json::parse`, or the text of what it throws. -/
  parse : Text → Except String (Document D)
  /-- `static_cast<float>` of a `double`. -/
  narrow : D → F
  /-- `get<std::int64_t>` of a value that `is_number_integer`. -/
  getInteger : Document D → Int64
  /-- `get<float>`, or the text of what it throws. -/
  getFloat : Document D → Except String F
  /-- `get<bool>`, or the text of what it throws. -/
  getBool : Document D → Except String Bool

/-- What is documented of `get`: a value of the type asked for is returned, and a number is cast. -/
structure Library.Documented {D F : Type} (lib : Library D F) : Prop where
  getInteger_unsigned (value : UInt64) : lib.getInteger (.unsigned value) = value.toInt64
  getFloat_floating (value : D) : lib.getFloat (.floating value) = .ok (lib.narrow value)
  getBool_boolean (value : Bool) : lib.getBool (.boolean value) = .ok value

/-- `is_number_integer`, which is true of an unsigned value too. -/
def Document.isInteger {D : Type} : Document D → Bool
  | .integer _ => true
  | .unsigned _ => true
  | _ => false

/-! ## Reading a member -/

variable {D F σ : Type} [Scalar F]

/-- `read_optional` of a present member. -/
def readOptional {T : Type} (key : String) (get : Document D → Except String T)
    (value : Document D) : Except EngineError T :=
  (get value).mapError fun what =>
    configurationError (key ++ " has invalid type/value: " ++ what)

/-- `read_size` of a present member. -/
def readSize (lib : Library D F) (key : String) (value : Document D) : Except EngineError ℕ := do
  require value.isInteger (configurationError (key ++ " must be a non-negative integer"))
  let value := lib.getInteger value
  require (!decide (value.toInt < 0))
    (configurationError (key ++ " must be a non-negative integer"))
  return value.toInt.toNat

/-- How `apply_performance` reads the timeout. -/
def readTimeout (lib : Library D F) (value : Document D) : Except EngineError ℤ := do
  require value.isInteger (configurationError "recognition_timeout_ms must be an integer")
  let milliseconds := lib.getInteger value
  require (!decide (milliseconds.toInt ≤ 0))
    (configurationError "recognition_timeout_ms must be greater than zero")
  return milliseconds.toInt

/-- A member of a section. -/
abbrev Field (D σ : Type) := RecordField Text (Document D) EngineError σ

def floatField (lib : Library D F) (key : String) (get : σ → F) (set : σ → F → σ)
    (get_set : ∀ s x, get (set s x) = x) : Field D σ :=
  ⟨ascii key, F, get, set, readOptional key lib.getFloat, get_set⟩

def boolField (lib : Library D F) (key : String) (get : σ → Bool) (set : σ → Bool → σ)
    (get_set : ∀ s x, get (set s x) = x) : Field D σ :=
  ⟨ascii key, Bool, get, set, readOptional key lib.getBool, get_set⟩

def sizeField (lib : Library D F) (key : String) (get : σ → ℕ) (set : σ → ℕ → σ)
    (get_set : ∀ s x, get (set s x) = x) : Field D σ :=
  ⟨ascii key, ℕ, get, set, readSize lib key, get_set⟩

/-! ## Sections -/

inductive UnknownFieldPolicy where
  | reject
  | ignore
  deriving DecidableEq

/-- Whether a key is one of the allowed ones. -/
def isKnown (allowed : List String) (key : Text) : Bool :=
  allowed.any fun field => key == ascii field

def rejectUnknownFields (object : Members D) (scope : String) (allowed : List String)
    (policy : UnknownFieldPolicy) : Except EngineError Unit :=
  match policy with
  | .ignore => .ok ()
  | .reject => object.forM fun member =>
      require (isKnown allowed member.1)
        (configurationError
          ("unknown JSON config field '" ++ scope ++ "." ++ messageOf member.1 ++ "'"))

/-- The form of the five `apply_` functions. -/
def applySection (scope : String) (allowed : List String) (fields : List (Field D σ))
    (policy : UnknownFieldPolicy) (value : Members D) (config : σ) : Except EngineError σ := do
  rejectUnknownFields value scope allowed policy
  RecordField.readMembers fields value config

def detectorAllowed : List String :=
  ["confidence_threshold", "nms_iou_threshold", "max_detections", "adaptive_tiling",
    "tile_width", "tile_height", "tile_overlap_ratio"]

def detectorFields (lib : Library D F) : List (Field D (DetectorConfig F)) :=
  [floatField lib "confidence_threshold" (·.confidenceThreshold)
      (fun c x => { c with confidenceThreshold := x }) fun _ _ => rfl,
    floatField lib "nms_iou_threshold" (·.nmsIouThreshold)
      (fun c x => { c with nmsIouThreshold := x }) fun _ _ => rfl,
    sizeField lib "max_detections" (·.maxDetections)
      (fun c x => { c with maxDetections := x }) fun _ _ => rfl,
    boolField lib "adaptive_tiling" (·.adaptiveTiling)
      (fun c x => { c with adaptiveTiling := x }) fun _ _ => rfl,
    sizeField lib "tile_width" (·.tileWidth)
      (fun c x => { c with tileWidth := x }) fun _ _ => rfl,
    sizeField lib "tile_height" (·.tileHeight)
      (fun c x => { c with tileHeight := x }) fun _ _ => rfl,
    floatField lib "tile_overlap_ratio" (·.tileOverlapRatio)
      (fun c x => { c with tileOverlapRatio := x }) fun _ _ => rfl]

def applyDetector (lib : Library D F) :
    UnknownFieldPolicy → Members D → DetectorConfig F → Except EngineError (DetectorConfig F) :=
  applySection "detector" detectorAllowed (detectorFields lib)

def recognitionAllowed : List String :=
  ["beam_width", "result_limit", "classes_per_step", "max_recognizers",
    "minimum_candidate_confidence"]

def recognitionFields (lib : Library D F) : List (Field D (RecognitionConfig F)) :=
  [sizeField lib "beam_width" (·.beamWidth) (fun c x => { c with beamWidth := x }) fun _ _ => rfl,
    sizeField lib "result_limit" (·.resultLimit)
      (fun c x => { c with resultLimit := x }) fun _ _ => rfl,
    sizeField lib "classes_per_step" (·.classesPerStep)
      (fun c x => { c with classesPerStep := x }) fun _ _ => rfl,
    sizeField lib "max_recognizers" (·.maxRecognizers)
      (fun c x => { c with maxRecognizers := x }) fun _ _ => rfl,
    floatField lib "minimum_candidate_confidence" (·.minimumCandidateConfidence)
      (fun c x => { c with minimumCandidateConfidence := x }) fun _ _ => rfl]

def applyRecognition (lib : Library D F) : UnknownFieldPolicy → Members D → RecognitionConfig F →
    Except EngineError (RecognitionConfig F) :=
  applySection "recognition" recognitionAllowed (recognitionFields lib)

def cropAllowed : List String :=
  ["max_hypotheses", "horizontal_padding_ratio", "vertical_padding_ratio",
    "minimum_width", "minimum_height", "enable_clahe", "enable_sharpen",
    "enable_adaptive_threshold", "enable_double_row"]

def cropFields (lib : Library D F) : List (Field D (CropConfig F)) :=
  [sizeField lib "max_hypotheses" (·.maxHypotheses)
      (fun c x => { c with maxHypotheses := x }) fun _ _ => rfl,
    floatField lib "horizontal_padding_ratio" (·.horizontalPaddingRatio)
      (fun c x => { c with horizontalPaddingRatio := x }) fun _ _ => rfl,
    floatField lib "vertical_padding_ratio" (·.verticalPaddingRatio)
      (fun c x => { c with verticalPaddingRatio := x }) fun _ _ => rfl,
    sizeField lib "minimum_width" (·.minimumWidth)
      (fun c x => { c with minimumWidth := x }) fun _ _ => rfl,
    sizeField lib "minimum_height" (·.minimumHeight)
      (fun c x => { c with minimumHeight := x }) fun _ _ => rfl,
    boolField lib "enable_clahe" (·.enableClahe)
      (fun c x => { c with enableClahe := x }) fun _ _ => rfl,
    boolField lib "enable_sharpen" (·.enableSharpen)
      (fun c x => { c with enableSharpen := x }) fun _ _ => rfl,
    boolField lib "enable_adaptive_threshold" (·.enableAdaptiveThreshold)
      (fun c x => { c with enableAdaptiveThreshold := x }) fun _ _ => rfl,
    boolField lib "enable_double_row" (·.enableDoubleRow)
      (fun c x => { c with enableDoubleRow := x }) fun _ _ => rfl]

def applyCrop (lib : Library D F) :
    UnknownFieldPolicy → Members D → CropConfig F → Except EngineError (CropConfig F) :=
  applySection "crop" cropAllowed (cropFields lib)

def decisionAllowed : List String :=
  ["accepted_confidence_threshold", "review_confidence_threshold", "strong_conflict_threshold",
    "minimum_crop_quality", "minimum_geometry_score", "minimum_effective_detector_confidence",
    "allow_accept_when_degraded", "fail_closed"]

def decisionFields (lib : Library D F) : List (Field D (DecisionConfig F)) :=
  [floatField lib "accepted_confidence_threshold" (·.acceptedConfidenceThreshold)
      (fun c x => { c with acceptedConfidenceThreshold := x }) fun _ _ => rfl,
    floatField lib "review_confidence_threshold" (·.reviewConfidenceThreshold)
      (fun c x => { c with reviewConfidenceThreshold := x }) fun _ _ => rfl,
    floatField lib "strong_conflict_threshold" (·.strongConflictThreshold)
      (fun c x => { c with strongConflictThreshold := x }) fun _ _ => rfl,
    floatField lib "minimum_crop_quality" (·.minimumCropQuality)
      (fun c x => { c with minimumCropQuality := x }) fun _ _ => rfl,
    floatField lib "minimum_geometry_score" (·.minimumGeometryScore)
      (fun c x => { c with minimumGeometryScore := x }) fun _ _ => rfl,
    floatField lib "minimum_effective_detector_confidence" (·.minimumEffectiveDetectorConfidence)
      (fun c x => { c with minimumEffectiveDetectorConfidence := x }) fun _ _ => rfl,
    boolField lib "allow_accept_when_degraded" (·.allowAcceptWhenDegraded)
      (fun c x => { c with allowAcceptWhenDegraded := x }) fun _ _ => rfl,
    boolField lib "fail_closed" (·.failClosed)
      (fun c x => { c with failClosed := x }) fun _ _ => rfl]

def applyDecision (lib : Library D F) :
    UnknownFieldPolicy → Members D → DecisionConfig F → Except EngineError (DecisionConfig F) :=
  applySection "decision" decisionAllowed (decisionFields lib)

def performanceAllowed : List String :=
  ["worker_count", "queue_capacity", "max_image_width", "max_image_height", "max_image_bytes",
    "recognition_timeout_ms"]

/-- The image limits are read into the part of the record that keeps them. -/
def performanceFields (lib : Library D F) : List (Field D PerformanceConfig) :=
  [sizeField lib "worker_count" (·.workerCount)
      (fun c x => { c with workerCount := x }) fun _ _ => rfl,
    sizeField lib "queue_capacity" (·.queueCapacity)
      (fun c x => { c with queueCapacity := x }) fun _ _ => rfl,
    sizeField lib "max_image_width" (·.maxImageWidth)
      (fun c x => { c with maxImageWidth := x }) fun _ _ => rfl,
    sizeField lib "max_image_height" (·.maxImageHeight)
      (fun c x => { c with maxImageHeight := x }) fun _ _ => rfl,
    sizeField lib "max_image_bytes" (·.maxImageBytes)
      (fun c x => { c with maxImageBytes := x }) fun _ _ => rfl,
    ⟨ascii "recognition_timeout_ms", ℤ, (·.recognitionTimeout),
      fun c x => { c with recognitionTimeout := x }, readTimeout lib, fun _ _ => rfl⟩]

def applyPerformance (lib : Library D F) :
    UnknownFieldPolicy → Members D → PerformanceConfig → Except EngineError PerformanceConfig :=
  applySection "performance" performanceAllowed (performanceFields lib)

/-! ## The document -/

def rootAllowed : List String :=
  ["schema_version", "detector", "recognition", "crop", "decision", "performance"]

def kEngineConfigSchemaVersion : ℕ := 1

def optionalObject (root : Members D) (key : String) : Except EngineError (Option (Members D)) :=
  match root.lookup (ascii key) with
  | none => .ok none
  | some (.object members) => .ok (some members)
  | some _ => .error (configurationError (key ++ " must be a JSON object"))

/-- Read a section over its defaults, where there is one. -/
def readSection (root : Members D) (key : String)
    (apply : Members D → σ → Except EngineError σ) (config : σ) : Except EngineError σ := do
  match ← optionalObject root key with
  | none => return config
  | some value => apply value config

def checkSchema (lib : Library D F) (root : Members D) : Except EngineError Unit :=
  match root.lookup (ascii "schema_version") with
  | none => .error (configurationError "schema_version is required")
  | some schema => do
      require schema.isInteger (configurationError "schema_version must be an integer")
      let version := lib.getInteger schema
      require (version.toInt == kEngineConfigSchemaVersion)
        (configurationError ("unsupported schema_version: " ++ toString version.toInt))

def parseConfig (lib : Library D F) (policy : UnknownFieldPolicy) (root : Document D) :
    Except EngineError (EngineConfig F) :=
  match root with
  | .object root => do
      rejectUnknownFields root "root" rootAllowed policy
      checkSchema lib root
      let detector ← readSection root "detector" (applyDetector lib policy) {}
      let recognition ← readSection root "recognition" (applyRecognition lib policy) {}
      let crop ← readSection root "crop" (applyCrop lib policy) {}
      let decision ← readSection root "decision" (applyDecision lib policy) {}
      let performance ← readSection root "performance" (applyPerformance lib policy) {}
      let config : EngineConfig F := { detector, recognition, crop, decision, performance }
      validateEngineConfig config
      return config
  | _ => .error (configurationError "JSON config root must be an object")

def loadEngineConfigJson (lib : Library D F) (policy : UnknownFieldPolicy) (jsonText : Text) :
    Except EngineError (EngineConfig F) :=
  if jsonText.isEmpty then .error (configurationError "JSON config must not be empty")
  else match lib.parse jsonText with
    | .error what => .error (configurationError ("invalid JSON config: " ++ what))
    | .ok root => parseConfig lib policy root

/-- An opened file: what could be read of it, and whether that was all. -/
structure InputFile where
  content : Text
  bad : Bool

def loadEngineConfigJsonFile (lib : Library D F) (openBinary : Text → Option InputFile)
    (policy : UnknownFieldPolicy) (path : Text) : Except EngineError (EngineConfig F) :=
  if path.isEmpty then .error (configurationError "JSON config path must not be empty")
  else match openBinary path with
    | none => .error (configurationError ("cannot open JSON config file: " ++ messageOf path))
    | some input =>
        if input.bad then
          .error (configurationError ("failed reading JSON config file: " ++ messageOf path))
        else loadEngineConfigJson lib policy input.content

end JsonConfig

end FacLpr

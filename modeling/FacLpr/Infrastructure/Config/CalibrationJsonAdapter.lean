import FacLpr.Application.ConfidenceCalibration
import FacLpr.Infrastructure.Config.JsonConfigAdapter

/-!
# Infrastructure/Config/CalibrationJsonAdapter — the calibration as a JSON document

Members are read with the conversions of the JSON library, and every exception of the library
becomes a `ConfigurationError`.  What is read must pass the calibrator's constructor.
-/

namespace FacLpr

namespace CalibrationJson

open JsonConfig

variable {D F T : Type} [Scalar F]

/-- The JSON library, with the conversions and the message that the calibration uses. -/
structure CalibrationLibrary (D F : Type) extends JsonConfig.Library D F where
  /-- `get<int>`, or the text of what it throws. -/
  getInt : Document D → Except String Int32
  /-- `get<std::size_t>`, or the text of what it throws. -/
  getSize : Document D → Except String UInt64
  /-- `get<std::string>`, or the text of what it throws. -/
  getString : Document D → Except String Text
  /-- The text of an `out_of_range`, of the key that was not found. -/
  outOfRange : String → String

/-- What is documented of these conversions: a number is cast, and a text is returned. -/
structure CalibrationLibrary.Documented (lib : CalibrationLibrary D F) : Prop extends
    JsonConfig.Library.Documented lib.toLibrary where
  getInt_unsigned (value : UInt64) : lib.getInt (.unsigned value) = .ok value.toUInt32.toInt32
  getSize_unsigned (value : UInt64) : lib.getSize (.unsigned value) = .ok value
  getString_string (value : Text) : lib.getString (.string value) = .ok value

/-- What the loader makes of an exception of the library. -/
def wrapped (x : Except String T) : Except EngineError T :=
  x.mapError fun what => configurationError ("invalid calibration JSON: " ++ what)

/-- `value`: a member, or the default when there is none. -/
def valueOr (members : Members D) (key : String) (get : Document D → Except String T)
    (fallback : T) : Except EngineError T :=
  match members.lookup (ascii key) with
  | none => .ok fallback
  | some value => wrapped (get value)

/-- `at`, and what is made of the member. -/
def valueAt (lib : CalibrationLibrary D F) (members : Members D) (key : String)
    (get : Document D → Except String T) : Except EngineError T :=
  match members.lookup (ascii key) with
  | none => wrapped (.error (lib.outOfRange key))
  | some value => wrapped (get value)

structure LoadedCalibration (F : Type) [Scalar F] where
  modelVersion : Text
  datasetVersion : Text
  config : LogisticCalibrationConfig F
  segments : List (LogisticCalibrationSegment F)

/-- The body of the loop over the segments. -/
def parseSegment (lib : CalibrationLibrary D F) (item : Document D) :
    Except EngineError (LogisticCalibrationSegment F) :=
  match item with
  | .object members => do
      let provider ← valueAt lib members "provider" lib.getString
      let cropType ← valueOr members "cropType" lib.getString []
      let slope ← valueAt lib members "slope" lib.getFloat
      let intercept ← valueAt lib members "intercept" lib.getFloat
      let sampleCount ← valueAt lib members "sampleCount" lib.getSize
      return { provider, cropType, slope, intercept, sampleCount := sampleCount.toNat }
  | _ => .error (configurationError "calibration segment must be an object")

/-- The items of the segments, of which there must be one. -/
def segmentItems : Document D → Except EngineError (List (Document D))
  | .array (item :: items) => .ok (item :: items)
  | _ => .error (configurationError "calibration segments must be a non-empty array")

/-- `parse`. -/
def parseCalibration (lib : CalibrationLibrary D F) (root : Document D) :
    Except EngineError (LoadedCalibration F) :=
  match root with
  | .object root => do
      let schemaVersion ← valueOr root "schemaVersion" lib.getInt 0
      require (schemaVersion == 1) (configurationError "unsupported calibration schemaVersion")
      let modelVersion ← valueOr root "modelVersion" lib.getString []
      let datasetVersion ← valueOr root "datasetVersion" lib.getString []
      require (!(modelVersion.isEmpty || datasetVersion.isEmpty))
        (configurationError "calibration modelVersion/datasetVersion are required")
      let minimumSamples ← valueAt lib root "minimumSamples" lib.getSize
      let probabilityEpsilon ← valueAt lib root "probabilityEpsilon" lib.getFloat
      let items ← valueAt lib root "segments" .ok
      let segments ← (← segmentItems items).mapM (parseSegment lib)
      let config : LogisticCalibrationConfig F := {
        minimumSamples := minimumSamples.toNat
        probabilityEpsilon }
      let _ ← LogisticConfidenceCalibrator.build config segments
      return { modelVersion, datasetVersion, config, segments }
  | _ => .error (configurationError "calibration JSON root must be an object")

/-- `load_logistic_calibration_json`. -/
def loadLogisticCalibrationJson (lib : CalibrationLibrary D F) (jsonText : Text) :
    Except EngineError (LoadedCalibration F) :=
  if jsonText.isEmpty then .error (configurationError "calibration JSON must not be empty")
  else do
    let root ← wrapped (lib.parse jsonText)
    parseCalibration lib root

/-- `load_logistic_calibration_json_file`. -/
def loadLogisticCalibrationJsonFile (lib : CalibrationLibrary D F)
    (openBinary : Text → Option InputFile) (path : Text) :
    Except EngineError (LoadedCalibration F) :=
  match openBinary path with
  | none => .error (configurationError ("cannot open calibration JSON file: " ++ messageOf path))
  | some input =>
      if input.bad then
        .error (configurationError ("failed reading calibration JSON file: " ++ messageOf path))
      else loadLogisticCalibrationJson lib input.content

/-- What a call returned, as a value that knows it. -/
def attached {ε α : Type} : (x : Except ε α) → Except ε {a // x = .ok a}
  | .ok a => .ok ⟨a, rfl⟩
  | .error e => .error e

/-- The constructor of the calibrator, as an object. -/
def construct (config : LogisticCalibrationConfig F)
    (segments : List (LogisticCalibrationSegment F)) :
    Except EngineError (LogisticConfidenceCalibrator F) :=
  (attached (LogisticConfidenceCalibrator.build config segments)).map fun stored =>
    { config, segments := stored.1, built := ⟨segments, stored.2⟩ }

/-- `make_logistic_calibrator_json_file`. -/
def makeLogisticCalibratorJsonFile (lib : CalibrationLibrary D F)
    (openBinary : Text → Option InputFile) (path : Text) :
    Except EngineError (LogisticConfidenceCalibrator F) := do
  let loaded ← loadLogisticCalibrationJsonFile lib openBinary path
  construct loaded.config loaded.segments

end CalibrationJson

end FacLpr

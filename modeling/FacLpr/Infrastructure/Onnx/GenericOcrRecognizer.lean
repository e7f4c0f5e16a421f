import FacLpr.Application.RecognitionEnsemble

/-!
# Infrastructure/Onnx/GenericOcrRecognizer — a recognizer around an inference session

The recognizer builds the inputs, runs the session and has its adapter decode the outputs.  The
session is a program of which nothing is assumed.
-/

namespace FacLpr

/-- `Ort::Value`, by what the adapters ask of it; `data` is `none` for a null pointer. -/
structure OrtValue (F : Type) where
  isTensor : Bool
  isFloat : Bool
  shape : List ℤ
  elementCount : ℕ
  data : Option (List F)

/-- `IOnnxOcrModelAdapter`, with its metadata. -/
structure OnnxOcrModelAdapter (σ F D : Type) where
  name : Text
  version : Text
  inputNames : List Text
  outputNames : List Text
  buildInputs : ValidatedImage → OperationContext → Run σ (List (OrtValue F))
  decode : List (OrtValue F) → OperationContext → Run σ (RecognitionEvidence F D)

/-- `IOnnxInferenceSession`, with the names of its inputs and outputs. -/
structure OnnxInferenceSession (σ F : Type) where
  inputs : List Text
  outputs : List Text
  run : List Text → List (OrtValue F) → List Text → Run σ (List (OrtValue F))

namespace GenericOnnxOcrRecognizer

variable {σ F D : Type}

def uniqueNames (names : List Text) : Bool :=
  names.all (fun name => !name.isEmpty) && decide names.Nodup

/-- `validate_contract`. -/
def validateContract (session : OnnxInferenceSession σ F) (adapter : OnnxOcrModelAdapter σ F D) :
    Except EngineError Unit := do
  require (!(adapter.name.isEmpty || adapter.version.isEmpty))
    (configurationError "ONNX OCR adapter name and version are required")
  require (!(adapter.inputNames.isEmpty || adapter.outputNames.isEmpty))
    (configurationError "ONNX OCR adapter must declare input and output names")
  require (uniqueNames adapter.inputNames && uniqueNames adapter.outputNames)
    (configurationError "ONNX OCR adapter node names must be non-empty and unique")
  require (adapter.inputNames.all fun input => session.inputs.contains input)
    (modelLoadError "ONNX OCR adapter input does not exist in model contract")
  require (adapter.outputNames.all fun output => session.outputs.contains output)
    (modelLoadError "ONNX OCR adapter output does not exist in model contract")

end GenericOnnxOcrRecognizer

/-- A recognizer its constructor accepted. -/
structure GenericOnnxOcrRecognizer (σ F D : Type) where
  session : OnnxInferenceSession σ F
  adapter : OnnxOcrModelAdapter σ F D
  imageLimits : ImageLimits := {}
  accepted : GenericOnnxOcrRecognizer.validateContract session adapter = .ok ()

namespace GenericOnnxOcrRecognizer

variable {σ F D : Type} [Scalar F]

/-- `validate_evidence`, which reads a candidate as the ensemble's does. -/
def validateEvidence (evidence : RecognitionEvidence F D) : Except EngineError Unit :=
  require (evidence.candidates.all RecognitionEnsemble.isValidCandidate)
    (inferenceError "ONNX OCR adapter returned malformed recognition evidence")

variable [Scalar D] [World σ]

def checkRecognizerContext (context : OperationContext) : Run σ Unit :=
  checkContext context "ONNX OCR recognition cancelled" "ONNX OCR recognition deadline exceeded"

/-- `GenericOnnxOcrRecognizer::recognize`. -/
def recognize (recognizer : GenericOnnxOcrRecognizer σ F D) (plate : ImageView)
    (context : OperationContext) : Run σ (RecognitionEvidence F D) := do
  checkRecognizerContext context
  let validated ← Run.ofExcept (validateImage plate recognizer.imageLimits)
  let started ← now
  checkRecognizerContext context
  let inputs ← recognizer.adapter.buildInputs validated context
  if inputs.length ≠ recognizer.adapter.inputNames.length then
    Run.throw (inferenceError "ONNX OCR adapter produced an unexpected input count")
  else
    let outputs ← recognizer.session.run recognizer.adapter.inputNames inputs
      recognizer.adapter.outputNames
    checkRecognizerContext context
    if outputs.length ≠ recognizer.adapter.outputNames.length then
      Run.throw (inferenceError "ONNX OCR session returned an unexpected output count")
    else
      let evidence ← recognizer.adapter.decode outputs context
      Run.ofExcept (validateEvidence evidence)
      let finished ← now
      return { evidence with
        source := recognizer.adapter.name
        latencyMs := elapsedMs started finished }

/-- The recognizer as one of an ensemble. -/
def provider (recognizer : GenericOnnxOcrRecognizer σ F D) : PlateRecognizer σ F D :=
  ⟨recognizer.adapter.name, recognizer.recognize⟩

open Program

/-- A returned item has candidates its adapter decoded. -/
theorem returns_recognize {recognizer : GenericOnnxOcrRecognizer σ F D} {plate : ImageView}
    {context : OperationContext} {P : PlateCandidate F → Prop}
    (h : ∀ outputs context, Returns (recognizer.adapter.decode outputs context) fun evidence =>
      ∀ candidate ∈ evidence.candidates, P candidate) :
    Returns (recognizer.recognize plate context) fun evidence =>
      ∀ candidate ∈ evidence.candidates, P candidate := by
  refine (returns_self _).bind fun _ _ => (returns_self _).bind fun validated _ => ?_
  refine (returns_self _).bind fun _ _ => (returns_self _).bind fun _ _ => ?_
  refine (returns_self _).bind fun inputs _ => ?_
  split
  · exact fun s a s' hthrow => nomatch hthrow
  · refine (returns_self _).bind fun outputs _ => (returns_self _).bind fun _ _ => ?_
    split
    · exact fun s a s' hthrow => nomatch hthrow
    · refine (h outputs context).bind fun evidence hevidence => ?_
      exact (returns_self _).bind fun _ _ => (returns_self _).bind fun _ _ => returns_pure hevidence

end GenericOnnxOcrRecognizer

end FacLpr

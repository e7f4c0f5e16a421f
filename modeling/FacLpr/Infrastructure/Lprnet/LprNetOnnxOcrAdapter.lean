import FacLpr.Infrastructure.Lprnet.ConstrainedCtcBeamSearch
import FacLpr.Infrastructure.Onnx.GenericOcrRecognizer

/-!
# Infrastructure/Lprnet/LprNetOnnxOcrAdapter — from output tensors to evidence

The adapter checks the shape of the only output, reads the logits timestep by timestep and hands
them to the beam search.  Its preprocessing is a program of which nothing is assumed.
-/

namespace FacLpr

inductive LprNetOutputLayout where
  | batchClassesTimesteps
  | batchTimestepsClasses
  deriving DecidableEq

structure LprNetOnnxOcrAdapterConfig (F : Type) [Scalar F] where
  providerName : Text := ascii "lprnet_onnx"
  modelVersion : Text := ascii "unknown"
  inputName : Text := []
  outputName : Text := []
  outputLayout : LprNetOutputLayout := .batchClassesTimesteps
  decoder : ConstrainedCtcBeamSearchConfig F

/-- The checks of the constructor, those of the decoder first. -/
def LprNetOnnxOcrAdapterConfig.check {F : Type} [Scalar F] (config : LprNetOnnxOcrAdapterConfig F) :
    Except EngineError Unit := do
  config.decoder.check
  require (!(config.providerName.isEmpty || config.modelVersion.isEmpty ||
      config.inputName.isEmpty || config.outputName.isEmpty))
    (configurationError "LPRNet ONNX provider/version/input/output names are required")

/-- An adapter its constructor accepted. -/
structure LprNetOnnxOcrAdapter (F : Type) [Scalar F] where
  config : LprNetOnnxOcrAdapterConfig F
  accepted : config.check = .ok ()

namespace LprNetOnnxOcrAdapter

variable {σ F D W : Type} [Scalar F] [Scalar W]

/-- The decoder, built with the default grammar. -/
def decoder (adapter : LprNetOnnxOcrAdapter F) : ConstrainedCtcBeamSearch F :=
  ⟨adapter.config.decoder, TurkishPlateGrammar.default,
    (except_bind_eq_ok.mp adapter.accepted).elim fun _ h => h.1⟩

/-- The logits of a transposed output, timestep by timestep. -/
def timestepMajor (data : List F) (timesteps classes : ℕ) : List F :=
  (List.range timesteps).flatMap fun timestep => (List.range classes).map fun classIndex =>
    data.getD (classIndex * timesteps + timestep) 0

def shapeError : EngineError :=
  inferenceError "LPRNet ONNX output must have static [1,C,T] or [1,T,C] shape"

/-- The logits of the only output, with its timesteps and classes. -/
def readLogits (adapter : LprNetOnnxOcrAdapter F) (outputs : List (OrtValue F)) :
    Except EngineError (List F × ℕ × ℕ) :=
  match outputs with
  | [output] => do
      require output.isTensor
        (inferenceError "LPRNet ONNX adapter expects exactly one tensor output")
      require output.isFloat (inferenceError "LPRNet ONNX logits must be float32")
      match output.shape with
      | [batch, first, second] => do
          require (decide (batch = 1) && !decide (first ≤ 0) && !decide (second ≤ 0))
            shapeError
          let (timesteps, classes) :=
            match adapter.config.outputLayout with
            | .batchClassesTimesteps => (second.toNat, first.toNat)
            | .batchTimestepsClasses => (first.toNat, second.toNat)
          require (classes = adapter.config.decoder.ctc.charset.length + 1) (inferenceError
            "LPRNet ONNX class count does not match configured charset/blank contract")
          require (timesteps ≤ adapter.config.decoder.ctc.maximumTimesteps &&
              classes ≤ adapter.config.decoder.ctc.maximumClasses)
            (inferenceError "LPRNet ONNX logits exceed configured decoder bounds")
          require (output.elementCount = timesteps * classes)
            (inferenceError "LPRNet ONNX output element count does not match shape")
          match output.data with
          | none => .error (inferenceError "LPRNet ONNX logits pointer is null")
          | some data =>
              match adapter.config.outputLayout with
              | .batchClassesTimesteps =>
                  return (timestepMajor data timesteps classes, timesteps, classes)
              | .batchTimestepsClasses => return (data.take output.elementCount, timesteps, classes)
      | _ => .error shapeError
  | _ => .error (inferenceError "LPRNet ONNX adapter expects exactly one tensor output")

section

variable [CtcArithmetic F W]

/-- The evidence of a decoded result: its candidates, or the greedy text when there are none. -/
def evidenceOf [Zero D] (adapter : LprNetOnnxOcrAdapter F)
    (decoded : ConstrainedCtcBeamSearchResult F) : RecognitionEvidence F D :=
  let candidates := decoded.candidates.map fun candidate =>
    { candidate with calibratedConfidence := candidate.confidence }
  { source := adapter.config.providerName
    candidates :=
      if candidates.isEmpty ∧ !decoded.greedy.text.isEmpty then
        [⟨decoded.greedy.text, decoded.greedy.confidence, decoded.greedy.confidence, false⟩]
      else candidates
    cropQuality := 0
    latencyMs := 0 }

variable (W) in
/-- The rest of `decode`, after its check of the context. -/
def decodeOutputs [Zero D] (adapter : LprNetOnnxOcrAdapter F) (outputs : List (OrtValue F)) :
    Except EngineError (RecognitionEvidence F D) := do
  let (logits, timesteps, classes) ← adapter.readLogits outputs
  let decoded ← adapter.decoder.decode W logits timesteps classes
  return adapter.evidenceOf decoded

variable [World σ]

def checkAdapterContext (context : OperationContext) : Run σ Unit :=
  checkContext context "LPRNet ONNX recognition cancelled"
    "LPRNet ONNX recognition deadline exceeded"

variable (W) in
/-- The adapter as a model adapter, around any preprocessing. -/
def modelAdapter [Zero D] (adapter : LprNetOnnxOcrAdapter F)
    (preprocess : ValidatedImage → Run σ (OrtValue F)) : OnnxOcrModelAdapter σ F D where
  name := adapter.config.providerName
  version := adapter.config.modelVersion
  inputNames := [adapter.config.inputName]
  outputNames := [adapter.config.outputName]
  buildInputs image context := do
    checkAdapterContext context
    return [← preprocess image]
  decode outputs context := do
    checkAdapterContext context
    Run.ofExcept (adapter.decodeOutputs W outputs)

end

end LprNetOnnxOcrAdapter

end FacLpr

import FacLpr.Infrastructure.Onnx.OnnxSession
import FacLpr.Infrastructure.Yolo.YoloPoseOutputParser

/-!
# Infrastructure/Yolo/YoloPoseOnnxDetector — the detector around an inference session

The constructor compares the configured input with what the model says of it; a detection fills the
tensor, runs the session and parses what comes out.  Over a loaded session the comparison has done
the work of the later checks: no tensor is of the wrong size or over the budget
(`detect_eq_detectUnchecked`).
-/

namespace FacLpr

/-- `IOnnxInferenceSession`, with the descriptors of its nodes. -/
structure DescribedSession (σ F : Type) where
  inputs : List TensorDescriptor
  outputs : List TensorDescriptor
  run : List Text → List (OrtValue F) → List Text → Run σ (List (OrtValue F))

/-- A session of the runtime as one of its interface. -/
def OnnxSession.described {σ F : Type} (session : OnnxSession σ F) : DescribedSession σ F :=
  ⟨session.inputs, session.outputs, session.run⟩

structure YoloPoseOnnxDetectorConfig (F : Type) [Scalar F] where
  providerName : Text := ascii "yolo_pose_onnx"
  inputName : Text := []
  outputName : Text := []
  input : YoloInputSpec F := {}
  output : YoloPoseOutputSpec F := {}
  imageLimits : ImageLimits := {}

namespace YoloPoseOnnxDetector

variable {σ F D : Type} [Scalar F]

def findDescriptor (descriptors : List TensorDescriptor) (name : Text) : Option TensorDescriptor :=
  descriptors.find? fun descriptor => descriptor.name == name

/-- `checked_elements`. -/
def checkedElements (spec : YoloInputSpec F) : Except EngineError ℕ := do
  require (spec.width ≠ 0 ∧ spec.height ≠ 0 ∧ spec.channels ≠ 0)
    (configurationError "YOLO ONNX input dimensions must be non-zero")
  require (spec.width ≤ sizeMax / spec.height)
    (configurationError "YOLO ONNX input dimensions overflow")
  let pixels := spec.width * spec.height
  require (pixels ≤ sizeMax / spec.channels)
    (configurationError "YOLO ONNX input element count overflows")
  return pixels * spec.channels

/-- The checks of the input of the model, and of the configured one. -/
def validateInput (shape : List ℤ) (spec : YoloInputSpec F) : Except EngineError Unit :=
  match shape with
  | [batch, channels, height, width] => do
      require (decide (batch = 1) && decide (channels = 3))
        (modelLoadError "YOLO ONNX input must have static NCHW [1,3,H,W] contract")
      require (decide (0 < height) && decide (0 < width))
        (modelLoadError "YOLO ONNX input height/width must be static positive values")
      require (height.toNat == spec.height && width.toNat == spec.width && spec.channels == 3)
        (modelLoadError
          "YOLO ONNX configured preprocessing dimensions do not match model input")
  | _ => .error (modelLoadError "YOLO ONNX input must have static NCHW [1,3,H,W] contract")

def validateOutput (shape : List ℤ) : Except EngineError Unit :=
  match shape with
  | [batch, _, _] => require (decide (batch = 1))
      (modelLoadError "YOLO ONNX output must have rank-3 batch-one contract")
  | _ => .error (modelLoadError "YOLO ONNX output must have rank-3 batch-one contract")

/-- `validate_contract`. -/
def validateContract (session : DescribedSession σ F) (config : YoloPoseOnnxDetectorConfig F) :
    Except EngineError Unit :=
  match findDescriptor session.inputs config.inputName,
    findDescriptor session.outputs config.outputName with
  | some input, some output => do
      require (input.elementType == .float) (modelLoadError "YOLO ONNX input must be float32")
      require (output.elementType == .float) (modelLoadError "YOLO ONNX output must be float32")
      validateInput input.shape config.input
      validateOutput output.shape
      let _ ← checkedElements config.input
  | _, _ => .error (modelLoadError
      "YOLO ONNX configured node name is missing from model contract")

/-- The checks of the constructor, behind those of the preprocessor and of the parser. -/
def check (session : DescribedSession σ F) (config : YoloPoseOnnxDetectorConfig F) :
    Except EngineError Unit := do
  require (!(config.providerName.isEmpty || config.inputName.isEmpty || config.outputName.isEmpty))
    (configurationError "YOLO ONNX provider/input/output names are required")
  validateContract session config

end YoloPoseOnnxDetector

/-- A detector its constructor accepted. -/
structure YoloPoseOnnxDetector (σ F : Type) [Scalar F] where
  session : DescribedSession σ F
  config : YoloPoseOnnxDetectorConfig F
  preprocessor : YoloPosePreprocessor F
  parser : YoloPoseOutputParser F
  preprocesses : preprocessor.spec = config.input
  parses : parser.spec = config.output
  accepted : YoloPoseOnnxDetector.check session config = .ok ()

namespace YoloPoseOnnxDetector

variable {σ F D : Type} [Scalar F] [Scalar D] [ImageArithmetic F D] [World σ]

/-- What a detection works on: the world, and the workspace of the detector. -/
abbrev Worked (σ F : Type) := σ × NativeImageWorkspace F

def checkDetectorContext (context : OperationContext) : Run (Worked σ F) Unit :=
  Program.onFst (checkContext context "YOLO ONNX detection cancelled"
    "YOLO ONNX detection deadline exceeded")

/-- The only input, over the tensor of the workspace. -/
def inputValue (config : YoloPoseOnnxDetectorConfig F) (tensor : YoloInputTensor F) :
    OrtValue F where
  isTensor := true
  isFloat := true
  shape := [1, config.input.channels, config.input.height, config.input.width]
  elementCount := tensor.chw.length
  data := some tensor.chw

/-- The span over the data of an output, whose elements a size counts. -/
def outputSpan (data : List F) (elementCount : ℕ) : ElementSpan F :=
  ⟨(data.take elementCount).take sizeMax, List.length_take_le sizeMax _⟩

/-- `parse`, of which the log of reads is not kept. -/
def parse (detector : YoloPoseOnnxDetector σ F) (output : ElementSpan F) (shape : List ℤ)
    (letterbox : LetterboxMetadata F) : Except EngineError (List (Detection F)) :=
  match detector.parser.parse output (shape.map Int64.ofInt) letterbox [] with
  | .ok detections _ => .ok detections
  | .error error _ => .error error

/-- What is done with the outputs. -/
def postprocess (detector : YoloPoseOnnxDetector σ F) (outputs : List (OrtValue F))
    (letterbox : LetterboxMetadata F) : Except EngineError (List (Detection F)) :=
  match outputs with
  | [output] => do
      require output.isTensor
        (inferenceError "YOLO ONNX session returned invalid output count/type")
      match output.data with
      | none => .error (inferenceError "YOLO ONNX output tensor is empty")
      | some data => do
          require (output.elementCount != 0)
            (inferenceError "YOLO ONNX output tensor is empty")
          let detections ← detector.parse (outputSpan data output.elementCount) output.shape
            letterbox
          return detections.map fun detection =>
            { detection with provider := detector.config.providerName }
  | _ => .error (inferenceError "YOLO ONNX session returned invalid output count/type")

variable (D) in
/-- The tensor of an image, in the workspace of the detector. -/
def preprocess (detector : YoloPoseOnnxDetector σ F) (image : ValidatedImage)
    (allocation : Allocation) : Run (Worked σ F) (YoloInputTensor F) :=
  Program.onPart Prod.snd (fun workspace s => (s.1, workspace))
    (detector.preprocessor.preprocessWith D image allocation)

/-- The detection behind the tensor. -/
def infer (detector : YoloPoseOnnxDetector σ F)
    (run : List Text → List (OrtValue F) → List Text → Run σ (List (OrtValue F)))
    (context : OperationContext) (tensor : YoloInputTensor F) :
    Run (Worked σ F) (List (Detection F)) := do
  let outputs ← Program.onFst (run [detector.config.inputName]
    [inputValue detector.config tensor] [detector.config.outputName])
  checkDetectorContext context
  Run.ofExcept (detector.postprocess outputs tensor.letterbox)

variable (D) in
/-- `YoloPoseOnnxDetector::detect`. -/
def detect (detector : YoloPoseOnnxDetector σ F) (image : ImageView) (context : OperationContext)
    (allocation : Allocation) : Run (Worked σ F) (List (Detection F)) := do
  checkDetectorContext context
  let validated ← Run.ofExcept (validateImage image detector.config.imageLimits)
  checkDetectorContext context
  let tensor ← detector.preprocess D validated allocation
  let elements ← Run.ofExcept (checkedElements detector.config.input)
  Run.ofExcept (require (tensor.chw.length == elements)
    (inferenceError "YOLO preprocessor produced unexpected tensor size"))
  detector.infer detector.session.run context tensor

variable (D) in
/-- A detection over a session of the runtime that checks nothing of what goes in. -/
def detectUnchecked (detector : YoloPoseOnnxDetector σ F) (session : OnnxSession σ F)
    (image : ImageView) (context : OperationContext) (allocation : Allocation) :
    Run (Worked σ F) (List (Detection F)) := do
  checkDetectorContext context
  let validated ← Run.ofExcept (validateImage image detector.config.imageLimits)
  checkDetectorContext context
  let tensor ← detector.preprocess D validated allocation
  detector.infer session.runUnchecked context tensor

/-! ## What the constructor has checked -/

/-- The tensor of a preprocessor has as many elements as its input. -/
theorem returns_preprocessWith (preprocessor : YoloPosePreprocessor F) (image : ValidatedImage)
    (allocation : Allocation) :
    Program.Returns (preprocessor.preprocessWith D image allocation) fun tensor =>
      tensor.chw.length = preprocessor.tensorElements := by
  refine (Program.returns_self _).bind fun _ _ => ?_
  refine (Program.returns_self _).bind fun workspace _ => ?_
  refine Program.Returns.bind (P := fun tensor =>
    tensor.chw.length = preprocessor.tensorElements) (returns_runOfExcept fun tensor h => ?_)
    fun tensor h => (Program.returns_self _).bind fun _ _ => Program.returns_pure h
  simp only [YoloPosePreprocessor.preprocessInto, except_bind_eq_ok, require_eq_ok,
    decide_eq_true_eq] at h
  obtain ⟨-, hlength, metadata, -, htensor⟩ := h
  obtain rfl := Except.ok.inj htensor
  rw [length_storeAll, List.length_replicate, hlength]

theorem tensorElements_eq (preprocessor : YoloPosePreprocessor F) :
    preprocessor.tensorElements =
      preprocessor.spec.width * preprocessor.spec.height * preprocessor.spec.channels := by
  have haccepted := preprocessor.accepted
  simp only [YoloInputSpec.checkedTensorSize, except_bind_eq_ok] at haccepted
  obtain ⟨-, -, -, -, -, -, -, -, helements⟩ := haccepted
  exact (Except.ok.inj helements).symm

theorem validateInput_ok {shape : List ℤ} {spec : YoloInputSpec F} {u : Unit}
    (h : validateInput shape spec = .ok u) :
    shape = [1, 3, (spec.height : ℤ), (spec.width : ℤ)] ∧ 0 < spec.height ∧ 0 < spec.width ∧
      spec.channels = 3 := by
  unfold validateInput at h
  split at h
  · simp only [except_bind_eq_ok, require_eq_ok, Bool.and_eq_true, decide_eq_true_eq,
      beq_iff_eq] at h
    obtain ⟨-, ⟨rfl, rfl⟩, -, ⟨hheight, hwidth⟩, ⟨hspecHeight, hspecWidth⟩, hchannels⟩ := h
    rw [← hspecHeight, ← hspecWidth, Int.toNat_of_nonneg hheight.le,
      Int.toNat_of_nonneg hwidth.le]
    exact ⟨rfl, by omega, by omega, hchannels⟩
  · cases h

theorem checkedElements_ok {spec : YoloInputSpec F} {elements : ℕ}
    (h : checkedElements spec = .ok elements) :
    elements = spec.width * spec.height * spec.channels := by
  simp only [checkedElements, except_bind_eq_ok] at h
  obtain ⟨-, -, -, -, -, -, helements⟩ := h
  exact (Except.ok.inj helements).symm

omit [World σ] in
/-- What `validate_contract` says of the input: its shape, which is the configured one. -/
theorem exists_input_of_check {session : DescribedSession σ F}
    {config : YoloPoseOnnxDetectorConfig F} {u : Unit} (h : check session config = .ok u) :
    (∃ descriptor ∈ session.inputs,
        descriptor.shape = [1, 3, (config.input.height : ℤ), (config.input.width : ℤ)]) ∧
      0 < config.input.height ∧ 0 < config.input.width ∧ config.input.channels = 3 ∧
      checkedElements config.input =
        .ok (config.input.width * config.input.height * config.input.channels) := by
  obtain ⟨-, -, hcontract⟩ := except_bind_eq_ok.mp h
  unfold validateContract at hcontract
  split at hcontract
  · rename_i input output hinput houtput
    simp only [except_bind_eq_ok] at hcontract
    obtain ⟨-, -, -, -, _, hshape, -, -, elements, helements, -⟩ := hcontract
    obtain ⟨hshape, hheight, hwidth, hchannels⟩ := validateInput_ok hshape
    obtain rfl := checkedElements_ok helements
    exact ⟨⟨input, List.mem_of_find?_eq_some hinput, hshape⟩, hheight, hwidth, hchannels,
      helements⟩
  · cases hcontract

/-- **Over a loaded session, what is checked of a tensor holds**: whatever the image and the
outputs, a detection is the one without those checks. -/
theorem detect_eq_detectUnchecked (detector : YoloPoseOnnxDetector σ F)
    {runtime : OnnxRuntime σ F} {path : Text} {config : OnnxSessionConfig}
    {session : OnnxSession σ F}
    (hcreate : OnnxSession.create runtime true path config = .ok session)
    (hsession : detector.session = session.described) (image : ImageView)
    (context : OperationContext) (allocation : Allocation) :
    detector.detect D image context allocation =
      detector.detectUnchecked D session image context allocation := by
  have h := OnnxSession.loaded_of_create hcreate
  obtain ⟨⟨descriptor, hdescriptor, hshape⟩, hheight, hwidth, hchannels, helements⟩ :=
    exists_input_of_check detector.accepted
  unfold detect detectUnchecked
  refine bind_congr fun _ => bind_congr fun validated => bind_congr fun _ => ?_
  refine (returns_preprocessWith detector.preprocessor validated allocation).onPart.bind_congr
    fun tensor htensor => ?_
  rw [tensorElements_eq, detector.preprocesses] at htensor
  have hsize : Run.ofExcept (require (tensor.chw.length ==
        detector.config.input.width * detector.config.input.height *
          detector.config.input.channels)
        (inferenceError "YOLO preprocessor produced unexpected tensor size")) =
      (pure () : Run (Worked σ F) Unit) := by
    rw [htensor, beq_self_eq_true]
    rfl
  have hrun : detector.session.run [detector.config.inputName]
        [inputValue detector.config tensor] [detector.config.outputName] =
      session.runUnchecked [detector.config.inputName] [inputValue detector.config tensor]
        [detector.config.outputName] := by
    rw [hsession]
    have hmem : descriptor ∈ session.inputs := by rwa [hsession] at hdescriptor
    refine OnnxSession.run_eq_runUnchecked h hmem ?_ rfl ?_ _ (List.cons_ne_nil _ _)
    · rw [hshape]
      simp only [OnnxSession.IsStatic, List.forall_mem_cons]
      exact ⟨by decide, by decide, by exact_mod_cast hheight, by exact_mod_cast hwidth,
        fun _ hmem => absurd hmem List.not_mem_nil⟩
    · rw [hshape]
      change tensor.chw.length = 1 * (3 * (detector.config.input.height *
        (detector.config.input.width * 1)))
      rw [htensor, hchannels]
      ring
  calc
    _ = (Run.ofExcept (require (tensor.chw.length ==
          detector.config.input.width * detector.config.input.height *
            detector.config.input.channels)
          (inferenceError "YOLO preprocessor produced unexpected tensor size")) >>= fun _ =>
        detector.infer detector.session.run context tensor) := by
      rw [helements]
      rfl
    _ = detector.infer detector.session.run context tensor := by
      rw [hsize]
      rfl
    _ = detector.infer session.runUnchecked context tensor := by
      rw [infer, infer, hrun]

/-- A model of a four by four input, with one row of output. -/
def sampleModel : OrtSession Frozen ℚ where
  inputs := [⟨ascii "images", true, .float, [1, 3, 4, 4]⟩]
  outputs := [⟨ascii "output0", true, .float, [1, 17, 1]⟩]
  run _ _ _ := pure [⟨true, true, [1, 17, 1], 17, some (List.replicate 17 0)⟩]

/-- A runtime that opens that model, on the CPU. -/
def sampleRuntime : OnnxRuntime Frozen ℚ where
  api := ⟨.ok [ascii "CPUExecutionProvider"], fun _ _ => none⟩
  isRegularFile _ := some true
  absolute _ := none
  openModel _ _ := .ok sampleModel

def sampleSession : OnnxSession Frozen ℚ where
  native := sampleModel
  inputs := [⟨ascii "images", .float, [1, 3, 4, 4]⟩]
  outputs := [⟨ascii "output0", .float, [1, 17, 1]⟩]
  executionProviderDiagnostics := ⟨.cpu, .cpu, false, [ascii "CPUExecutionProvider"]⟩
  maxTensorElements := 64 * 1024 * 1024

def sampleConfig : YoloPoseOnnxDetectorConfig ℚ where
  inputName := ascii "images"
  outputName := ascii "output0"
  input := { width := 4, height := 4 }

theorem sampleConfig_preprocesses : sampleConfig.input.checkedTensorSize = .ok 48 := by
  decide +kernel

theorem sampleConfig_parses : YoloPoseOutputParser.validateSpec sampleConfig.output = .ok () := by
  decide +kernel

theorem sampleConfig_accepted : check sampleSession.described sampleConfig = .ok () := by
  decide +kernel

def sampleDetector : YoloPoseOnnxDetector Frozen ℚ where
  session := sampleSession.described
  config := sampleConfig
  preprocessor := ⟨sampleConfig.input, 48, sampleConfig_preprocesses⟩
  parser := ⟨sampleConfig.output, sampleConfig_parses⟩
  preprocesses := rfl
  parses := rfl
  accepted := sampleConfig_accepted

theorem detect_eq_detectUnchecked_sampleDetector :
    sampleDetector.detect ℚ ⟨List.replicate 9 7, 9, 1, 9, .gray8⟩ ⟨none⟩ (.granted 48) =
      sampleDetector.detectUnchecked ℚ sampleSession ⟨List.replicate 9 7, 9, 1, 9, .gray8⟩ ⟨none⟩
        (.granted 48) := by
  have hcreate : OnnxSession.create sampleRuntime true (ascii "plate.onnx") {} =
      .ok sampleSession := rfl
  exact detect_eq_detectUnchecked sampleDetector hcreate rfl _ _ _

end YoloPoseOnnxDetector

end FacLpr

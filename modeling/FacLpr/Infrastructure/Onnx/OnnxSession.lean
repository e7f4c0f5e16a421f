import FacLpr.Infrastructure.Concurrency.BoundedWorkerPool
import FacLpr.Infrastructure.Onnx.ExecutionProvider
import FacLpr.Infrastructure.Onnx.GenericOcrRecognizer
import FacLpr.Infrastructure.Onnx.PathRedaction

/-!
# Infrastructure/Onnx/OnnxSession — a model that is loaded, and its runs

The constructor opens a model file and keeps what the model says of its inputs and outputs, each
static shape within the budget (`loaded_of_create`).  A run checks the budget of what goes in and of
what comes out; what goes in with a static shape of the model needs no check
(`run_eq_runUnchecked`).
-/

namespace FacLpr

/-- `ONNXTensorElementDataType`, by what the engine tells apart. -/
inductive TensorElementDataType where
  | float
  | other
  deriving DecidableEq

structure TensorDescriptor where
  name : Text
  elementType : TensorElementDataType
  shape : List ℤ
  deriving DecidableEq

/-- An exception of the runtime, or of the standard library. -/
inductive OrtThrown where
  | ort (what : Text)
  | badAlloc
  | standard (what : Text)
  | foreign

/-- A node of a model, as `GetInputTypeInfo` has it. -/
structure OrtNode where
  name : Text
  isTensor : Bool
  elementType : TensorElementDataType
  shape : List ℤ

/-- `Ort::Session`: the nodes of its model, and `Run`. -/
structure OrtSession (σ F : Type) where
  inputs : List OrtNode
  outputs : List OrtNode
  run : List Text → List (OrtValue F) → List Text → Program OrtThrown σ (List (OrtValue F))

/-- What the constructor asks of the file system and of the runtime. -/
structure OnnxRuntime (σ F : Type) where
  api : OrtApi
  /-- `std::filesystem::is_regular_file`, where it does not throw. -/
  isRegularFile : Text → Option Bool
  /-- `std::filesystem::absolute`, where it does not throw. -/
  absolute : Text → Option Text
  openModel : Text → List OrtEvent → Except OrtThrown (OrtSession σ F)

structure OnnxSessionConfig where
  intraOpThreads : ℤ := 0
  interOpThreads : ℤ := 0
  executionProvider : OnnxExecutionProviderConfig := {}
  maxTensorElements : ℕ := 64 * 1024 * 1024

structure OnnxSession (σ F : Type) where
  native : OrtSession σ F
  inputs : List TensorDescriptor
  outputs : List TensorDescriptor
  executionProviderDiagnostics : OnnxExecutionProviderDiagnostics
  maxTensorElements : ℕ

namespace OnnxSession

variable {σ F : Type}

/-! ## The constructor -/

/-- `static_tensor_elements`, from a total on: `0` at a dimension that is dynamic. -/
def staticTensorElementsFrom (maximum : ℕ) (resource : String) :
    ℕ → List ℤ → Except EngineError ℕ
  | total, [] => .ok total
  | total, dimension :: shape =>
      if dimension ≤ 0 then .ok 0
      else do
        let total ← checkedResourceMultiply total dimension.toNat maximum resource
        staticTensorElementsFrom maximum resource total shape

def staticTensorElements (shape : List ℤ) (maximum : ℕ) (resource : String) :
    Except EngineError ℕ :=
  staticTensorElementsFrom maximum resource 1 shape

def validateDescriptorBudget (descriptors : List TensorDescriptor) (maximum : ℕ)
    (direction : String) : Except EngineError Unit :=
  descriptors.forM fun descriptor => do
    let _ ← staticTensorElements descriptor.shape maximum
      ("ONNX " ++ direction ++ " tensor '" ++ messageOf descriptor.name ++ "'")

/-- `inspect_descriptors`. -/
def inspectDescriptors (nodes : List OrtNode) (inputs : Bool) :
    Except EngineError (List TensorDescriptor) :=
  nodes.mapM fun node => do
    require node.isTensor (modelLoadError
      ((if inputs then "input" else "output") ++ " node is not a tensor: " ++ messageOf node.name))
    return ⟨node.name, node.elementType, node.shape⟩

/-- The checks of `build_options`. -/
def checkOptions (config : OnnxSessionConfig) : Except EngineError Unit := do
  require (!(decide (config.intraOpThreads < 0) || decide (config.interOpThreads < 0)))
    (configurationError "ONNX Runtime thread counts cannot be negative")
  require (!(config.maxTensorElements == 0 ||
      decide (64 * 1024 * 1024 * 8 < config.maxTensorElements)))
    (configurationError "ONNX max_tensor_elements is outside safe limits")

/-- `model_load_message`; the loops of `redact_path` go on to the end of the message at most. -/
def modelLoadMessage (runtime : OnnxRuntime σ F) (path detail : Text) : String :=
  "failed to load ONNX model '" ++ messageOf (filename path) ++ "': " ++
    messageOf ((redactPath (detail.length + 1) detail path (runtime.absolute path)).getD detail)

/-- What the handlers of the constructor make of what the runtime throws. -/
def handledLoad (runtime : OnnxRuntime σ F) (path : Text) : OrtThrown → Exn
  | .ort what => .engine (modelLoadError (modelLoadMessage runtime path what))
  | .badAlloc =>
      .engine (resourceExhaustedError "ONNX session allocation exceeded memory budget")
  | .standard what => .engine (modelLoadError (modelLoadMessage runtime path what))
  | .foreign => .foreign

/-- What is done with the opened model. -/
def inspect (runtime : OnnxRuntime σ F) (path : Text) (config : OnnxSessionConfig)
    (diagnostics : OnnxExecutionProviderDiagnostics) (native : OrtSession σ F) :
    Except EngineError (OnnxSession σ F) := do
  let inputs ← inspectDescriptors native.inputs true
  let outputs ← inspectDescriptors native.outputs false
  require (!(inputs.isEmpty || outputs.isEmpty)) (modelLoadError
    (modelLoadMessage runtime path (ascii "model has no tensor inputs or outputs")))
  validateDescriptorBudget inputs config.maxTensorElements "input"
  validateDescriptorBudget outputs config.maxTensorElements "output"
  return ⟨native, inputs, outputs, diagnostics, config.maxTensorElements⟩

/-- The constructor, of an environment that may be null. -/
def create (runtime : OnnxRuntime σ F) (environment : Bool) (path : Text)
    (config : OnnxSessionConfig) : Except Exn (OnnxSession σ F) :=
  if environment = false then
    .error (.engine (modelLoadError "ONNX Runtime environment is null"))
  else match runtime.isRegularFile path with
    | none => .error .foreign
    | some false => .error (.engine (modelLoadError (modelLoadMessage runtime path
        (ascii "model file does not exist or is not a regular file"))))
    | some true => do
        (checkOptions config).mapError Exn.engine
        let configured := OnnxExecutionProviderStrategy.configure runtime.api
          config.executionProvider
        let diagnostics ← configured.1.mapError Exn.engine
        let native ← (runtime.openModel path configured.2).mapError (handledLoad runtime path)
        (inspect runtime path config diagnostics native).mapError Exn.engine

/-! ## A run -/

/-- `require_resource_count`. -/
def requireResourceCount (value maximum : ℕ) (resource : String) : Except EngineError Unit :=
  require (!decide (maximum < value))
    (resourceExhaustedError (resource ++ " exceeds configured resource budget"))

def validateRuntimeInputBudget (values : List (OrtValue F)) (maximum : ℕ) :
    Except EngineError Unit :=
  values.forM fun value => do
    require value.isTensor (inferenceError "ONNX runtime input is not a tensor")
    requireResourceCount value.elementCount maximum "ONNX runtime input tensor elements"

/-- The checks of what `Run` returned. -/
def validateRuntimeOutputBudget (outputs : List (OrtValue F)) (maximum : ℕ) :
    Except EngineError Unit :=
  outputs.forM fun output => do
    require output.isTensor (inferenceError "ONNX runtime output is not a tensor")
    requireResourceCount output.elementCount maximum "ONNX runtime output tensor elements"

/-- What the handlers of `run` make of what the runtime throws. -/
def handledRun : OrtThrown → Exn
  | .ort _ => .engine (inferenceError "ONNX Runtime inference failed")
  | .badAlloc =>
      .engine (resourceExhaustedError "ONNX inference allocation exceeded memory budget")
  | .standard _ => .engine (inferenceError "ONNX inference failed")
  | .foreign => .foreign

/-- `run`, without its checks of what goes in. -/
def runUnchecked (session : OnnxSession σ F) (inputNames : List Text)
    (inputValues : List (OrtValue F)) (outputNames : List Text) : Run σ (List (OrtValue F)) := do
  let outputs ← (session.native.run inputNames inputValues outputNames).mapThrown handledRun
  Run.ofExcept (validateRuntimeOutputBudget outputs session.maxTensorElements)
  return outputs

/-- `OnnxSession::run`. -/
def run (session : OnnxSession σ F) (inputNames : List Text) (inputValues : List (OrtValue F))
    (outputNames : List Text) : Run σ (List (OrtValue F)) := do
  Run.ofExcept (require (inputNames.length == inputValues.length)
    (inferenceError "ONNX input name/value counts do not match"))
  Run.ofExcept (require (!(inputNames.isEmpty || outputNames.isEmpty))
    (inferenceError "ONNX inference requires at least one input and one output"))
  Run.ofExcept (validateRuntimeInputBudget inputValues session.maxTensorElements)
  session.runUnchecked inputNames inputValues outputNames

/-! ## What is checked once -/

/-- The elements of a static shape. -/
def shapeElements (shape : List ℤ) : ℕ := (shape.map Int.toNat).prod

def IsStatic (shape : List ℤ) : Prop := ∀ dimension ∈ shape, 0 < dimension

/-- **A loaded session**: it has inputs and outputs, and every static shape is within its budget. -/
structure Loaded (session : OnnxSession σ F) : Prop where
  inputs : session.inputs ≠ []
  outputs : session.outputs ≠ []
  budget : 0 < session.maxTensorElements ∧ session.maxTensorElements ≤ 512 * 1024 * 1024
  inputsFit : ∀ descriptor ∈ session.inputs, IsStatic descriptor.shape →
    shapeElements descriptor.shape ≤ session.maxTensorElements
  outputsFit : ∀ descriptor ∈ session.outputs, IsStatic descriptor.shape →
    shapeElements descriptor.shape ≤ session.maxTensorElements

theorem checkedResourceMultiply_ok {left right maximum value : ℕ} {resource : String}
    (h : checkedResourceMultiply left right maximum resource = .ok value) :
    value = left * right ∧ value ≤ maximum := by
  simp only [checkedResourceMultiply, except_bind_eq_ok, require_eq_ok, decide_eq_true_eq] at h
  obtain ⟨-, -, -, hle, hvalue⟩ := h
  obtain rfl := Except.ok.inj hvalue
  exact ⟨rfl, hle⟩

theorem staticTensorElementsFrom_ok {maximum : ℕ} {resource : String} :
    ∀ {shape : List ℤ} {total elements : ℕ}, IsStatic shape → total ≤ maximum →
      staticTensorElementsFrom maximum resource total shape = .ok elements →
      elements = total * shapeElements shape ∧ elements ≤ maximum
  | [], total, elements, _, htotal, h => by
      obtain rfl := Except.ok.inj h
      exact ⟨(Nat.mul_one total).symm, htotal⟩
  | dimension :: shape, total, elements, hstatic, _, h => by
      obtain ⟨hpos, hstatic⟩ := List.forall_mem_cons.mp hstatic
      rw [staticTensorElementsFrom, if_neg (not_le.mpr hpos)] at h
      obtain ⟨total', hmultiply, h⟩ := except_bind_eq_ok.mp h
      obtain ⟨rfl, hle⟩ := checkedResourceMultiply_ok hmultiply
      obtain ⟨helements, hfits⟩ := staticTensorElementsFrom_ok hstatic hle h
      refine ⟨?_, hfits⟩
      rw [helements, shapeElements, shapeElements, List.map_cons, List.prod_cons, Nat.mul_assoc]

theorem fits_of_validateDescriptorBudget {descriptors : List TensorDescriptor} {maximum : ℕ}
    {direction : String} {u : Unit} (hpos : 0 < maximum)
    (h : validateDescriptorBudget descriptors maximum direction = .ok u)
    {descriptor : TensorDescriptor} (hdescriptor : descriptor ∈ descriptors)
    (hstatic : IsStatic descriptor.shape) : shapeElements descriptor.shape ≤ maximum := by
  obtain ⟨elements, helements, -⟩ := except_bind_eq_ok.mp
    (except_forM_eq_ok.mp h descriptor hdescriptor)
  obtain ⟨rfl, hle⟩ := staticTensorElementsFrom_ok hstatic hpos helements
  rwa [Nat.one_mul] at hle

/-- **What the constructor makes is loaded.** -/
theorem loaded_of_create {runtime : OnnxRuntime σ F} {environment : Bool} {path : Text}
    {config : OnnxSessionConfig} {session : OnnxSession σ F}
    (h : create runtime environment path config = .ok session) : session.Loaded := by
  unfold create at h
  split at h
  · cases h
  split at h
  · cases h
  · cases h
  simp only [except_bind_eq_ok, except_mapError_eq_ok] at h
  obtain ⟨_, hoptions, diagnostics, -, native, -, hinspect⟩ := h
  simp only [checkOptions, except_bind_eq_ok, require_eq_ok, Bool.not_eq_true',
    Bool.or_eq_false_iff, beq_eq_false_iff_ne, decide_eq_false_iff_not, not_lt] at hoptions
  obtain ⟨-, -, hne, hmaximum⟩ := hoptions
  have hpos := Nat.pos_of_ne_zero hne
  simp only [inspect, except_bind_eq_ok, require_eq_ok, Bool.not_eq_true',
    Bool.or_eq_false_iff] at hinspect
  obtain ⟨inputs, -, outputs, -, -, ⟨hinputs, houtputs⟩, _, hin, _, hout, hsession⟩ := hinspect
  obtain rfl := Except.ok.inj hsession
  exact ⟨List.isEmpty_eq_false_iff.mp hinputs, List.isEmpty_eq_false_iff.mp houtputs,
    ⟨hpos, hmaximum⟩, fun _ => fits_of_validateDescriptorBudget hpos hin,
    fun _ => fits_of_validateDescriptorBudget hpos hout⟩

/-- A value that fills a static input of the model needs no check. -/
theorem run_eq_runUnchecked {session : OnnxSession σ F} (h : session.Loaded)
    {descriptor : TensorDescriptor} (hdescriptor : descriptor ∈ session.inputs)
    (hstatic : IsStatic descriptor.shape) {value : OrtValue F} (htensor : value.isTensor = true)
    (helements : value.elementCount = shapeElements descriptor.shape) (inputName : Text)
    {outputNames : List Text} (houtputs : outputNames ≠ []) :
    session.run [inputName] [value] outputNames =
      session.runUnchecked [inputName] [value] outputNames := by
  have hbudget : validateRuntimeInputBudget [value] session.maxTensorElements = .ok () := by
    refine except_forM_eq_ok.mpr fun v hv => ?_
    obtain rfl := List.mem_singleton.mp hv
    rw [htensor, helements]
    exact require_eq_ok.mpr (by simp [h.inputsFit descriptor hdescriptor hstatic])
  unfold run
  rw [hbudget]
  cases outputNames with
  | nil => exact absurd rfl houtputs
  | cons name names => rfl

end OnnxSession

end FacLpr

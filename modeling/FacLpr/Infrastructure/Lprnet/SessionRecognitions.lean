import FacLpr.Infrastructure.Lprnet.LprNetOnnxContract
import FacLpr.Infrastructure.Lprnet.PublishedPlates

/-!
# Infrastructure/Lprnet/SessionRecognitions — recognitions over a loaded session

The recognizer around the adapter fills a tensor and hands it to the session.  When the input was
read off the session, with a batch of one, the session's checks of what goes in hold
(`recognize_eq_recognizeUnchecked`).
-/

namespace FacLpr

namespace LprNetOnnxContract

variable {σ F D : Type} [Scalar F] [Scalar D] [PixelArithmetic F D] [World σ]

/-- What a recognition works on: the world, and the workspace of the recognizer. -/
abbrev Worked (σ F : Type) := σ × NativeImageWorkspace F

variable (D) in
/-- The value `build_inputs` makes of an image, over the tensor of the workspace. -/
def inputValue (preprocessor : LprNetPreprocessor F) (allocation : Allocation)
    (image : ValidatedImage) : Run (Worked σ F) (OrtValue F) := do
  let tensor ← Program.onPart Prod.snd (fun workspace s => (s.1, workspace))
    (preprocessor.preprocessWith D image allocation)
  return ⟨true, true, dimensions tensor.shape, tensor.values.length, some tensor.values⟩

/-- A session of the runtime as the recognizer has it, with this `run`. -/
def named (session : OnnxSession σ F)
    (run : List Text → List (OrtValue F) → List Text → Run σ (List (OrtValue F))) :
    OnnxInferenceSession (Worked σ F) F where
  inputs := session.inputs.map TensorDescriptor.name
  outputs := session.outputs.map TensorDescriptor.name
  run inputNames values outputNames := Program.onFst (run inputNames values outputNames)

omit [World σ] in
theorem returns_inputValue (preprocessor : LprNetPreprocessor F) (allocation : Allocation)
    (image : ValidatedImage) :
    Program.Returns (inputValue D preprocessor allocation image : Run (Worked σ F) _) fun value =>
      value.isTensor = true ∧ value.elementCount = preprocessor.tensorElements := by
  refine Program.Returns.bind (P := fun tensor =>
    tensor.values.length = preprocessor.tensorElements) (Program.Returns.onPart ?_)
    fun tensor h => Program.returns_pure ⟨rfl, h⟩
  refine (Program.returns_self _).bind fun _ _ => ?_
  refine (Program.returns_self _).bind fun workspace _ => ?_
  refine Program.Returns.bind (P := fun values =>
    values.length = preprocessor.tensorElements) (returns_runOfExcept fun values h => ?_)
    fun values h => (Program.returns_self _).bind fun _ _ => Program.returns_pure h
  simp only [LprNetPreprocessor.preprocessInto, except_bind_eq_ok, require_eq_ok,
    decide_eq_true_eq] at h
  obtain ⟨-, hlength, hvalues⟩ := h
  obtain rfl := Except.ok.inj hvalues
  rw [length_storeAll, hlength]

variable {W : Type} [Scalar W] [CtcArithmetic F W]

variable (D W) in
/-- The recognizer around an adapter and its preprocessor, over a session with this `run`. -/
def recognizer (session : OnnxSession σ F)
    (run : List Text → List (OrtValue F) → List Text → Run σ (List (OrtValue F)))
    (adapter : LprNetOnnxOcrAdapter F) (preprocessor : LprNetPreprocessor F)
    (allocation : Allocation)
    (accepted : GenericOnnxOcrRecognizer.validateContract (named session run)
      (adapter.modelAdapter (D := D) W (inputValue D preprocessor allocation)) = .ok ()) :
    GenericOnnxOcrRecognizer (Worked σ F) F D where
  session := named session run
  adapter := adapter.modelAdapter W (inputValue D preprocessor allocation)
  accepted := accepted

/-- **A recognition over a loaded session needs no check of what goes in**, whatever the plate and
the outputs, when its input was read off the session with a batch of one. -/
theorem recognize_eq_recognizeUnchecked {runtime : OnnxRuntime σ F} {path : Text}
    {config : OnnxSessionConfig} {session : OnnxSession σ F}
    (hcreate : OnnxSession.create runtime true path config = .ok session)
    (hbatch : ∀ input ∈ session.inputs, input.shape.head? = some 1)
    {semantics : LprNetPreprocessSemantics F} {inputName : Text}
    {preprocessor : LprNetPreprocessor F}
    (hspec : inspectLprNetInputSpec session.inputs semantics inputName = .ok preprocessor.spec)
    (adapter : LprNetOnnxOcrAdapter F) (allocation : Allocation)
    (accepted : GenericOnnxOcrRecognizer.validateContract (named session session.run)
      (adapter.modelAdapter (D := D) W (inputValue D preprocessor allocation)) = .ok ())
    (plate : ImageView) (context : OperationContext) :
    (recognizer D W session session.run adapter preprocessor allocation accepted).recognize
        plate context =
      (recognizer D W session session.runUnchecked adapter preprocessor allocation
        accepted).recognize plate context := by
  have hloaded := OnnxSession.loaded_of_create hcreate
  obtain ⟨input, hinput, hread, hshape, -⟩ := exists_input hloaded hbatch hspec
  have helements : preprocessor.tensorElements = OnnxSession.shapeElements input.shape := by
    rw [hshape, shapeElements_shapeOf, preprocessor.spec_bounds.2.2.2]
  unfold GenericOnnxOcrRecognizer.recognize
  refine bind_congr fun _ => bind_congr fun validated => bind_congr fun _ => bind_congr fun _ => ?_
  refine Program.Returns.bind_congr (P := fun values => ∃ value : OrtValue F, values = [value] ∧
    value.isTensor = true ∧ value.elementCount = preprocessor.tensorElements) ?_ ?_
  · refine (Program.returns_self _).bind fun _ _ => ?_
    exact (returns_inputValue preprocessor allocation validated).bind fun value hvalue =>
      Program.returns_pure ⟨value, rfl, hvalue⟩
  · rintro _ ⟨value, rfl, htensor, hcount⟩
    have hrun := OnnxSession.run_eq_runUnchecked hloaded hinput.mem (hshape ▸ hread.isStatic)
      htensor (hcount.trans helements) adapter.config.inputName
      (List.cons_ne_nil adapter.config.outputName [])
    simp only [recognizer, named, LprNetOnnxOcrAdapter.modelAdapter, hrun]
    rfl

section OneHot

attribute [local instance] ConstrainedCtcBeamSearch.oneHotArithmetic

def platePreprocessor : LprNetPreprocessor ℚ :=
  ⟨plateSpec, 24, (1, 3, 2, 4), by decide +kernel, by decide +kernel⟩

theorem accepted_plateSession :
    GenericOnnxOcrRecognizer.validateContract (named plateSession plateSession.run)
      (oneHotAdapter.modelAdapter (D := ℚ) ℚ≥0
        (inputValue ℚ platePreprocessor (.granted 24))) = .ok () := by
  decide +kernel

theorem recognize_eq_recognizeUnchecked_plateSession :
    (recognizer ℚ ℚ≥0 plateSession plateSession.run oneHotAdapter platePreprocessor (.granted 24)
        accepted_plateSession).recognize ⟨[7], 1, 1, 1, .gray8⟩ ⟨none⟩ =
      (recognizer ℚ ℚ≥0 plateSession plateSession.runUnchecked oneHotAdapter platePreprocessor
        (.granted 24) accepted_plateSession).recognize ⟨[7], 1, 1, 1, .gray8⟩ ⟨none⟩ :=
  recognize_eq_recognizeUnchecked create_plateSession (by decide)
    inspectLprNetInputSpec_plateSession oneHotAdapter (.granted 24) accepted_plateSession _ _

end OneHot

end LprNetOnnxContract

end FacLpr

import FacLpr.Infrastructure.Lprnet.LprNetOnnxOcrAdapter
import FacLpr.Infrastructure.Lprnet.LprNetPreprocessor
import FacLpr.Infrastructure.Onnx.OnnxSession

/-!
# Infrastructure/Lprnet/LprNetOnnxContract — the input of the recognizer, as its model has it

The layout and the extents of the input are read off the shape of the model's input.  Of a loaded
session with a batch of one, what is read is an input the preprocessor takes and its tensor is of
the model's shape (`exists_preprocessor`).
-/

namespace FacLpr

/-- How pixels become inputs, which the model does not say. -/
structure LprNetPreprocessSemantics (F : Type) [Scalar F] where
  colorOrder : InputColorOrder := .gray
  inputScale : F := 0
  mean : Fin 3 → F := fun _ => 0
  standardDeviation : Fin 3 → F := fun _ => 0

namespace LprNetOnnxContract

variable {σ F D : Type} [Scalar F]

/-- `is_channel_dimension`. -/
def isChannelDimension (value : ℤ) : Bool := value == 1 || value == 3

/-- `checked_dimension`. -/
def checkedDimension (value : ℤ) (name : String) : Except EngineError ℕ := do
  require (decide (0 < value))
    (modelLoadError ("LPRNet input " ++ name ++ " must be a fixed positive dimension"))
  return value.toNat

/-- `validate_semantics`. -/
def validateSemantics (semantics : LprNetPreprocessSemantics F) (channels : ℕ) :
    Except EngineError Unit := do
  require (Scalar.isFinite semantics.inputScale && !decide (semantics.inputScale ≤ 0))
    (configurationError "LPRNet preprocess input_scale must be finite and greater than zero")
  (List.finRange 3).forM fun index => do
    require (Scalar.isFinite (semantics.mean index))
      (configurationError "LPRNet preprocess mean values must be finite")
    require (Scalar.isFinite (semantics.standardDeviation index) &&
        !decide (semantics.standardDeviation index ≤ 0))
      (configurationError
        "LPRNet preprocess standard deviation values must be finite and positive")
  require (!(channels == 1 && semantics.colorOrder != .gray))
    (configurationError "single-channel LPRNet input requires gray preprocessing semantics")
  require (!(channels == 3 && semantics.colorOrder == .gray))
    (configurationError
      "three-channel LPRNet input requires RGB or BGR preprocessing semantics")

/-- The layout and the extents of an input of rank four. -/
def extents (first second third : ℤ) : Except EngineError (TensorLayout × ℕ × ℕ × ℕ) :=
  if isChannelDimension first = isChannelDimension third then
    .error (modelLoadError
      "LPRNet input layout is ambiguous or has unsupported channel dimensions")
  else if isChannelDimension first then do
    let channels ← checkedDimension first "channels"
    let height ← checkedDimension second "height"
    let width ← checkedDimension third "width"
    return (.nchw, channels, height, width)
  else do
    let height ← checkedDimension first "height"
    let width ← checkedDimension second "width"
    let channels ← checkedDimension third "channels"
    return (.nhwc, channels, height, width)

/-- `make_lprnet_input_spec`. -/
def makeLprNetInputSpec (input : TensorDescriptor) (semantics : LprNetPreprocessSemantics F) :
    Except EngineError (LprNetInputSpec F) := do
  require (input.elementType == .float)
    (modelLoadError "LPRNet input tensor must use float32 elements")
  match input.shape with
  | [batch, first, second, third] => do
      require (batch == 1 || batch == -1)
        (modelLoadError "LPRNet input batch dimension must be 1 or dynamic")
      let (layout, channels, height, width) ← extents first second third
      validateSemantics semantics channels
      return {
        width, height, channels, layout
        colorOrder := semantics.colorOrder
        elementType := .float32
        inputScale := semantics.inputScale
        mean := semantics.mean
        standardDeviation := semantics.standardDeviation }
  | _ => .error (modelLoadError "LPRNet input tensor must be rank 4")

/-- `inspect_lprnet_input_spec`. -/
def inspectLprNetInputSpec (inputs : List TensorDescriptor)
    (semantics : LprNetPreprocessSemantics F) (inputName : Text) :
    Except EngineError (LprNetInputSpec F) :=
  match inputs with
  | [] => .error (modelLoadError "LPRNet model has no input tensors")
  | input :: rest =>
      if inputName.isEmpty then
        if rest.isEmpty then makeLprNetInputSpec input semantics
        else .error (modelLoadError
          "LPRNet model has multiple inputs; an explicit input name is required")
      else
        match inputs.find? fun input => input.name == inputName with
        | none => .error (modelLoadError
            "configured LPRNet input name was not found in model metadata")
        | some input => makeLprNetInputSpec input semantics

/-! ## What is read of a shape -/

/-- The dimensions of a tensor's shape. -/
def dimensions (shape : ℤ × ℤ × ℤ × ℤ) : List ℤ := [shape.1, shape.2.1, shape.2.2.1, shape.2.2.2]

/-- The shape of an input, in its layout. -/
def shapeOf (batch : ℤ) (spec : LprNetInputSpec F) : List ℤ :=
  match spec.layout with
  | .nchw => [batch, spec.channels, spec.height, spec.width]
  | .nhwc => [batch, spec.height, spec.width, spec.channels]

/-- **What a model's input is read as**: an input of the model's shape, with one channel or three,
and normalized by finite values. -/
structure ReadAs (input : TensorDescriptor) (spec : LprNetInputSpec F) : Prop where
  shape : ∃ batch, (batch = 1 ∨ batch = -1) ∧ input.shape = shapeOf batch spec
  extents : 0 < spec.width ∧ 0 < spec.height
  channels : spec.channels = 1 ∧ spec.colorOrder = .gray ∨
    spec.channels = 3 ∧ spec.colorOrder ≠ .gray
  inputScale : Scalar.isFinite spec.inputScale = true ∧ ¬ spec.inputScale ≤ 0
  normalization : ∀ channel, Scalar.isFinite (spec.mean channel) = true ∧
    Scalar.isFinite (spec.standardDeviation channel) = true ∧ ¬ spec.standardDeviation channel ≤ 0

/-- The input that is meant: the only one when no name is given, else the first of the name. -/
def Selects (inputs : List TensorDescriptor) (inputName : Text) (input : TensorDescriptor) : Prop :=
  (inputName = [] ∧ inputs = [input]) ∨
    (inputName ≠ [] ∧ (inputs.find? fun input => input.name == inputName) = some input)

theorem Selects.mem {inputs : List TensorDescriptor} {inputName : Text} {input : TensorDescriptor}
    (h : Selects inputs inputName input) : input ∈ inputs := by
  rcases h with ⟨-, rfl⟩ | ⟨-, hfind⟩
  · exact List.mem_singleton_self input
  · exact List.mem_of_find?_eq_some hfind

/-- A dimension that is read is positive. -/
theorem checkedDimension_ok {value : ℤ} {name : String} {dimension : ℕ}
    (h : checkedDimension value name = .ok dimension) : 0 < dimension ∧ value = dimension := by
  simp only [checkedDimension, except_bind_eq_ok, require_eq_ok, decide_eq_true_eq] at h
  obtain ⟨-, hpos, hvalue⟩ := h
  obtain rfl := Except.ok.inj hvalue
  omega

theorem isChannelDimension_natCast {n : ℕ} : isChannelDimension n = true ↔ n = 1 ∨ n = 3 := by
  simp only [isChannelDimension, Bool.or_eq_true, beq_iff_eq]
  omega

/-- The extents are those of the shape, in its layout. -/
theorem extents_ok {first second third : ℤ} {layout : TensorLayout} {channels height width : ℕ}
    (h : extents first second third = .ok (layout, channels, height, width)) :
    [first, second, third] =
        (match layout with
        | .nchw => [(channels : ℤ), (height : ℤ), (width : ℤ)]
        | .nhwc => [(height : ℤ), (width : ℤ), (channels : ℤ)]) ∧
      0 < width ∧ 0 < height ∧ (channels = 1 ∨ channels = 3) := by
  unfold extents at h
  split at h
  · cases h
  rename_i hdiffer
  split at h
  · rename_i hfirst
    simp only [except_bind_eq_ok] at h
    obtain ⟨c, hc, y, hy, x, hx, hresult⟩ := h
    obtain ⟨rfl, rfl, rfl, rfl⟩ := by simpa only [Prod.mk.injEq] using Except.ok.inj hresult
    obtain ⟨-, rfl⟩ := checkedDimension_ok hc
    obtain ⟨hheight, rfl⟩ := checkedDimension_ok hy
    obtain ⟨hwidth, rfl⟩ := checkedDimension_ok hx
    exact ⟨rfl, hwidth, hheight, isChannelDimension_natCast.mp hfirst⟩
  · rename_i hfirst
    have hthird : isChannelDimension third = true := by
      rw [Bool.not_eq_true] at hfirst
      rw [hfirst] at hdiffer
      simpa using hdiffer
    simp only [except_bind_eq_ok] at h
    obtain ⟨y, hy, x, hx, c, hc, hresult⟩ := h
    obtain ⟨rfl, rfl, rfl, rfl⟩ := by simpa only [Prod.mk.injEq] using Except.ok.inj hresult
    obtain ⟨-, rfl⟩ := checkedDimension_ok hc
    obtain ⟨hheight, rfl⟩ := checkedDimension_ok hy
    obtain ⟨hwidth, rfl⟩ := checkedDimension_ok hx
    exact ⟨rfl, hwidth, hheight, isChannelDimension_natCast.mp hthird⟩

/-- What is made of an input is read off it. -/
theorem readAs_of_makeLprNetInputSpec {input : TensorDescriptor}
    {semantics : LprNetPreprocessSemantics F} {spec : LprNetInputSpec F}
    (h : makeLprNetInputSpec input semantics = .ok spec) : ReadAs input spec := by
  obtain ⟨-, -, h⟩ := except_bind_eq_ok.mp h
  split at h
  · rename_i batch first second third hshape
    simp only [except_bind_eq_ok, require_eq_ok, Bool.or_eq_true, beq_iff_eq] at h
    obtain ⟨-, hbatch, ⟨layout, channels, height, width⟩, hextents, u, hsemantics, hspec⟩ := h
    obtain rfl := Except.ok.inj hspec
    obtain ⟨hlist, hwidth, hheight, hchannels⟩ := extents_ok hextents
    simp only [validateSemantics, except_bind_eq_ok, require_eq_ok, Bool.and_eq_true,
      Bool.not_eq_true', decide_eq_false_iff_not] at hsemantics
    obtain ⟨-, hscale, v, hnormal, -, hgray, hcolor⟩ := hsemantics
    refine ⟨⟨batch, hbatch, ?_⟩, ⟨hwidth, hheight⟩, ?_, hscale, fun channel => ?_⟩
    · rw [hshape, hlist]
      cases layout <;> rfl
    · simp only [Bool.and_eq_false_iff, beq_eq_false_iff_ne, bne_eq_false_iff_eq] at hgray hcolor
      rcases hchannels with rfl | rfl
      · exact Or.inl ⟨rfl, hgray.resolve_left fun hne => hne rfl⟩
      · exact Or.inr ⟨rfl, hcolor.resolve_left fun hne => hne rfl⟩
    · have hone := except_forM_eq_ok.mp hnormal channel (List.mem_finRange channel)
      simp only [except_bind_eq_ok, require_eq_ok, Bool.and_eq_true, Bool.not_eq_true',
        decide_eq_false_iff_not] at hone
      obtain ⟨-, hmean, hdeviation⟩ := hone
      exact ⟨hmean, hdeviation⟩
  · cases h

/-- What is read is read off the input that is meant. -/
theorem exists_readAs {inputs : List TensorDescriptor} {semantics : LprNetPreprocessSemantics F}
    {inputName : Text} {spec : LprNetInputSpec F}
    (h : inspectLprNetInputSpec inputs semantics inputName = .ok spec) :
    ∃ input, Selects inputs inputName input ∧ ReadAs input spec := by
  unfold inspectLprNetInputSpec at h
  split at h
  · cases h
  rename_i input rest
  split at h
  · rename_i hname
    split at h
    · rename_i hrest
      rw [List.isEmpty_iff] at hname hrest
      exact ⟨input, Or.inl ⟨hname, by rw [hrest]⟩, readAs_of_makeLprNetInputSpec h⟩
    · cases h
  · rename_i hname
    rw [List.isEmpty_iff] at hname
    split at h
    · cases h
    · rename_i named hfind
      exact ⟨named, Or.inr ⟨hname, hfind⟩, readAs_of_makeLprNetInputSpec h⟩

/-! ## What the preprocessor takes -/

theorem shapeElements_shapeOf (spec : LprNetInputSpec F) :
    OnnxSession.shapeElements (shapeOf 1 spec) = spec.width * spec.height * spec.channels := by
  unfold shapeOf
  cases spec.layout with
  | nchw =>
    change 1 * (spec.channels * (spec.height * (spec.width * 1))) = _
    ring
  | nhwc =>
    change 1 * (spec.height * (spec.width * (spec.channels * 1))) = _
    ring

theorem ReadAs.isStatic {input : TensorDescriptor} {spec : LprNetInputSpec F}
    (h : ReadAs input spec) : OnnxSession.IsStatic (shapeOf 1 spec) := by
  have hwidth : (0 : ℤ) < spec.width := by exact_mod_cast h.extents.1
  have hheight : (0 : ℤ) < spec.height := by exact_mod_cast h.extents.2
  have hchannels : (0 : ℤ) < spec.channels := by
    rcases h.channels with ⟨hone, -⟩ | ⟨hthree, -⟩ <;> omega
  unfold OnnxSession.IsStatic shapeOf
  cases spec.layout <;>
    simp only [List.forall_mem_cons, List.not_mem_nil, false_imp_iff, implies_true, and_true] <;>
    omega

/-- An input whose elements a size counts passes the checks of the preprocessor. -/
theorem ReadAs.checkedTensorSize {input : TensorDescriptor} {spec : LprNetInputSpec F}
    (h : ReadAs input spec) (hfits : spec.width * spec.height * spec.channels ≤ sizeMax) :
    spec.checkedTensorSize = .ok (spec.width * spec.height * spec.channels) := by
  obtain ⟨hwidth, hheight⟩ := h.extents
  have hchannels : spec.channels = 1 ∧ spec.colorOrder = .gray ∨
    spec.channels = 3 ∧ spec.colorOrder ≠ .gray := h.channels
  have hpositive : 0 < spec.channels := by rcases hchannels with ⟨hc, -⟩ | ⟨hc, -⟩ <;> omega
  have hpixels : spec.width * spec.height ≤ sizeMax :=
    (Nat.le_mul_of_pos_right _ hpositive).trans hfits
  simp only [LprNetInputSpec.checkedTensorSize, except_bind_eq_ok, require_eq_ok,
    decide_eq_true_eq, Bool.and_eq_true, Bool.not_eq_true', decide_eq_false_iff_not]
  refine ⟨(), ⟨hwidth.ne', hheight.ne', hchannels.imp And.left And.left⟩, (), ?_, (), ?_, (),
    h.inputScale, (), except_forM_eq_ok.mpr fun channel _ => require_eq_ok.mpr ?_, (),
    (Nat.le_div_iff_mul_le hheight).mpr hpixels, (),
    (Nat.le_div_iff_mul_le hpositive).mpr hfits, rfl⟩
  · rcases hchannels with ⟨hc, hgray⟩ | ⟨hc, hcolor⟩
    · simp [hc, hgray]
    · simp [hc, hcolor]
  · cases spec.elementType
    trivial
  · have hnormal := h.normalization (Fin.ofNat 3 channel)
    rw [hnormal.1, hnormal.2.1, decide_eq_false hnormal.2.2]
    rfl

/-- The shape of the tensor is made, where its extents are of 63 bits. -/
theorem makeShape_ok {spec : LprNetInputSpec F} (hwidth : spec.width ≤ 2 ^ 63 - 1)
    (hheight : spec.height ≤ 2 ^ 63 - 1) (hchannels : spec.channels ≤ 2 ^ 63 - 1) :
    ∃ shape, spec.makeShape = .ok shape ∧ dimensions shape = shapeOf 1 spec := by
  have hdimension {value : ℕ} (hvalue : value ≤ 2 ^ 63 - 1) (name : String) :
      LprNetInputSpec.toInt64 value name = .ok (value : ℤ) := by
    rw [LprNetInputSpec.toInt64, require, if_pos (decide_eq_true hvalue)]
    rfl
  unfold LprNetInputSpec.makeShape shapeOf
  cases spec.layout with
  | nchw => exact ⟨_, by rw [hdimension hchannels, hdimension hheight, hdimension hwidth]; rfl, rfl⟩
  | nhwc => exact ⟨_, by rw [hdimension hheight, hdimension hwidth, hdimension hchannels]; rfl, rfl⟩

/-- The input that is read off a loaded session with a batch of one is within its budget. -/
theorem exists_input {session : OnnxSession σ F} (hloaded : session.Loaded)
    (hbatch : ∀ input ∈ session.inputs, input.shape.head? = some 1)
    {semantics : LprNetPreprocessSemantics F} {inputName : Text} {spec : LprNetInputSpec F}
    (hspec : inspectLprNetInputSpec session.inputs semantics inputName = .ok spec) :
    ∃ input, Selects session.inputs inputName input ∧ ReadAs input spec ∧
      input.shape = shapeOf 1 spec ∧
      spec.width * spec.height * spec.channels ≤ session.maxTensorElements := by
  obtain ⟨input, hinput, hread⟩ := exists_readAs hspec
  obtain ⟨batch, -, hshape⟩ := hread.shape
  obtain rfl : batch = 1 := by
    have hhead := hbatch input hinput.mem
    rw [hshape, shapeOf] at hhead
    cases hlayout : spec.layout <;> rw [hlayout] at hhead <;> exact Option.some.inj hhead
  have hfits := hloaded.inputsFit input hinput.mem (hshape ▸ hread.isStatic)
  rw [hshape, shapeElements_shapeOf] at hfits
  exact ⟨input, hinput, hread, hshape, hfits⟩

/-- **The input that is read off a loaded session with a batch of one is one the preprocessor's
constructor takes**, its tensor has the shape of the input that is meant, and is within the
session's budget. -/
theorem exists_preprocessor {runtime : OnnxRuntime σ F} {path : Text} {config : OnnxSessionConfig}
    {session : OnnxSession σ F}
    (hcreate : OnnxSession.create runtime true path config = .ok session)
    (hbatch : ∀ input ∈ session.inputs, input.shape.head? = some 1)
    {semantics : LprNetPreprocessSemantics F} {inputName : Text} {spec : LprNetInputSpec F}
    (hspec : inspectLprNetInputSpec session.inputs semantics inputName = .ok spec) :
    ∃ preprocessor : LprNetPreprocessor F, preprocessor.spec = spec ∧
      preprocessor.tensorElements ≤ session.maxTensorElements ∧
      ∃ input ∈ session.inputs, Selects session.inputs inputName input ∧
        dimensions preprocessor.tensorShape = input.shape ∧
        preprocessor.tensorElements = OnnxSession.shapeElements input.shape := by
  have hloaded := OnnxSession.loaded_of_create hcreate
  obtain ⟨input, hinput, hread, hshape, hfits⟩ := exists_input hloaded hbatch hspec
  obtain ⟨hwidth, hheight⟩ := hread.extents
  have hchannels : 0 < spec.channels := by
    rcases hread.channels with ⟨hc, -⟩ | ⟨hc, -⟩ <;> omega
  have hpixels : spec.width * spec.height ≤ session.maxTensorElements :=
    (Nat.le_mul_of_pos_right _ hchannels).trans hfits
  have hbudget := hloaded.budget.2
  have hwidthFits := (Nat.le_mul_of_pos_right spec.width hheight).trans hpixels
  have hheightFits := (Nat.le_mul_of_pos_left spec.height hwidth).trans hpixels
  have hchannelsFit := (Nat.le_mul_of_pos_left spec.channels
    (Nat.mul_pos hwidth hheight)).trans hfits
  obtain ⟨shape, hmake, hdimensions⟩ := @makeShape_ok F _ spec (by omega) (by omega) (by omega)
  refine ⟨⟨spec, _, shape, hread.checkedTensorSize ?_, hmake⟩, rfl, hfits, input, hinput.mem,
    hinput, ?_, ?_⟩
  · unfold sizeMax
    omega
  · exact hdimensions.trans hshape.symm
  · rw [hshape, shapeElements_shapeOf]

/-- A model of an input of four by two pixels, channels first. -/
def plateModel : OrtSession Frozen ℚ where
  inputs := [⟨ascii "input", true, .float, [1, 3, 2, 4]⟩]
  outputs := [⟨ascii "output", true, .float, [1, 11, 3]⟩]
  run _ _ _ := pure [⟨true, true, [1, 11, 3], 33, some (List.replicate 33 0)⟩]

def plateRuntime : OnnxRuntime Frozen ℚ where
  api := ⟨.ok [ascii "CPUExecutionProvider"], fun _ _ => none⟩
  isRegularFile _ := some true
  absolute _ := none
  openModel _ _ := .ok plateModel

def plateSession : OnnxSession Frozen ℚ where
  native := plateModel
  inputs := [⟨ascii "input", .float, [1, 3, 2, 4]⟩]
  outputs := [⟨ascii "output", .float, [1, 11, 3]⟩]
  executionProviderDiagnostics := ⟨.cpu, .cpu, false, [ascii "CPUExecutionProvider"]⟩
  maxTensorElements := 64 * 1024 * 1024

theorem create_plateSession :
    OnnxSession.create plateRuntime true (ascii "plate.onnx") {} = .ok plateSession := rfl

def plateSemantics : LprNetPreprocessSemantics ℚ where
  colorOrder := .bgr
  inputScale := 1 / 128
  mean _ := 1
  standardDeviation _ := 1

def plateSpec : LprNetInputSpec ℚ where
  width := 4
  height := 2
  channels := 3
  colorOrder := .bgr
  inputScale := 1 / 128
  mean _ := 1

theorem inspectLprNetInputSpec_plateSession :
    inspectLprNetInputSpec plateSession.inputs plateSemantics [] = .ok plateSpec := by
  have hsemantics : validateSemantics plateSemantics 3 = .ok () := by decide +kernel
  change (do validateSemantics plateSemantics 3; .ok plateSpec) = _
  rw [hsemantics]
  rfl

theorem exists_preprocessor_plateSession :
    ∃ preprocessor : LprNetPreprocessor ℚ, preprocessor.spec = plateSpec ∧
      preprocessor.tensorElements ≤ 64 * 1024 * 1024 ∧
      ∃ input ∈ plateSession.inputs, Selects plateSession.inputs [] input ∧
        dimensions preprocessor.tensorShape = input.shape ∧
        preprocessor.tensorElements = OnnxSession.shapeElements input.shape :=
  exists_preprocessor create_plateSession (by decide) inspectLprNetInputSpec_plateSession

end LprNetOnnxContract

end FacLpr

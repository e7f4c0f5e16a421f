import FacLpr.Application.Image
import FacLpr.Application.OperationContext

/-!
# Infrastructure/NativeImageWorkspace — buffers kept from one image to the next

A workspace keeps a tensor and a scratch image.  Preparing one of them changes its length and keeps
what it held; the memory a vector has once grown to is never given back.
-/

namespace FacLpr

structure NativeImageWorkspaceConfig where
  maxTensorElements : ℕ := 16 * 1024 * 1024
  maxScratchBytes : ℕ := 128 * 1024 * 1024

/-- The checks of the constructor of a workspace. -/
def NativeImageWorkspaceConfig.check (config : NativeImageWorkspaceConfig) :
    Except EngineError Unit :=
  require (config.maxTensorElements ≠ 0 ∧ config.maxScratchBytes ≠ 0)
    (configurationError "native image workspace limits must be greater than zero")

/-- What a vector that has to grow gets: memory for so many elements, or an exception. -/
inductive Allocation where
  | granted (capacity : ℕ)
  | badAlloc
  | lengthError

/-- `NativeImageWorkspace`, a vector with its capacity. -/
structure NativeImageWorkspace (F : Type) where
  config : NativeImageWorkspaceConfig
  tensor : List F
  tensorCapacity : ℕ
  scratch : List Byte
  scratchCapacity : ℕ
  tensorGrowthCount : ℕ
  scratchGrowthCount : ℕ

/-- `std::vector::resize`: what is kept is left alone. -/
def resize {α : Type} (values : List α) (size : ℕ) (fill : α) : List α :=
  values.take size ++ List.replicate (size - values.length) fill

@[simp] theorem length_resize {α : Type} (values : List α) (size : ℕ) (fill : α) :
    (resize values size fill).length = size := by
  unfold resize
  rw [List.length_append, List.length_take, List.length_replicate]
  omega

/-- The capacity after a `resize`, or what it throws. -/
def grow (capacity size : ℕ) (allocation : Allocation) (badAlloc lengthError : String) :
    Except EngineError ℕ :=
  if size ≤ capacity then .ok capacity
  else
    match allocation with
    | .granted granted => .ok (max size granted)
    | .badAlloc => .error (resourceExhaustedError badAlloc)
    | .lengthError => .error (resourceExhaustedError lengthError)

namespace NativeImageWorkspace

variable {F : Type}

/-- A new workspace. -/
def fresh (config : NativeImageWorkspaceConfig) : NativeImageWorkspace F :=
  ⟨config, [], 0, [], 0, 0, 0⟩

/-- The capacity of the tensor after it is prepared, or what `prepare_tensor` throws when there is
no memory for it. -/
def growTensor (workspace : NativeImageWorkspace F) (elements : ℕ) (allocation : Allocation) :
    Except EngineError ℕ :=
  grow workspace.tensorCapacity elements allocation "cannot allocate native tensor workspace"
    "native tensor workspace exceeds vector limits"

/-- The tensor at another length. -/
def resizeTensor [Zero F] (workspace : NativeImageWorkspace F) (elements capacity : ℕ) :
    NativeImageWorkspace F :=
  { workspace with
    tensor := resize workspace.tensor elements 0
    tensorCapacity := capacity
    tensorGrowthCount := workspace.tensorGrowthCount +
      if workspace.tensorCapacity < capacity then 1 else 0 }

/-- `prepare_tensor`; the span it returns is the tensor of the workspace. -/
def prepareTensor [Zero F] (elements : ℕ) (allocation : Allocation) :
    Run (NativeImageWorkspace F) Unit := do
  let workspace ← get
  Run.ofExcept (require (elements ≤ workspace.config.maxTensorElements)
    (resourceExhaustedError "native tensor workspace exceeds configured limit"))
  let capacity ← Run.ofExcept (workspace.growTensor elements allocation)
  set (workspace.resizeTensor elements capacity)

/-- `prepare_image`; the view it returns is over the scratch of the workspace. -/
def prepareImage (width height : ℕ) (format : PixelFormat) (allocation : Allocation) :
    Run (NativeImageWorkspace F) Unit := do
  let workspace ← get
  Run.ofExcept (require (width ≠ 0 ∧ height ≠ 0)
    (invalidImageError "workspace image dimensions must be non-zero"))
  let stride ← Run.ofExcept
    (checkedMultiply width (pixelFormatChannels format) "workspace image stride")
  let required ← Run.ofExcept (checkedMultiply stride height "workspace image bytes")
  Run.ofExcept (require (required ≤ workspace.config.maxScratchBytes)
    (resourceExhaustedError "native image workspace exceeds configured scratch limit"))
  let capacity ← Run.ofExcept (grow workspace.scratchCapacity required allocation
    "cannot allocate native image workspace" "native image workspace exceeds vector limits")
  set { workspace with
    scratch := resize workspace.scratch required 0
    scratchCapacity := capacity
    scratchGrowthCount := workspace.scratchGrowthCount +
      if workspace.scratchCapacity < capacity then 1 else 0 }

/-- The tensor after stores through the span. -/
def writeTensor (workspace : NativeImageWorkspace F) (values : List F) : NativeImageWorkspace F :=
  { workspace with tensor := values }

/-- The scratch after stores through the view. -/
def writeScratch (workspace : NativeImageWorkspace F) (bytes : List Byte) :
    NativeImageWorkspace F :=
  { workspace with scratch := bytes }

/-! ## What a use keeps -/

/-- The workspace has this configuration. -/
def Configured (config : NativeImageWorkspaceConfig) (workspace : NativeImageWorkspace F) : Prop :=
  workspace.config = config

variable {config : NativeImageWorkspaceConfig}

theorem maintains_prepareTensor [Zero F] (elements : ℕ) (allocation : Allocation) :
    Program.Maintains (Configured config)
      (prepareTensor elements allocation : Run (NativeImageWorkspace F) Unit) fun _ => True :=
  Program.maintains_get.bind fun _ hworkspace =>
    (Program.maintains_ofExcept _).bind fun _ _ =>
      (Program.maintains_ofExcept _).bind fun _ _ => Program.maintains_set hworkspace

theorem maintains_prepareImage (width height : ℕ) (format : PixelFormat)
    (allocation : Allocation) :
    Program.Maintains (Configured config)
      (prepareImage width height format allocation : Run (NativeImageWorkspace F) Unit)
      fun _ => True :=
  Program.maintains_get.bind fun _ hworkspace =>
    (Program.maintains_ofExcept _).bind fun _ _ =>
      (Program.maintains_ofExcept _).bind fun _ _ =>
        (Program.maintains_ofExcept _).bind fun _ _ =>
          (Program.maintains_ofExcept _).bind fun _ _ =>
            (Program.maintains_ofExcept _).bind fun _ _ => Program.maintains_set hworkspace

/-- A tensor within the limit is prepared whenever there is memory for it. -/
theorem prepareTensor_run [Zero F] {workspace : NativeImageWorkspace F} {elements : ℕ}
    (hlimit : elements ≤ workspace.config.maxTensorElements) (allocation : Allocation) :
    prepareTensor elements allocation workspace =
      match workspace.growTensor elements allocation with
      | .ok capacity => .ok () (workspace.resizeTensor elements capacity)
      | .error e => .error (.engine e) workspace := by
  have hrequire : require (elements ≤ workspace.config.maxTensorElements)
      (resourceExhaustedError "native tensor workspace exceeds configured limit") = .ok () :=
    require_eq_ok.mpr (decide_eq_true hlimit)
  unfold prepareTensor
  rw [Program.bind_run_ok (Program.get_run workspace), hrequire]
  cases hgrow : workspace.growTensor elements allocation with
  | ok capacity => rfl
  | error e => rfl

end NativeImageWorkspace

end FacLpr

import FacLpr.Infrastructure.Lprnet.LprNetPreprocessor
import FacLpr.Infrastructure.Yolo.YoloPosePreprocessor

/-!
# Infrastructure/WorkspaceReuse — a used workspace is as good as a fresh vector

After any uses of a workspace, failed ones included, its tensor holds anything at all; preprocessing
into it gives what preprocessing into a fresh vector gives, because the detector's tensor is filled
first and the recognizer's stores cover it.
-/

namespace FacLpr

open Program NativeImageWorkspace

variable {F D : Type} [Scalar F] [Scalar D] [ImageArithmetic F D]

/-- A use of a workspace. -/
inductive WorkspaceUse (F : Type) [Scalar F] where
  | yolo (preprocessor : YoloPosePreprocessor F) (image : ValidatedImage) (allocation : Allocation)
  | lprnet (preprocessor : LprNetPreprocessor F) (image : ValidatedImage) (allocation : Allocation)
  | prepareTensor (elements : ℕ) (allocation : Allocation)
  | prepareImage (width height : ℕ) (format : PixelFormat) (allocation : Allocation)
  | storeTensor (index : ℕ) (value : F)
  | storeScratch (index : ℕ) (value : Byte)

variable (D) in
/-- What a use does; it may throw. -/
def WorkspaceUse.run : WorkspaceUse F → Run (NativeImageWorkspace F) Unit
  | .yolo preprocessor image allocation => do
      let _ ← preprocessor.preprocessWith D image allocation
  | .lprnet preprocessor image allocation => do
      let _ ← preprocessor.preprocessWith D image allocation
  | .prepareTensor elements allocation => NativeImageWorkspace.prepareTensor elements allocation
  | .prepareImage width height format allocation =>
      NativeImageWorkspace.prepareImage width height format allocation
  | .storeTensor index value => do
      let workspace ← get
      set (workspace.writeTensor (workspace.tensor.set index value))
  | .storeScratch index value => do
      let workspace ← get
      set (workspace.writeScratch (workspace.scratch.set index value))

variable (D) in
/-- A workspace after uses, whatever became of them. -/
def afterUses (uses : List (WorkspaceUse F)) (workspace : NativeImageWorkspace F) :
    NativeImageWorkspace F :=
  uses.foldl (fun workspace use => (use.run D).after workspace) workspace

/-! ## The configuration of a used workspace -/

variable {config : NativeImageWorkspaceConfig}

theorem YoloPosePreprocessor.maintains_preprocessWith (preprocessor : YoloPosePreprocessor F)
    (image : ValidatedImage) (allocation : Allocation) :
    Maintains (Configured config) (preprocessor.preprocessWith D image allocation)
      fun _ => True :=
  (maintains_prepareTensor _ _).bind fun _ _ => maintains_get.bind fun workspace hworkspace =>
    (maintains_ofExcept _).bind fun result _ =>
      have hwritten : Configured config (workspace.writeTensor result.chw) := hworkspace
      (maintains_set hwritten).bind fun _ _ => maintains_pure trivial

theorem LprNetPreprocessor.maintains_preprocessWith (preprocessor : LprNetPreprocessor F)
    (image : ValidatedImage) (allocation : Allocation) :
    Maintains (Configured config) (preprocessor.preprocessWith D image allocation)
      fun _ => True :=
  (maintains_prepareTensor _ _).bind fun _ _ => maintains_get.bind fun workspace hworkspace =>
    (maintains_ofExcept _).bind fun result _ =>
      have hwritten : Configured config (workspace.writeTensor result) := hworkspace
      (maintains_set hwritten).bind fun _ _ => maintains_pure trivial

theorem WorkspaceUse.maintains_run (use : WorkspaceUse F) :
    Maintains (Configured config) (use.run D) fun _ => True := by
  cases use with
  | yolo preprocessor image allocation =>
    exact (preprocessor.maintains_preprocessWith image allocation).bind fun _ _ =>
      maintains_pure trivial
  | lprnet preprocessor image allocation =>
    exact (preprocessor.maintains_preprocessWith image allocation).bind fun _ _ =>
      maintains_pure trivial
  | prepareTensor elements allocation => exact maintains_prepareTensor elements allocation
  | prepareImage width height format allocation =>
    exact maintains_prepareImage width height format allocation
  | storeTensor | storeScratch =>
    exact maintains_get.bind fun _ hworkspace => maintains_set hworkspace

/-- **Uses keep the limits.** -/
theorem configured_afterUses (uses : List (WorkspaceUse F)) {workspace : NativeImageWorkspace F}
    (h : Configured config workspace) : Configured config (afterUses D uses workspace) := by
  induction uses generalizing workspace with
  | nil => exact h
  | cons use uses ih => exact ih (use.maintains_run.after h)

/-! ## Preprocessing into a used workspace -/

/-- Where there is memory for the tensor, the program in a workspace returns and throws what the
function of a fresh vector does, and leaves the tensor in the workspace; where there is none, it
throws that and leaves the workspace alone. -/
def Transparent {T : Type} (program : Run (NativeImageWorkspace F) T) (fresh : Except EngineError T)
    (values : T → List F) (workspace : NativeImageWorkspace F) (elements : ℕ)
    (allocation : Allocation) : Prop :=
  match workspace.growTensor elements allocation with
  | .ok _ => ∃ left, program workspace = Run.ofExcept fresh left ∧
      ∀ result, fresh = .ok result → left.tensor = values result
  | .error e => program workspace = .error (.engine e) workspace

variable {workspace : NativeImageWorkspace F}

/-- A program that prepares the tensor, by what it does with the prepared one. -/
theorem transparent_of_prepared {T : Type} {rest : Run (NativeImageWorkspace F) T}
    {fresh : Except EngineError T} {values : T → List F} {elements : ℕ}
    (hlimit : elements ≤ workspace.config.maxTensorElements) (allocation : Allocation)
    (hrest : ∀ capacity, ∃ left,
      rest (workspace.resizeTensor elements capacity) = Run.ofExcept fresh left ∧
        ∀ result, fresh = .ok result → left.tensor = values result) :
    Transparent (do prepareTensor elements allocation; rest) fresh values workspace elements
      allocation := by
  have hprepare := prepareTensor_run hlimit allocation
  unfold Transparent
  cases hmemory : workspace.growTensor elements allocation with
  | error e =>
    rw [hmemory] at hprepare
    exact bind_run_error hprepare
  | ok capacity =>
    rw [hmemory] at hprepare
    obtain ⟨left, hleft, htensor⟩ := hrest capacity
    exact ⟨left, (bind_run_ok hprepare).trans hleft, htensor⟩

theorem YoloPosePreprocessor.transparent_preprocessWith (preprocessor : YoloPosePreprocessor F)
    (image : ValidatedImage)
    (hlimit : preprocessor.tensorElements ≤ workspace.config.maxTensorElements)
    (allocation : Allocation) :
    Transparent (preprocessor.preprocessWith D image allocation) (preprocessor.preprocess D image)
      YoloInputTensor.chw workspace preprocessor.tensorElements allocation := by
  refine transparent_of_prepared hlimit allocation fun capacity => ?_
  have hinto : preprocessor.preprocessInto D image
      (workspace.resizeTensor preprocessor.tensorElements capacity).tensor =
      preprocessor.preprocess D image :=
    preprocessor.preprocessInto_congr image (by simp [resizeTensor])
  rw [bind_run_ok (get_run _), hinto]
  cases preprocessor.preprocess D image with
  | ok result => exact ⟨_, rfl, fun _ h => Except.ok.inj h ▸ rfl⟩
  | error e => exact ⟨_, rfl, nofun⟩

theorem LprNetPreprocessor.transparent_preprocessWith (preprocessor : LprNetPreprocessor F)
    (image : ValidatedImage)
    (hlimit : preprocessor.tensorElements ≤ workspace.config.maxTensorElements)
    (allocation : Allocation) :
    Transparent (preprocessor.preprocessWith D image allocation) (preprocessor.preprocess D image)
      LprNetInputTensor.values workspace preprocessor.tensorElements allocation := by
  refine transparent_of_prepared hlimit allocation fun capacity => ?_
  have hinto : preprocessor.preprocessInto D image
      (workspace.resizeTensor preprocessor.tensorElements capacity).tensor =
      preprocessor.preprocessInto D image (List.replicate preprocessor.tensorElements 0) :=
    preprocessor.preprocessInto_congr image (by simp [resizeTensor])
  rw [bind_run_ok (get_run _), hinto, preprocess]
  cases preprocessor.preprocessInto D image (List.replicate preprocessor.tensorElements 0) with
  | ok values => exact ⟨_, rfl, fun _ h => Except.ok.inj h ▸ rfl⟩
  | error e => exact ⟨_, rfl, nofun⟩

variable (D) in
/-- **Reuse is transparent**: after any uses of a workspace, preprocessing into a tensor within its
limit is preprocessing into a fresh vector. -/
theorem transparent_afterUses (config : NativeImageWorkspaceConfig) (uses : List (WorkspaceUse F))
    (image : ValidatedImage) (allocation : Allocation) :
    (∀ preprocessor : YoloPosePreprocessor F,
      preprocessor.tensorElements ≤ config.maxTensorElements →
        Transparent (preprocessor.preprocessWith D image allocation)
          (preprocessor.preprocess D image) YoloInputTensor.chw
          (afterUses D uses (.fresh config)) preprocessor.tensorElements allocation) ∧
    (∀ preprocessor : LprNetPreprocessor F,
      preprocessor.tensorElements ≤ config.maxTensorElements →
        Transparent (preprocessor.preprocessWith D image allocation)
          (preprocessor.preprocess D image) LprNetInputTensor.values
          (afterUses D uses (.fresh config)) preprocessor.tensorElements allocation) := by
  have hconfig : (afterUses D uses (.fresh config)).config = config := configured_afterUses uses rfl
  constructor
  · intro preprocessor hlimit
    exact preprocessor.transparent_preprocessWith image (hconfig.symm ▸ hlimit) allocation
  · intro preprocessor hlimit
    exact preprocessor.transparent_preprocessWith image (hconfig.symm ▸ hlimit) allocation

/-- A detector and a recognizer of single pixels. -/
def pixelDetectorInput : YoloPosePreprocessor ℚ := ⟨{ width := 1, height := 1 }, 3, by decide +kernel⟩

def pixelRecognizerInput : LprNetPreprocessor ℚ :=
  ⟨{ width := 1, height := 1, channels := 1, colorOrder := .gray }, 1, (1, 1, 1, 1),
    by decide +kernel, by decide +kernel⟩

/-- The recognizer's tensor in a workspace the detector has used. -/
theorem transparent_afterUses_pixel :
    Transparent
      (pixelRecognizerInput.preprocessWith ℚ ⟨⟨[7], 1, 1, 1, .gray8⟩, 1, 1, 1⟩ .badAlloc)
      (pixelRecognizerInput.preprocess ℚ ⟨⟨[7], 1, 1, 1, .gray8⟩, 1, 1, 1⟩)
      LprNetInputTensor.values
      (afterUses ℚ [.yolo pixelDetectorInput ⟨⟨[9], 1, 1, 1, .gray8⟩, 1, 1, 1⟩ (.granted 3)]
        (.fresh ⟨3, 1⟩)) 1 .badAlloc :=
  (transparent_afterUses ℚ ⟨3, 1⟩
    [.yolo pixelDetectorInput ⟨⟨[9], 1, 1, 1, .gray8⟩, 1, 1, 1⟩ (.granted 3)]
    ⟨⟨[7], 1, 1, 1, .gray8⟩, 1, 1, 1⟩ .badAlloc).2 pixelRecognizerInput (by decide)

end FacLpr

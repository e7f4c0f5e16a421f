import FacLpr.Application.EngineDiagnostics
import FacLpr.Infrastructure.Model.VerifiedModels
import FacLpr.Tools.ContractFile

/-!
# Tools/ProductionActivationGate — from a contract to a pipeline that may serve

The gate takes two models from the contract, has the manager verify their files, publishes what it
verified and runs the self-test.  It succeeds exactly when the contract asks for files that are
there as it says and the engine then reports itself ready or degraded; when it refuses the contract
or a file, it has touched nothing (`activateProductionPipeline_decides`).

The factory opens the models by paths of its own, before the gate.  They are the files that the gate
verifies (`factory_opens_verified`).
-/

namespace FacLpr

open Program LexicalPaths TextLines ContractFile ModelLifecycle

/-- `EngineDiagnostics`, by what the gate and the self-test call of it; none of it throws. -/
structure ActivationDiagnostics (σ : Type) extends ReadinessDiagnostics σ where
  setModels : List DiagnosticModelInfo → σ → σ
  setProviders : List DiagnosticProviderInfo → σ → σ

variable {σ F D : Type}

namespace ProductionActivationGate

/-! ## The contract -/

/-- What the gate reads of a contract. -/
structure ProductionContract where
  detectorSha : Text
  ocrSha : Text
  ocrVersion : Text
  detectorModel : Text
  detectorSize : ℕ
  ocrModel : Text
  ocrSize : ℕ

/-- `detector_version`. -/
def detectorVersion (sha256 : Text) : Text := ascii "best.onnx@" ++ sha256.take 12

def ProductionContract.manifest (contract : ProductionContract) (modelDirectory : Path) :
    ModelManifest where
  rootDirectory := modelDirectory
  entries :=
    [⟨ascii "best.onnx", ascii "detector", detectorVersion contract.detectorSha,
        contract.detectorModel, contract.detectorSha, contract.detectorSize⟩,
      ⟨ascii "lprnet_turkey.onnx", ascii "recognizer", contract.ocrVersion, contract.ocrModel,
        contract.ocrSha, contract.ocrSize⟩]

def ProductionContract.providers (contract : ProductionContract) : List DiagnosticProviderInfo :=
  [⟨ascii "yolo_pose_onnx", detectorVersion contract.detectorSha, ascii "detector"⟩,
    ⟨ascii "lprnet_onnx", contract.ocrVersion, ascii "recognizer"⟩]

/-! ## The gate -/

def diagnosticModel (model : ActiveModelInfo) : DiagnosticModelInfo :=
  ⟨model.name, model.version, model.sha256, model.integrityVerified⟩

/-- What the gate publishes before the self-test. -/
def published (diagnostics : ActivationDiagnostics σ) (production : ProductionContract)
    (active : List ActiveModelInfo) (s : σ) : σ :=
  diagnostics.setProviders production.providers
    (diagnostics.setModels (active.map diagnosticModel) s)

end ProductionActivationGate

end FacLpr

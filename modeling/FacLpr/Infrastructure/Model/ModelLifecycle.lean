import FacLpr.Application.Error
import FacLpr.Foundations.LexicalPaths
import FacLpr.Infrastructure.Crypto.Sha256

/-!
# Infrastructure/Model/ModelLifecycle — which model files an engine runs

A manifest says where each model is, how long it is and what it hashes to.  The manager checks the
manifest when it is made, and the files when they are to be activated: all of them or none.  The
file system is a parameter, by the calls that are made of it.
-/

namespace FacLpr

open LexicalPaths

/-- A stream opened at its end: what `tellg` says, and the bytes there are to read. -/
structure FileStream where
  endOffset : ℤ
  content : List Byte

/-- A file system; none is an error code, or a file that does not open. -/
structure FileSystem where
  weaklyCanonical : Path → Option Path
  isDirectory : Path → Option Bool
  isRegularFile : Path → Option Bool
  openBinary : Path → Option FileStream

structure ModelManifestEntry where
  name : Text
  type : Text
  version : Text
  relativePath : Path
  sha256 : Text
  sizeBytes : ℕ
  deriving DecidableEq

structure ModelManifest where
  rootDirectory : Path
  entries : List ModelManifestEntry
  maximumModelBytes : ℕ := 512 * 1024 * 1024

structure ActiveModelInfo where
  name : Text
  type : Text
  version : Text
  resolvedPath : Path
  sha256 : Text
  sizeBytes : ℕ
  integrityVerified : Bool
  deriving DecidableEq

namespace ModelLifecycle

/-- `std::isxdigit`. -/
def isHexDigit (b : Byte) : Bool :=
  (decide (byte '0' ≤ b) && decide (b ≤ byte '9')) ||
    (decide (byte 'a' ≤ b) && decide (b ≤ byte 'f')) ||
    (decide (byte 'A' ≤ b) && decide (b ≤ byte 'F'))

/-- `is_hex_sha256`. -/
def isHexSha256 (value : Text) : Bool := value.length == 64 && value.all isHexDigit

/-- `contains_parent_traversal`. -/
def containsParentTraversal (components : List Text) : Bool := components.any (· == dotDot)

/-- One entry, and the identities of those before it. -/
def checkEntry (manifest : ModelManifest) (identities : List (Text × Text))
    (entry : ModelManifestEntry) : Except EngineError (List (Text × Text)) := do
  require (!(entry.name.isEmpty || entry.type.isEmpty || entry.version.isEmpty))
    (configurationError "model name, type and version are required")
  require (!(entry.relativePath.isEmpty || isAbsolute entry.relativePath))
    (configurationError "model path must be non-empty and relative")
  require (!containsParentTraversal (lexicallyNormal entry.relativePath))
    (configurationError "model path traversal is not allowed")
  require (isHexSha256 entry.sha256)
    (configurationError "model sha256 must contain exactly 64 hex characters")
  require (!(entry.sizeBytes == 0 || decide (manifest.maximumModelBytes < entry.sizeBytes)))
    (configurationError "model size is outside configured limits")
  require (!decide ((entry.type, entry.name) ∈ identities))
    (configurationError "duplicate model type/name in manifest")
  return identities ++ [(entry.type, entry.name)]

/-- The checks of the constructor. -/
def check (manifest : ModelManifest) : Except EngineError Unit := do
  require (!manifest.rootDirectory.isEmpty)
    (configurationError "model manifest root_directory is required")
  require (!manifest.entries.isEmpty)
    (configurationError "model manifest requires at least one entry")
  require (!(manifest.maximumModelBytes == 0 ||
      decide (2 * 1024 * 1024 * 1024 < manifest.maximumModelBytes)))
    (configurationError "maximum_model_bytes is outside safe limits")
  let _ ← manifest.entries.foldlM (checkEntry manifest) []
  return ()

end ModelLifecycle

/-- `ModelLifecycleManager`: a manifest its constructor has checked. -/
structure ModelLifecycleManager where
  manifest : ModelManifest
  accepted : ModelLifecycle.check manifest = .ok ()

end FacLpr

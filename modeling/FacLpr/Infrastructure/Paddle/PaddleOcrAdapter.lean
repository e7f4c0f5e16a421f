import FacLpr.Application.RecognitionEnsemble
import FacLpr.Infrastructure.Crypto.Sha256
import FacLpr.Infrastructure.Paddle.OcrCache

/-!
# Infrastructure/Paddle/PaddleOcrAdapter — a recognizer around a worker, with a cache

A call encodes the image, looks its digest up, and asks the worker when the cache has no answer; an
answer is checked, and stored once it is complete.  The encoder and the worker are programs of which
nothing is assumed.

The two operations of the cache are the only places that change it.
-/

namespace FacLpr

structure EncodedImage where
  bytes : List Byte
  mimeType : Text := ascii "image/jpeg"

/-- `IImageEncoder`. -/
structure ImageEncoder (σ : Type) where
  encode : ImageView → OperationContext → Run σ EncodedImage

structure PaddleOcrRequest where
  payload : List Byte
  mimeType : Text
  contentSha256 : Text

structure PaddleOcrResponse (F : Type) where
  candidates : List (PlateCandidate F)

/-- `IPaddleOcrWorker`. -/
structure PaddleOcrWorker (σ F : Type) where
  available : σ → Bool × σ
  recognize : PaddleOcrRequest → OperationContext → Run σ (PaddleOcrResponse F)

structure PaddleOcrProviderConfig where
  providerName : Text := ascii "paddleocr"
  timeout : ℤ := 750
  maximumPayloadBytes : ℕ := 4 * 1024 * 1024
  cacheCapacity : ℕ := 128
  maximumCandidates : ℕ := 8

/-- The checks of the constructor on the configuration. -/
def PaddleOcrProviderConfig.check (config : PaddleOcrProviderConfig) : Except EngineError Unit := do
  require (!config.providerName.isEmpty)
    (configurationError "PaddleOCR provider name cannot be empty")
  require (0 < config.timeout) (configurationError "PaddleOCR timeout must be positive")
  require (config.maximumPayloadBytes ≠ 0 ∧ config.maximumCandidates ≠ 0)
    (configurationError "PaddleOCR bounds must be greater than zero")

/-- An adapter its constructor accepted. -/
structure PaddleOcrAdapter (σ F : Type) where
  config : PaddleOcrProviderConfig
  encoder : ImageEncoder σ
  worker : PaddleOcrWorker σ F
  accepted : config.check = .ok ()

namespace PaddleOcrAdapter

variable {σ F D : Type}

/-- The constructor; a null pointer is `none`. -/
def make (config : PaddleOcrProviderConfig) (encoder : Option (ImageEncoder σ))
    (worker : Option (PaddleOcrWorker σ F)) : Except EngineError (PaddleOcrAdapter σ F) :=
  match hcheck : config.check with
  | .error e => .error e
  | .ok () =>
      match encoder, worker with
      | some encoder, some worker => .ok ⟨config, encoder, worker, hcheck⟩
      | _, _ => .error (configurationError "PaddleOCR encoder and worker are required")

variable (adapter : PaddleOcrAdapter σ F)

/-- `validate_response`. -/
def validateResponse [Scalar F] (response : PaddleOcrResponse F) : Except EngineError Unit := do
  require (response.candidates.length ≤ adapter.config.maximumCandidates)
    (providerError "PaddleOCR response contains too many candidates")
  require (response.candidates.all RecognitionEnsemble.isValidCandidate)
    (providerError "PaddleOCR worker returned a malformed candidate")

variable [World σ]

/-- `check_context`. -/
def checkPaddleContext (context : OperationContext) : Run σ Unit :=
  checkContext context "PaddleOCR recognition cancelled" "PaddleOCR recognition deadline exceeded"

/-- `child_context`. -/
def childContext (parent : OperationContext) : Run σ OperationContext :=
  RecognitionEnsemble.providerContext parent adapter.config.timeout

/-- `recognize` up to the digest: the payload the image is encoded as. -/
def encodePayload (plate : ImageView) (context : OperationContext) : Run σ EncodedImage := do
  checkPaddleContext context
  let available ← fun s => let (available, next) := adapter.worker.available s; .ok available next
  if !available then Run.throw (providerError "PaddleOCR worker is unavailable")
  else
    let encoded ← adapter.encoder.encode plate context
    checkPaddleContext context
    if encoded.bytes.isEmpty || encoded.mimeType.isEmpty then
      Run.throw (providerError "PaddleOCR encoder returned an empty payload")
    else if adapter.config.maximumPayloadBytes < encoded.bytes.length then
      Run.throw (resourceExhaustedError "PaddleOCR payload exceeds configured limit")
    else return encoded

/-- `recognize` past the cache: what the worker answers, checked and completed. -/
def recognizePayload [Scalar F] [Scalar D] (encoded : EncodedImage) (key : Text)
    (context : OperationContext) : Run σ (RecognitionEvidence F D) := do
  let started ← now
  let boundedContext ← adapter.childContext context
  checkPaddleContext boundedContext
  let response ← adapter.worker.recognize ⟨encoded.bytes, encoded.mimeType, key⟩ boundedContext
  checkPaddleContext boundedContext
  Run.ofExcept (adapter.validateResponse response)
  let finished ← now
  return {
    source := adapter.config.providerName
    candidates := response.candidates
    cropQuality := 0
    latencyMs := elapsedMs started finished }

omit [World σ] in
/-- `try_get_cached`. -/
def tryGetCached {ν : Type} (key : Text) : Run (σ × OcrCache ν) (Option ν) := fun (s, c) =>
  let (found, next) := c.tryGetCached adapter.config.cacheCapacity key
  .ok found (s, next)

omit [World σ] in
/-- `store_cached`. -/
def storeCached {ν : Type} (key : Text) (evidence : ν) : Run (σ × OcrCache ν) Unit := fun (s, c) =>
  .ok () (s, c.storeCached adapter.config.cacheCapacity key evidence)

/-- `PaddleOcrAdapter::recognize`. -/
def recognize [Scalar F] [Scalar D] (plate : ImageView) (context : OperationContext) :
    Run (σ × OcrCache (RecognitionEvidence F D)) (RecognitionEvidence F D) := do
  let encoded ← Program.onFst (adapter.encodePayload plate context)
  let key := sha256Hex encoded.bytes
  match ← adapter.tryGetCached key with
  | some cached => return cached
  | none =>
      let evidence ← Program.onFst (adapter.recognizePayload encoded key context)
      adapter.storeCached key evidence
      return evidence

end PaddleOcrAdapter

end FacLpr

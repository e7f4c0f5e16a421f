import FacLpr.Application.Image
import FacLpr.Application.OperationContext
import FacLpr.Application.PipelineResult

/-!
# Application/RecognitionEnsemble — every recognizer on one crop

An enabled recognizer of positive weight leaves an evidence item or a failure; a required one that
fails ends the run.
-/

namespace FacLpr

/-- `IPlateRecognizer`. -/
structure PlateRecognizer (σ F D : Type) where
  name : Text
  recognize : ImageView → OperationContext → Run σ (RecognitionEvidence F D)

structure RecognizerRegistration (σ F D : Type) where
  provider : PlateRecognizer σ F D
  weight : F
  timeout : ℤ
  required : Bool
  enabled : Bool

structure RecognitionEnsembleResult (F D : Type) where
  evidence : List (RecognitionEvidence F D)
  failures : List ProviderFailure
  degraded : Bool

namespace RecognitionEnsemble

variable {σ F D : Type}

/-- The recognizers that run: enabled, with a positive weight. -/
def isActive [Scalar F] (registration : RecognizerRegistration σ F D) : Bool :=
  !(!registration.enabled || decide (registration.weight ≤ 0))

/-- The checks of the constructor on one registration, given the names before it. -/
def checkRegistration [Scalar F] (names : List Text) (registration : RecognizerRegistration σ F D) :
    Except EngineError (List Text) := do
  let name := registration.provider.name
  require (!name.isEmpty && !names.contains name)
    (configurationError "recognizer provider names must be non-empty and unique")
  require (Scalar.isFinite registration.weight && !decide (registration.weight < 0) &&
      !decide (1 < registration.weight))
    (configurationError "recognizer provider weight must be in [0,1]")
  require (decide (0 < registration.timeout) && decide (registration.timeout ≤ 5 * 60 * 1000))
    (configurationError "recognizer provider timeout is outside safe limits")
  return name :: names

/-- The checks of the constructor. -/
def check [Scalar F] (recognizers : List (RecognizerRegistration σ F D)) :
    Except EngineError Unit := do
  require (!recognizers.isEmpty)
    (configurationError "recognition ensemble requires at least one recognizer")
  let _ ← recognizers.foldlM checkRegistration []
  return

end RecognitionEnsemble

/-- An ensemble its constructor accepted. -/
structure RecognitionEnsemble (σ F D : Type) [Scalar F] where
  recognizers : List (RecognizerRegistration σ F D)
  accepted : RecognitionEnsemble.check recognizers = .ok ()

namespace RecognitionEnsemble

variable {σ F D : Type} [Scalar F] [Scalar D]

/-- `effective_provider_confidence`. -/
def effectiveProviderConfidence (candidate : PlateCandidate F) (providerWeight : F) : F :=
  let base := if 0 < candidate.calibratedConfidence then candidate.calibratedConfidence
    else candidate.confidence
  Scalar.clamp01 (base * providerWeight)

/-- A candidate `validate_evidence` lets pass. -/
def isValidCandidate (candidate : PlateCandidate F) : Bool :=
  !candidate.text.isEmpty && Scalar.isProbability candidate.confidence &&
    Scalar.isProbability candidate.calibratedConfidence

/-- `validate_evidence`. -/
def validateEvidence (evidence : RecognitionEvidence F D) (providerName : Text)
    (providerWeight cropQuality : F) (latencyMs : D) :
    Except EngineError (RecognitionEvidence F D) := do
  require (evidence.candidates.all isValidCandidate)
    (providerError "recognizer returned invalid candidate evidence")
  return {
    source := providerName
    cropQuality := Scalar.clamp01 cropQuality
    latencyMs := Scalar.max 0 latencyMs
    candidates := evidence.candidates.map fun candidate =>
      { candidate with
        calibratedConfidence := effectiveProviderConfidence candidate providerWeight } }

section

variable [World σ]

/-- `provider_context`. -/
def providerContext (parent : OperationContext) (timeout : ℤ) : Run σ OperationContext := do
  let localDeadline := (← now) + timeout * 1000000
  return { deadline := some (match parent.deadline with
    | none => localDeadline
    | some deadline => if localDeadline < deadline then localDeadline else deadline) }

/-- The body of the loop: what the recognizer returns, checked and completed. -/
def evidenceOf (registration : RecognizerRegistration σ F D) (plate : ImageView) (cropQuality : F)
    (context : OperationContext) : Run σ (RecognitionEvidence F D) := do
  let started ← now
  let evidence ← registration.provider.recognize plate context
  let finished ← now
  Run.ofExcept (validateEvidence evidence registration.provider.name registration.weight cropQuality
    (elapsedMs started finished))

/-- The code a failed recognizer is recorded with. -/
def failureCode : Exn → EngineErrorCode
  | .engine error => error.code
  | .foreign => .internal

/-- The error of a required recognizer that failed. -/
def requiredFailed (name : Text) : EngineError :=
  providerError ("required recognizer provider failed: " ++
    String.ofList (name.map fun byte => Char.ofNat byte.toNat))

/-- One iteration of the loop over the recognizers. -/
def recognizerStep (plate : ImageView) (cropQuality : F) (context : OperationContext)
    (result : RecognitionEnsembleResult F D) (registration : RecognizerRegistration σ F D) :
    Run σ (RecognitionEnsembleResult F D) :=
  if !isActive registration then pure result
  else do
    let childContext ← providerContext context registration.timeout
    tryCatch
      (do
        let evidence ← evidenceOf registration plate cropQuality childContext
        return { result with evidence := result.evidence ++ [evidence] })
      fun e =>
        if registration.required then Run.throw (requiredFailed registration.provider.name)
        else pure { result with
          degraded := true
          failures := result.failures ++ [⟨registration.provider.name, failureCode e⟩] }

/-- `RecognitionEnsemble::recognize`. -/
def recognize (ensemble : RecognitionEnsemble σ F D) (plate : ImageView) (cropQuality : F)
    (context : OperationContext) : Run σ (RecognitionEnsembleResult F D) := do
  if !Scalar.isFinite cropQuality then
    Run.throw (invalidImageError "crop quality must be finite")
  else
    checkContext context "recognition ensemble cancelled" "recognition ensemble deadline exceeded"
    let result ← ensemble.recognizers.foldlM (recognizerStep plate cropQuality context)
      ⟨[], [], false⟩
    return { result with
      degraded := result.degraded || (result.evidence.isEmpty && !result.failures.isEmpty) }

/-! ## What an ensemble returns -/

open Program

/-- **Every active recognizer is accounted for**, by an evidence item or by a failure, and the
result is degraded when there is a failure. -/
theorem returns_recognize_accounted (ensemble : RecognitionEnsemble σ F D) (plate : ImageView)
    (cropQuality : F) (context : OperationContext) :
    Returns (ensemble.recognize plate cropQuality context) fun result =>
      result.evidence.length + result.failures.length = ensemble.recognizers.countP isActive ∧
        (result.degraded = true ↔ result.failures ≠ []) := by
  have hstep : ∀ (registration : RecognizerRegistration σ F D)
      (rest : List (RecognizerRegistration σ F D)) (result : RecognitionEnsembleResult F D),
      (result.evidence.length + result.failures.length +
          (registration :: rest).countP isActive = ensemble.recognizers.countP isActive ∧
        (result.degraded = true ↔ result.failures ≠ [])) →
      Returns (recognizerStep plate cropQuality context result registration) fun result =>
        result.evidence.length + result.failures.length + rest.countP isActive =
            ensemble.recognizers.countP isActive ∧
          (result.degraded = true ↔ result.failures ≠ []) := by
    rintro registration rest result ⟨hcount, hdegraded⟩
    rw [List.countP_cons] at hcount
    unfold recognizerStep
    cases hactive : isActive registration with
    | false => exact returns_pure ⟨by simpa [hactive] using hcount, hdegraded⟩
    | true =>
      rw [hactive, if_pos rfl] at hcount
      refine (returns_self _).bind fun childContext _ => Returns.tryCatch ?_ fun e => ?_
      · refine (returns_self _).bind fun evidence _ => returns_pure ⟨?_, hdegraded⟩
        simp only [List.length_append, List.length_singleton]
        omega
      · cases registration.required with
        | true => exact returns_throw _ _
        | false =>
          refine returns_pure ⟨?_, by simp⟩
          simp only [List.length_append, List.length_singleton]
          omega
  unfold recognize
  cases Scalar.isFinite cropQuality with
  | false => exact returns_throw _ _
  | true =>
    refine (returns_self _).bind fun _ _ => ?_
    refine (Returns.foldlM_rest (I := fun rest result =>
      result.evidence.length + result.failures.length + rest.countP isActive =
          ensemble.recognizers.countP isActive ∧
        (result.degraded = true ↔ result.failures ≠ [])) hstep ⟨by simp, by simp⟩).bind
      fun result ⟨hcount, hdegraded⟩ => ?_
    refine returns_pure ⟨by simpa using hcount, ?_⟩
    rw [Bool.or_eq_true, hdegraded, Bool.and_eq_true]
    simp

/-- What holds of the evidence of each recognizer holds of the result's. -/
theorem returns_recognize_evidence {ensemble : RecognitionEnsemble σ F D} {plate : ImageView}
    {cropQuality : F} {context : OperationContext} {P : RecognitionEvidence F D → Prop}
    (h : ∀ registration ∈ ensemble.recognizers, ∀ childContext,
      Returns (evidenceOf registration plate cropQuality childContext) P) :
    Returns (ensemble.recognize plate cropQuality context) fun result =>
      ∀ item ∈ result.evidence, P item := by
  have hstep : ∀ registration ∈ ensemble.recognizers, ∀ result : RecognitionEnsembleResult F D,
      (∀ item ∈ result.evidence, P item) →
      Returns (recognizerStep plate cropQuality context result registration) fun result =>
        ∀ item ∈ result.evidence, P item := by
    intro registration hregistration result hresult
    unfold recognizerStep
    split
    · exact returns_pure hresult
    · refine (returns_self _).bind fun childContext _ => Returns.tryCatch ?_ fun e => ?_
      · refine (h registration hregistration childContext).bind fun evidence hevidence =>
          returns_pure fun item hitem => ?_
        rcases List.mem_append.mp hitem with hitem | hitem
        · exact hresult item hitem
        · obtain rfl := List.mem_singleton.mp hitem
          exact hevidence
      · cases registration.required with
        | true => exact returns_throw _ _
        | false => exact returns_pure hresult
  unfold recognize
  cases Scalar.isFinite cropQuality with
  | false => exact returns_throw _ _
  | true =>
    refine (returns_self _).bind fun _ _ => ?_
    refine (Returns.foldlM hstep fun item hitem => absurd hitem List.not_mem_nil).bind
      fun result hresult => returns_pure hresult

end

end RecognitionEnsemble

end FacLpr

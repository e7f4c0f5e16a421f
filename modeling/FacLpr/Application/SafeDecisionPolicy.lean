import FacLpr.Application.CandidateFusion

/-!
# Application/SafeDecisionPolicy — accept, review or reject

The policy rejects on the first gate of one group that fails, then collects the reasons for a
review; it accepts when there is none.
-/

namespace FacLpr

namespace SafeDecisionPolicy

variable {F D : Type} [Scalar F]

/-- A policy its constructor accepted. -/
structure Config (F : Type) [Scalar F] where
  config : DecisionConfig F
  accepted : config.check = .ok ()

/-- The policy of the default configuration, in exact arithmetic. -/
def Config.default : Config ℚ := ⟨{}, by decide +kernel⟩

/-- The value `effective_confidence` reads: the calibrated confidence if there is one. -/
def effectiveValue (candidate : PlateCandidate F) : F :=
  if 0 < candidate.calibratedConfidence then candidate.calibratedConfidence
  else candidate.confidence

def effectiveConfidence (candidate : PlateCandidate F) : Except EngineError F := do
  require (Scalar.isProbability (effectiveValue candidate))
    (providerError "decision policy received invalid candidate confidence")
  return effectiveValue candidate

/-- The best crop quality of the evidence. -/
def bestCropQuality (evidence : List (RecognitionEvidence F D)) : F :=
  evidence.foldl (fun best item => Scalar.max best item.cropQuality) 0

/-- The checks of the inputs: a crop quality or a confidence out of range is thrown at. -/
def checkInputs (evidence : List (RecognitionEvidence F D))
    (fusedCandidates : List (PlateCandidate F)) : Except EngineError Unit := do
  evidence.forM fun item =>
    require (Scalar.isProbability item.cropQuality)
      (providerError "decision policy received invalid crop quality")
  fusedCandidates.forM fun candidate => do
    let _ ← effectiveConfidence candidate

/-- The format-valid candidates, the best first. -/
def validCandidates (fusedCandidates : List (PlateCandidate F)) : List (PlateCandidate F) :=
  stableSort (PlateCandidate.before effectiveValue)
    (fusedCandidates.filter fun candidate => candidate.formatValid && !candidate.text.isEmpty)

/-- The first gate that rejects. -/
def rejection (config : DecisionConfig F) (detection : Detection F)
    (valid : List (PlateCandidate F)) (context : RecognitionDecisionContext) :
    Option RecognitionDecisionReason :=
  if context.fatalProviderFailure then some .fatalProviderFailure
  else if !Scalar.isFinite detection.confidence ∨
      detection.confidence < config.minimumEffectiveDetectorConfidence then
    some .detectorConfidenceBelowMinimum
  else match valid with
    | [] => some .noValidCandidate
    | best :: _ =>
        if effectiveValue best < config.reviewConfidenceThreshold then
          some .candidateConfidenceBelowReview
        else none

/-- The runner-up has another text and a strong confidence. -/
def hasStrongConflict (config : DecisionConfig F) (valid : List (PlateCandidate F)) : Bool :=
  match valid with
  | best :: second :: _ =>
      second.text != best.text &&
        decide (config.strongConflictThreshold ≤ effectiveValue second)
  | _ => false

/-- The reasons for a review, in the order of the gates. -/
def reviewReasons (config : DecisionConfig F) (detection : Detection F)
    (result : PlateRecognitionResult F D) (valid : List (PlateCandidate F)) :
    List RecognitionDecisionReason :=
  (if !Scalar.isFinite detection.geometryScore ∨
      detection.geometryScore < config.minimumGeometryScore then [.geometryBelowMinimum] else []) ++
  (if result.cropQuality < config.minimumCropQuality then [.cropQualityBelowMinimum] else []) ++
  (if result.confidence < config.acceptedConfidenceThreshold then [.candidateConfidenceBelowAccept]
    else []) ++
  (if hasStrongConflict config valid then [.conflictingStrongCandidates] else []) ++
  (if result.degraded then [.degradedProviderSet] else [])

/-- A provider failed. -/
def isDegraded (context : RecognitionDecisionContext) : Bool :=
  context.degraded || decide (0 < context.providerFailureCount)

/-- The result before the gates. -/
def resultOf [Zero D] (detection : Detection F) (evidence : List (RecognitionEvidence F D))
    (fusedCandidates : List (PlateCandidate F)) (context : RecognitionDecisionContext) :
    PlateRecognitionResult F D :=
  let best := (validCandidates fusedCandidates).head?
  { (PlateRecognitionResult.default : PlateRecognitionResult F D) with
    plate := (best.map PlateCandidate.text).getD []
    confidence := (best.map effectiveValue).getD 0
    bbox := some detection.bbox
    quadrilateral := detection.quadrilateral
    detectorConfidence := detection.confidence
    geometryScore := detection.geometryScore
    cropQuality := bestCropQuality evidence
    evidence
    alternatives := fusedCandidates
    degraded := isDegraded context }

/-- The gates. -/
def applyGates (config : DecisionConfig F) (detection : Detection F)
    (valid : List (PlateCandidate F)) (context : RecognitionDecisionContext)
    (result : PlateRecognitionResult F D) : PlateRecognitionResult F D :=
  match rejection config detection valid context with
  | some reason => { result with status := .rejected, decisionReasons := [reason] }
  | none =>
      match reviewReasons config detection result valid with
      | [] => { result with status := .accepted, decisionReasons := [.acceptedConsensus] }
      | reasons => { result with status := .review, decisionReasons := reasons }

/-- `SafeRecognitionDecisionPolicy::decide`. -/
protected def decide [Zero D] (c : Config F) (detection : Detection F)
    (evidence : List (RecognitionEvidence F D)) (fusedCandidates : List (PlateCandidate F))
    (context : RecognitionDecisionContext) : Except EngineError (PlateRecognitionResult F D) := do
  checkInputs evidence fusedCandidates
  return applyGates c.config detection (validCandidates fusedCandidates) context
    (resultOf detection evidence fusedCandidates context)

/-! ## What a decision means -/

theorem checkInputs_eq_ok {evidence : List (RecognitionEvidence F D)}
    {fusedCandidates : List (PlateCandidate F)} {u : Unit} :
    checkInputs evidence fusedCandidates = .ok u ↔
      (∀ item ∈ evidence, Scalar.isProbability item.cropQuality = true) ∧
        ∀ candidate ∈ fusedCandidates, Scalar.isProbability (effectiveValue candidate) = true := by
  simp [checkInputs, effectiveConfidence, except_bind_eq_ok, except_forM_eq_ok, pure, Except.pure]

theorem decide_eq_ok [Zero D] {c : Config F} {detection : Detection F}
    {evidence : List (RecognitionEvidence F D)} {fusedCandidates : List (PlateCandidate F)}
    {context : RecognitionDecisionContext} {result : PlateRecognitionResult F D} :
    SafeDecisionPolicy.decide c detection evidence fusedCandidates context = .ok result ↔
      checkInputs evidence fusedCandidates = .ok () ∧
        applyGates c.config detection (validCandidates fusedCandidates) context
          (resultOf detection evidence fusedCandidates context) = result := by
  rw [SafeDecisionPolicy.decide, except_bind_eq_ok]
  exact ⟨fun ⟨_, hinputs, h⟩ => ⟨hinputs, Except.ok.inj h⟩,
    fun ⟨hinputs, h⟩ => ⟨(), hinputs, congrArg Except.ok h⟩⟩

/-- The gates that do not look at the candidates. -/
structure Admissible (config : DecisionConfig F) (detection : Detection F)
    (evidence : List (RecognitionEvidence F D)) (context : RecognitionDecisionContext) : Prop where
  fatal : context.fatalProviderFailure = false
  detector : Scalar.isFinite detection.confidence = true ∧
    ¬ detection.confidence < config.minimumEffectiveDetectorConfidence
  geometry : Scalar.isFinite detection.geometryScore = true ∧
    ¬ detection.geometryScore < config.minimumGeometryScore
  cropQuality : ¬ bestCropQuality evidence < config.minimumCropQuality
  degraded : isDegraded context = false

/-- The gates change nothing but the status and its reasons. -/
theorem applyGates_eq (config : DecisionConfig F) (detection : Detection F)
    (valid : List (PlateCandidate F)) (context : RecognitionDecisionContext)
    (result : PlateRecognitionResult F D) :
    ∃ status decisionReasons, applyGates config detection valid context result =
      { result with status, decisionReasons } := by
  unfold applyGates
  split
  · exact ⟨_, _, rfl⟩
  · split <;> exact ⟨_, _, rfl⟩

theorem rejection_eq_none {config : DecisionConfig F} {detection : Detection F}
    {valid : List (PlateCandidate F)} {context : RecognitionDecisionContext} :
    rejection config detection valid context = none ↔
      context.fatalProviderFailure = false ∧ (Scalar.isFinite detection.confidence = true ∧
        ¬ detection.confidence < config.minimumEffectiveDetectorConfidence) ∧
        ∃ best rest, valid = best :: rest ∧
          ¬ effectiveValue best < config.reviewConfidenceThreshold := by
  unfold rejection
  cases valid <;> grind

theorem reviewReasons_eq_nil {config : DecisionConfig F} {detection : Detection F}
    {result : PlateRecognitionResult F D} {valid : List (PlateCandidate F)} :
    reviewReasons config detection result valid = [] ↔
      (Scalar.isFinite detection.geometryScore = true ∧
        ¬ detection.geometryScore < config.minimumGeometryScore) ∧
        ¬ result.cropQuality < config.minimumCropQuality ∧
        ¬ result.confidence < config.acceptedConfidenceThreshold ∧
        hasStrongConflict config valid = false ∧ result.degraded = false := by
  have hsingle : ∀ (gate : Prop) [Decidable gate] (reason : RecognitionDecisionReason),
      (if gate then [reason] else []) = [] ↔ ¬ gate := by
    intro gate _ reason
    split <;> simp_all
  simp only [reviewReasons, List.append_eq_nil_iff, hsingle, not_or, and_assoc]
  simp

/-- **When the policy accepts**: every gate holds, and the best format-valid candidate is confident
and has no strong rival. -/
theorem status_accepted_iff [Zero D] {config : DecisionConfig F} {detection : Detection F}
    {evidence : List (RecognitionEvidence F D)} {fusedCandidates : List (PlateCandidate F)}
    {context : RecognitionDecisionContext} :
    (applyGates config detection (validCandidates fusedCandidates) context
      (resultOf detection evidence fusedCandidates context)).status = .accepted ↔
      Admissible config detection evidence context ∧
        ∃ best rest, validCandidates fusedCandidates = best :: rest ∧
          ¬ effectiveValue best < config.reviewConfidenceThreshold ∧
          ¬ effectiveValue best < config.acceptedConfidenceThreshold ∧
          hasStrongConflict config (best :: rest) = false := by
  have hstatus : ∀ result : PlateRecognitionResult F D,
      (applyGates config detection (validCandidates fusedCandidates) context result).status =
        .accepted ↔ rejection config detection (validCandidates fusedCandidates) context = none ∧
          reviewReasons config detection result (validCandidates fusedCandidates) = [] := by
    intro result
    unfold applyGates
    grind
  rw [hstatus, rejection_eq_none, reviewReasons_eq_nil]
  constructor
  · rintro ⟨⟨hfatal, hdetector, best, rest, hvalid, hreview⟩, hgeometry, hcrop, haccept, hconflict,
      hdegraded⟩
    refine ⟨⟨hfatal, hdetector, hgeometry, hcrop, hdegraded⟩, best, rest, hvalid, hreview, ?_,
      hvalid ▸ hconflict⟩
    simpa [resultOf, hvalid] using haccept
  · rintro ⟨h, best, rest, hvalid, hreview, haccept, hconflict⟩
    refine ⟨⟨h.fatal, h.detector, best, rest, hvalid, hreview⟩, h.geometry, h.cropQuality, ?_,
      hvalid ▸ hconflict, h.degraded⟩
    simpa [resultOf, hvalid] using haccept

end SafeDecisionPolicy

end FacLpr

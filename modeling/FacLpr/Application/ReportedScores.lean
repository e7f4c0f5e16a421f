import FacLpr.Application.DecisionTrace

/-!
# Application/ReportedScores — the reasons of a recognition beside its scores

The policy compares the scores it then reports, but the pipeline writes the best quality over all
crops over the one the policy compared, the best over the crops some recognizer answered for.  The
two differ in a reason exactly when a crop reaches the minimum and no recognizer answered for such a
crop (`scoresAgree_iff`).
-/

namespace FacLpr

namespace SafeDecisionPolicy

variable {F D : Type} [Scalar F]

/-! ## The reasons of a decision -/

section Reasons

variable {config : DecisionConfig F} {detection : Detection F} {valid : List (PlateCandidate F)}
  {context : RecognitionDecisionContext} {result : PlateRecognitionResult F D}

/-- A decision has the reason of the gate that rejects, or those of a review. -/
theorem mem_decisionReasons {reason : RecognitionDecisionReason}
    (hreason : reason ≠ .acceptedConsensus) :
    reason ∈ (applyGates config detection valid context result).decisionReasons ↔
      rejection config detection valid context = some reason ∨
        rejection config detection valid context = none ∧
          reason ∈ reviewReasons config detection result valid := by
  unfold applyGates
  cases hrejection : rejection config detection valid context with
  | some first => simp [eq_comm]
  | none =>
    cases hreview : reviewReasons config detection result valid with
    | nil => simp [hreason]
    | cons first rest => simp

/-- **What a rejection says**, in the order of the gates. -/
theorem rejection_cases {reason : RecognitionDecisionReason}
    (h : rejection config detection valid context = some reason) :
    context.fatalProviderFailure = true ∧ reason = .fatalProviderFailure ∨
      context.fatalProviderFailure = false ∧
        ((¬ Scalar.isFinite detection.confidence = true ∨
            detection.confidence < config.minimumEffectiveDetectorConfidence) ∧
          reason = .detectorConfidenceBelowMinimum ∨
        valid = [] ∧ reason = .noValidCandidate ∨
        ∃ best rest, valid = best :: rest ∧
          effectiveValue best < config.reviewConfidenceThreshold ∧
          reason = .candidateConfidenceBelowReview) := by
  unfold rejection at h
  split at h
  · rename_i hfatal
    exact Or.inl ⟨hfatal, (Option.some.inj h).symm⟩
  rename_i hfatal
  refine Or.inr ⟨Bool.eq_false_iff.mpr hfatal, ?_⟩
  split at h
  · rename_i hdetector
    rw [Bool.not_eq_true', ← Bool.not_eq_true] at hdetector
    exact Or.inl ⟨hdetector, (Option.some.inj h).symm⟩
  cases valid with
  | nil => exact Or.inr (Or.inl ⟨rfl, (Option.some.inj h).symm⟩)
  | cons best rest =>
    simp only at h
    split at h
    · rename_i hreview
      exact Or.inr (Or.inr ⟨best, rest, rfl, hreview, (Option.some.inj h).symm⟩)
    · cases h

theorem rejection_eq_detector :
    rejection config detection valid context = some .detectorConfidenceBelowMinimum ↔
      context.fatalProviderFailure = false ∧ (¬ Scalar.isFinite detection.confidence = true ∨
        detection.confidence < config.minimumEffectiveDetectorConfidence) := by
  constructor
  · intro h
    obtain ⟨-, h⟩ | ⟨hfatal, ⟨hdetector, -⟩ | ⟨-, h⟩ | ⟨_, _, -, -, h⟩⟩ := rejection_cases h
    · cases h
    · exact ⟨hfatal, hdetector⟩
    · cases h
    · cases h
  · rintro ⟨hfatal, hdetector⟩
    rw [Bool.not_eq_true, ← Bool.not_eq_true'] at hdetector
    unfold rejection
    rw [hfatal, if_neg Bool.false_ne_true, if_pos hdetector]

/-- A confidence that rejects is that of the best candidate. -/
theorem rejection_eq_review
    (h : rejection config detection valid context = some .candidateConfidenceBelowReview) :
    ∃ best rest, valid = best :: rest ∧
      effectiveValue best < config.reviewConfidenceThreshold := by
  obtain ⟨-, h⟩ | ⟨-, ⟨-, h⟩ | ⟨-, h⟩ | ⟨best, rest, hvalid, hlt, -⟩⟩ := rejection_cases h
  · cases h
  · cases h
  · cases h
  · exact ⟨best, rest, hvalid, hlt⟩

/-- The gates that reject do not look at the geometry, at the crops or at the acceptance. -/
theorem rejection_ne {reason : RecognitionDecisionReason}
    (h : rejection config detection valid context = some reason) :
    reason ≠ .geometryBelowMinimum ∧ reason ≠ .cropQualityBelowMinimum ∧
      reason ≠ .candidateConfidenceBelowAccept := by
  obtain ⟨-, rfl⟩ | ⟨-, ⟨-, rfl⟩ | ⟨-, rfl⟩ | ⟨_, _, -, -, rfl⟩⟩ := rejection_cases h <;> decide

theorem mem_reviewReasons :
    (.geometryBelowMinimum ∈ reviewReasons config detection result valid ↔
      ¬ Scalar.isFinite detection.geometryScore = true ∨
        detection.geometryScore < config.minimumGeometryScore) ∧
      (.cropQualityBelowMinimum ∈ reviewReasons config detection result valid ↔
        result.cropQuality < config.minimumCropQuality) ∧
      (.candidateConfidenceBelowAccept ∈ reviewReasons config detection result valid ↔
        result.confidence < config.acceptedConfidenceThreshold) ∧
      .candidateConfidenceBelowReview ∉ reviewReasons config detection result valid ∧
      .detectorConfidenceBelowMinimum ∉ reviewReasons config detection result valid := by
  simp only [reviewReasons, List.mem_append, List.mem_ite_nil_right, List.mem_singleton]
  simp

/-- Of its context a rejection reads the fatal failure only. -/
theorem rejection_congr {context' : RecognitionDecisionContext}
    (h : context.fatalProviderFailure = context'.fatalProviderFailure) :
    rejection config detection valid context = rejection config detection valid context' := by
  simp only [rejection, h]

end Reasons

end SafeDecisionPolicy

namespace LprPipeline

open Program SafeDecisionPolicy

variable {σ F D : Type} [Scalar F] [Scalar D] [World σ]

/-- **The reasons agree with the scores**: a reason that says a score is below its minimum is given
only if the reported score is. -/
structure ScoresAgree (config : DecisionConfig F) (recognition : PlateRecognitionResult F D) :
    Prop where
  detector : .detectorConfidenceBelowMinimum ∈ recognition.decisionReasons →
    recognition.detectorConfidence < config.minimumEffectiveDetectorConfidence
  geometry : .geometryBelowMinimum ∈ recognition.decisionReasons →
    recognition.geometryScore < config.minimumGeometryScore
  cropQuality : .cropQualityBelowMinimum ∈ recognition.decisionReasons →
    recognition.cropQuality < config.minimumCropQuality
  review : .candidateConfidenceBelowReview ∈ recognition.decisionReasons →
    recognition.confidence < config.reviewConfidenceThreshold
  accept : .candidateConfidenceBelowAccept ∈ recognition.decisionReasons →
    recognition.confidence < config.acceptedConfidenceThreshold

/-- The crop reaches the minimum quality. -/
def Reaches (minimum : F) (pass : CropPass F D) : Prop :=
  ¬ Scalar.clamp01 pass.crop.quality < minimum

/-- **A good crop is heard**: unless the candidates or the detector already reject, some recognizer
answered for a crop that reaches the minimum, if there is one.  The detector has a number for its
confidence. -/
structure GoodCropHeard (config : DecisionConfig F) (round : DetectionRound F D) : Prop where
  detector : Scalar.isFinite round.detection.confidence = true ∨
    round.detection.confidence < config.minimumEffectiveDetectorConfidence
  crops : rejection config round.detection (validCandidates round.fused)
      RecognitionDecisionContext.default = none → 0 < config.minimumCropQuality →
    (∃ pass ∈ round.loop.passes, Reaches config.minimumCropQuality pass) →
      ∃ pass ∈ round.loop.passes, pass.evidence ≠ [] ∧ Reaches config.minimumCropQuality pass

/-! ## The two qualities -/

section Qualities

variable [UnitScalar F] {deps : LprPipelineDependencies σ F D} {image : ImageView}
  {context : OperationContext} {source : Detection F} {round : DetectionRound F D} {minimum : F}

/-- **The reported quality** is that of the best crop. -/
theorem bestQuality_lt_iff (hround : DecidedRound deps image context source round) :
    round.loop.bestCropQuality < minimum ↔
      0 < minimum ∧ ∀ pass ∈ round.loop.passes, ¬ Reaches minimum pass := by
  rw [hround.quality_eq_foldl, Scalar.foldl_max_lt_iff _ UnitScalar.isFinite_zero]
  · simp [Reaches]
  · intro x hx
    obtain ⟨pass, hpass, rfl⟩ := List.mem_map.mp hx
    exact Scalar.isFinite_clamp01 (isFinite_quality_of_ran (hround.ran pass hpass))

/-- **The quality the policy compares** is that of the best crop with evidence. -/
theorem gatedQuality_lt_iff (hround : DecidedRound deps image context source round) :
    bestCropQuality round.loop.allEvidence < minimum ↔ 0 < minimum ∧
      ∀ pass ∈ round.loop.passes, pass.evidence ≠ [] → ¬ Reaches minimum pass := by
  have hitem : ∀ pass ∈ round.loop.passes, ∀ item ∈ pass.evidence,
      item.cropQuality = Scalar.clamp01 pass.crop.quality := fun pass hpass item hitem =>
    (evidence_of_ran (hround.ran pass hpass) item hitem).1.cropQuality
  have hfold : bestCropQuality round.loop.allEvidence =
      (round.loop.allEvidence.map RecognitionEvidence.cropQuality).foldl Scalar.max 0 := by
    rw [bestCropQuality, List.foldl_map]
  rw [hfold, Scalar.foldl_max_lt_iff _ UnitScalar.isFinite_zero]
  · refine and_congr_right fun _ => ?_
    simp only [List.forall_mem_map, hround.evidence, List.mem_flatMap, Reaches, not_not]
    constructor
    · intro h pass hpass hnil
      obtain ⟨item, hmem⟩ := List.exists_mem_of_ne_nil _ hnil
      rw [← hitem pass hpass item hmem]
      exact h item ⟨pass, hpass, hmem⟩
    · rintro h item ⟨pass, hpass, hmem⟩
      rw [hitem pass hpass item hmem]
      exact h pass hpass (List.ne_nil_of_mem hmem)
  · intro x hx
    obtain ⟨item, hmem, rfl⟩ := List.mem_map.mp hx
    rw [hround.evidence] at hmem
    obtain ⟨pass, hpass, hmem⟩ := List.mem_flatMap.mp hmem
    rw [hitem pass hpass item hmem]
    exact Scalar.isFinite_clamp01 (isFinite_quality_of_ran (hround.ran pass hpass))

end Qualities

/-! ## One round -/

/-- What the recognition of a round reports, and why. -/
structure Reported (config : DecisionConfig F) (round : DetectionRound F D) : Prop where
  detectorConfidence : round.recognition.detectorConfidence = round.detection.confidence
  geometryScore : round.recognition.geometryScore = round.detection.geometryScore
  finite : Scalar.isFinite round.detection.geometryScore = true
  cropQuality : round.recognition.cropQuality = round.loop.bestCropQuality
  confidence : round.recognition.confidence =
    ((validCandidates round.fused).head?.map effectiveValue).getD 0
  reasons : ∃ gated : PlateRecognitionResult F D,
    gated.cropQuality = bestCropQuality round.loop.allEvidence ∧
      gated.confidence = round.recognition.confidence ∧ ∀ reason, reason ≠ .acceptedConsensus →
        (reason ∈ round.recognition.decisionReasons ↔
          rejection config round.detection (validCandidates round.fused)
              RecognitionDecisionContext.default = some reason ∨
            rejection config round.detection (validCandidates round.fused)
                RecognitionDecisionContext.default = none ∧
              reason ∈ reviewReasons config round.detection gated (validCandidates round.fused))

section Round

variable [UnitScalar F] {deps : LprPipelineDependencies σ F D} {p : SafeDecisionPolicy.Config F}
  {image : ImageView} {context : OperationContext} {source : Detection F}
  {round : DetectionRound F D}

theorem reported_of_decidedRound
    (hround : DecidedRound { deps with decisionPolicy := safePolicy p } image context source
      round) :
    Reported p.config round := by
  obtain ⟨_, decisionContext, totalLatencyMs, u, u', hfatal, hdecision, hresult⟩ := hround.decision
  obtain ⟨-, rfl⟩ := returns_safePolicy_decision p _ _ _ _ u _ u' hdecision
  obtain ⟨status, decisionReasons, hgates⟩ := applyGates_eq p.config round.detection
    (validCandidates round.fused) decisionContext
    (resultOf round.detection round.loop.allEvidence round.fused decisionContext)
  have hconfidence : round.recognition.confidence =
      ((validCandidates round.fused).head?.map effectiveValue).getD 0 := by
    rw [hresult, hgates]
    rfl
  refine ⟨?_, ?_, ?_, by rw [hresult], hconfidence,
    resultOf round.detection round.loop.allEvidence round.fused decisionContext, rfl,
    hconfidence.symm, fun reason hreason => ?_⟩
  · rw [hresult, hgates]
    rfl
  · rw [hresult, hgates]
    rfl
  · obtain ⟨geometryScore, hscore, hraw⟩ := hround.detection
    rw [hscore]
    rcases hraw with hzero | ⟨raw, hraw, hclamp⟩
    · exact hzero ▸ UnitScalar.isFinite_zero
    · exact hclamp ▸ Scalar.isFinite_clamp01 hraw
  · have hrejection : rejection p.config round.detection (validCandidates round.fused)
        RecognitionDecisionContext.default = rejection p.config round.detection
          (validCandidates round.fused) decisionContext := rejection_congr hfatal.symm
    rw [hresult, hrejection]
    exact mem_decisionReasons hreason

/-- **When the reasons of a recognition agree with its scores.** -/
theorem scoresAgree_round_iff
    (hround : DecidedRound { deps with decisionPolicy := safePolicy p } image context source
      round) :
    ScoresAgree p.config round.recognition ↔ GoodCropHeard p.config round := by
  have hreported := reported_of_decidedRound hround
  obtain ⟨gated, hgated, hgatedConfidence, hreasons⟩ := hreported.reasons
  obtain ⟨hgeometry, hcrop, haccept, hreview, hdetector⟩ :=
    @mem_reviewReasons F D _ p.config round.detection (validCandidates round.fused) gated
  constructor
  · intro h
    refine ⟨?_, fun hnone hpos hreaches => ?_⟩
    · by_contra hnot
      obtain ⟨hfinite, hlt⟩ := not_or.mp hnot
      have hrejected := (hreasons _ (by decide)).mpr
        (Or.inl (rejection_eq_detector.mpr ⟨rfl, Or.inl hfinite⟩))
      exact hlt (hreported.detectorConfidence ▸ h.detector hrejected)
    · by_contra hunheard
      have hgatedLt : gated.cropQuality < p.config.minimumCropQuality := by
        rw [hgated]
        exact (gatedQuality_lt_iff hround).mpr ⟨hpos, fun pass hpass hne hreach =>
          hunheard ⟨pass, hpass, hne, hreach⟩⟩
      have hlt := h.cropQuality
        ((hreasons _ (by decide)).mpr (Or.inr ⟨hnone, hcrop.mpr hgatedLt⟩))
      rw [hreported.cropQuality] at hlt
      obtain ⟨pass, hpass, hreach⟩ := hreaches
      exact ((bestQuality_lt_iff hround).mp hlt).2 pass hpass hreach
  · intro h
    refine ⟨fun hmem => ?_, fun hmem => ?_, fun hmem => ?_, fun hmem => ?_, fun hmem => ?_⟩
    · rcases (hreasons _ (by decide)).mp hmem with hrejected | ⟨-, hmem⟩
      · rw [hreported.detectorConfidence]
        obtain ⟨-, hinfinite | hlt⟩ := rejection_eq_detector.mp hrejected
        · exact h.detector.resolve_left hinfinite
        · exact hlt
      · exact absurd hmem hdetector
    · rcases (hreasons _ (by decide)).mp hmem with hrejected | ⟨-, hmem⟩
      · exact absurd rfl (rejection_ne hrejected).1
      · rw [hreported.geometryScore]
        exact (hgeometry.mp hmem).resolve_left fun hnot => hnot hreported.finite
    · rcases (hreasons _ (by decide)).mp hmem with hrejected | ⟨hnone, hmem⟩
      · exact absurd rfl (rejection_ne hrejected).2.1
      · have hlt := hcrop.mp hmem
        rw [hgated] at hlt
        obtain ⟨hpos, hunheard⟩ := (gatedQuality_lt_iff hround).mp hlt
        rw [hreported.cropQuality]
        refine (bestQuality_lt_iff hround).mpr ⟨hpos, fun pass hpass hreach => ?_⟩
        obtain ⟨heard, hheard, hne, hheardReach⟩ := h.crops hnone hpos ⟨pass, hpass, hreach⟩
        exact hunheard heard hheard hne hheardReach
    · rcases (hreasons _ (by decide)).mp hmem with hrejected | ⟨-, hmem⟩
      · obtain ⟨best, rest, hvalid, hlt⟩ := rejection_eq_review hrejected
        rw [hreported.confidence, hvalid]
        exact hlt
      · exact absurd hmem hreview
    · rcases (hreasons _ (by decide)).mp hmem with hrejected | ⟨-, hmem⟩
      · exact absurd rfl (rejection_ne hrejected).2.2
      · rw [← hgatedConfidence]
        exact haccept.mp hmem

end Round

/-! ## Every run -/

/-- **When the reported scores agree with the reported reasons.**  In every run that returns, every
recognition's reasons agree with its scores exactly if in every round a good crop is heard. -/
theorem scoresAgree_iff [UnitScalar F] (deps : LprPipelineDependencies σ F D)
    (p : SafeDecisionPolicy.Config F) (image : ImageView) (context : OperationContext) {s s' : σ}
    {result : LprPipelineResult F D}
    (h : recognize { deps with decisionPolicy := safePolicy p } image context s = .ok result s') :
    ∃ rounds, recognizeRounds { deps with decisionPolicy := safePolicy p } image context s =
        .ok (result, rounds) s' ∧
      ((∀ recognition ∈ result.recognitions, ScoresAgree p.config recognition) ↔
        ∀ round ∈ rounds, GoodCropHeard p.config round) := by
  obtain ⟨⟨result', rounds⟩, t, hrounds, hpure⟩ := bind_eq_ok.mp h
  cases hpure
  obtain ⟨hrecognitions, detections, -, -, -, hdecided⟩ :=
    returns_recognizeRounds_trace _ image context s _ _ hrounds
  refine ⟨rounds, hrounds, ?_⟩
  rw [hrecognitions, List.forall_mem_map]
  refine forall₂_congr fun round hround => ?_
  obtain ⟨source, -, hdecidedRound⟩ := forall₂_exists_left hdecided hround
  exact scoresAgree_round_iff hdecidedRound

/-! ### The good crop is the one no recognizer answers for -/

/-- A recognizer that fails on every crop wider than a pixel. -/
def narrowReader : PlateRecognizer Frozen ℚ ℚ where
  name := ascii "reader"
  recognize plate context :=
    if 1 < plate.width then Run.throw (providerError "too wide") else
      plateReader.recognize plate context

/-- A poor crop the recognizer reads, and a perfect one it fails on. -/
def halfHeardPipeline : LprPipelineDependencies Frozen ℚ ℚ :=
  { smallPipeline [detectionOf 1] with
    cropGenerator := fun _ _ _ _ =>
      pure [⟨⟨[0], 1, 1, 1, .gray8⟩, ascii "raw_bbox", ascii "source_image", 0, 1 / 10⟩,
        ⟨⟨[0, 0], 2, 1, 2, .gray8⟩, ascii "padded_bbox", ascii "source_image", 0, 1⟩]
    recognitionEnsemble := ⟨[⟨narrowReader, 1, 1000, false, true⟩], by decide +kernel⟩ }

theorem halfHeardPipeline_reports : ((recognize halfHeardPipeline onePixel ⟨none⟩).returned?
    Frozen.frozen).map (fun result => result.recognitions.map fun recognition =>
      (recognition.cropQuality, recognition.decisionReasons)) =
        some [(1, [.cropQualityBelowMinimum, .degradedProviderSet])] := by
  decide +kernel

/-- The reported scores do not always agree with the reported reasons. -/
theorem not_scoresAgree_halfHeardPipeline : ¬ ∀ (deps : LprPipelineDependencies Frozen ℚ ℚ)
    (p : SafeDecisionPolicy.Config ℚ) (image : ImageView) (context : OperationContext)
    (s s' : Frozen) (result : LprPipelineResult ℚ ℚ),
      (∀ (image : ImageView) (detection : Detection ℚ) (aligned : Option ImageBuffer)
        (context : OperationContext) (t : Frozen) (crops : List (CropHypothesis ℚ)) (t' : Frozen),
        deps.cropGenerator image detection aligned context t = .ok crops t' →
          ∀ crop ∈ crops, Scalar.isProbability crop.quality = true) →
      recognize { deps with decisionPolicy := safePolicy p } image context s = .ok result s' →
      ∀ recognition ∈ result.recognitions, ScoresAgree p.config recognition := by
  intro hclaim
  obtain ⟨result, hreturned, hreports⟩ := Option.map_eq_some_iff.mp halfHeardPipeline_reports
  obtain ⟨s', hrun⟩ := returned?_eq_some.mp hreturned
  have hrated : ∀ (image : ImageView) (detection : Detection ℚ) (aligned : Option ImageBuffer)
      (context : OperationContext) (t : Frozen) (crops : List (CropHypothesis ℚ)) (t' : Frozen),
      halfHeardPipeline.cropGenerator image detection aligned context t = .ok crops t' →
        ∀ crop ∈ crops, Scalar.isProbability crop.quality = true := by
    rintro image detection aligned context t crops t' hcrops
    cases hcrops
    decide +kernel
  have hagree := hclaim halfHeardPipeline SafeDecisionPolicy.Config.default onePixel ⟨none⟩ .frozen
    s' result hrated hrun
  obtain ⟨recognition, hmem, hscore⟩ := List.mem_map.mp
    (hreports ▸ List.mem_singleton_self ((1 : ℚ), _))
  obtain ⟨hquality, hreasons⟩ := Prod.mk.inj hscore
  have hlt := (hagree recognition hmem).cropQuality (hreasons ▸ by decide)
  rw [hquality] at hlt
  exact absurd hlt (by decide +kernel)

theorem scoresAgree_iff_halfHeardPipeline : ∃ (result : LprPipelineResult ℚ ℚ)
    (rounds : List (DetectionRound ℚ ℚ)), result.recognitions.length = 1 ∧
      ((∀ recognition ∈ result.recognitions,
          ScoresAgree SafeDecisionPolicy.Config.default.config recognition) ↔
        ∀ round ∈ rounds, GoodCropHeard SafeDecisionPolicy.Config.default.config round) := by
  obtain ⟨result, hreturned, hreports⟩ := Option.map_eq_some_iff.mp halfHeardPipeline_reports
  obtain ⟨s', hrun⟩ := returned?_eq_some.mp hreturned
  obtain ⟨rounds, -, hiff⟩ := scoresAgree_iff halfHeardPipeline SafeDecisionPolicy.Config.default
    onePixel ⟨none⟩ hrun
  exact ⟨result, rounds, by simpa using congrArg List.length hreports, hiff⟩

end LprPipeline

end FacLpr

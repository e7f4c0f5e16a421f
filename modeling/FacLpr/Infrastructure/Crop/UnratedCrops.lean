import FacLpr.Application.ConfidenceCalibration
import FacLpr.Application.DecisionTrace
import FacLpr.Application.TurkishPlateGrammar
import FacLpr.Infrastructure.Crop.CropHypothesisGenerator

/-!
# Infrastructure/Crop/UnratedCrops — the composed pipeline accepts nothing

`CropHypothesisGenerator` leaves the quality of every crop at zero, the ensemble carries it into the
evidence, and the policy's quality gate never passes: no recognition is accepted, ideal evidence
included (`ideal_evidence_not_accepted`).
-/

namespace FacLpr

open Program CropHypothesisGenerator

namespace LprPipeline

variable {σ F D : Type} [Scalar F] [Scalar D] [PixelArithmetic F D] [World σ]

/-- The repository's generator, calibrator, fusion and policy, around any other dependencies. -/
def production (generator : CropHypothesisGenerator F) (c : CandidateFusion.Config F)
    (p : SafeDecisionPolicy.Config F) (deps : LprPipelineDependencies σ F D) :
    LprPipelineDependencies σ F D :=
  { deps with
    cropGenerator := generator.generate D
    calibrator := fun source rawConfidence cropQuality cropType => Run.ofExcept
      (IdentityConfidenceCalibrator.calibrate source rawConfidence cropQuality cropType)
    candidateFusion := fun evidence layout => pure (CandidateFusion.fuse c evidence layout)
    decisionPolicy := safePolicy p }

/-- **Ideal evidence** for one plate: certain detections and geometry, a crop for each detection,
the plate read with confidence one by every recognizer off every crop, a reliable layout, no
failure. -/
structure IdealEvidence (deps : LprPipelineDependencies σ F D) (image : ImageView)
    (context : OperationContext) (plate : Text) : Prop where
  grammatical : TurkishPlateGrammar.default.isValidNormalized plate = true
  detections : ∃ detections, deps.detector image context = pure detections ∧
    ∀ detection ∈ detections, detection.confidence = 1 ∧
      ∃ aligned, deps.aligner image { detection with geometryScore := 1 } context = pure aligned ∧
        Returns (deps.cropGenerator image { detection with geometryScore := 1 } aligned context)
          fun crops => crops ≠ []
  geometry : ∀ detection, deps.geometry detection context = pure ⟨true, 1⟩
  recognizers : (∃ registration ∈ deps.recognitionEnsemble.recognizers, registration.enabled) ∧
    ∀ registration ∈ deps.recognitionEnsemble.recognizers, registration.enabled →
      registration.weight = 1 ∧ ∀ view context, ∃ item,
        registration.provider.recognize view context = pure item ∧
          item.candidates = [⟨plate, 1, 1, true⟩]
  layout : ∀ view candidates context, ∃ characterCount letterGroupSize,
    deps.layoutAnalyzer view candidates context = pure ⟨true, characterCount, letterGroupSize, 1⟩

omit [Scalar D] [PixelArithmetic F D] [World σ] in
/-- The evidence of unrated crops has quality zero. -/
theorem bestCropQuality_of_unrated [LawfulScalar F] {evidence : List (RecognitionEvidence F D)}
    (h : ∀ item ∈ evidence, item.cropQuality = 0) :
    SafeDecisionPolicy.bestCropQuality evidence = 0 := by
  unfold SafeDecisionPolicy.bestCropQuality
  induction evidence with
  | nil => rfl
  | cons item evidence ih =>
    rw [List.foldl_cons, h item List.mem_cons_self, Scalar.max_self]
    exact ih fun item hitem => h item (List.mem_cons_of_mem _ hitem)

/-- **The composed pipeline accepts nothing**, whatever its detector, its recognizers and its layout
analyzer return, under any policy that asks for a positive crop quality. -/
theorem ideal_evidence_not_accepted [LawfulScalar F] (generator : CropHypothesisGenerator F)
    (c : CandidateFusion.Config F) (p : SafeDecisionPolicy.Config F)
    (deps : LprPipelineDependencies σ F D) (image : ImageView) (context : OperationContext)
    (hminimum : 0 < p.config.minimumCropQuality) {s s' : σ} {result : LprPipelineResult F D}
    (h : recognize (production generator c p deps) image context s = .ok result s') :
    ∀ recognition ∈ result.recognitions, recognition.status ≠ .accepted := by
  intro recognition hrecognition
  obtain ⟨detections, t, t', -, hrounds⟩ := returns_recognize_trace _ _ _ s result s' h
  obtain ⟨source, -, round, rfl, hround⟩ := forall₂_exists_left hrounds hrecognition
  obtain ⟨aligned, v, v', hcrops⟩ := hround.crops
  have hunrated : Unrated (round.loop.passes.map CropPass.crop) :=
    returns_generate generator image round.detection aligned context v _ v' hcrops
  have hevidence : ∀ item ∈ round.loop.allEvidence, item.cropQuality = 0 := by
    rw [hround.evidence]
    intro item hitem
    obtain ⟨pass, hpass, hitem⟩ := List.mem_flatMap.mp hitem
    rw [(evidence_of_ran (hround.ran pass hpass) item hitem).1.cropQuality,
      hunrated pass.crop (List.mem_map_of_mem hpass), Scalar.clamp01_zero]
  obtain ⟨_, decisionContext, totalLatencyMs, u, u', -, hdecision, hresult⟩ := hround.decision
  obtain ⟨-, rfl⟩ := returns_safePolicy_decision p _ _ _ _ u _ u' hdecision
  rw [hresult]
  intro haccepted
  refine (SafeDecisionPolicy.status_accepted_iff.mp haccepted).1.cropQuality ?_
  rw [bestCropQuality_of_unrated hevidence]
  exact hminimum

/-! ### Ideal evidence that is sent to review -/

/-- One detection that fills a small grey image, read perfectly. -/
def idealPipeline : LprPipelineDependencies Frozen ℚ ℚ :=
  { smallPipeline [{ detectionOf 1 with bbox := ⟨0, 0, 16, 8⟩ }] with
    geometry := fun _ _ => pure ⟨true, 1⟩ }

/-- Its composition at the default configurations. -/
def idealProduction : LprPipelineDependencies Frozen ℚ ℚ :=
  production CropHypothesisGenerator.default CandidateFusion.Config.default
    SafeDecisionPolicy.Config.default idealPipeline

def greyImage : ImageView := ⟨List.replicate 128 0, 16, 8, 16, .gray8⟩

theorem idealEvidence_idealProduction :
    IdealEvidence idealProduction greyImage ⟨none⟩ (ascii "34ABC123") where
  grammatical := by decide +kernel
  detections := by
    refine ⟨_, rfl, fun detection hdetection => ?_⟩
    obtain rfl := List.mem_singleton.mp hdetection
    refine ⟨rfl, none, rfl, fun s crops s' hcrops hnil => ?_⟩
    have hnonempty : ((idealProduction.cropGenerator greyImage
        { detectionOf 1 with bbox := ⟨0, 0, 16, 8⟩, geometryScore := 1 } none ⟨none⟩).returned?
          Frozen.frozen).map List.isEmpty = some false := by decide +kernel
    obtain ⟨⟩ := s
    rw [returned?_eq_some.mpr ⟨s', hcrops⟩, hnil] at hnonempty
    cases hnonempty
  geometry _ := rfl
  recognizers := by
    refine ⟨⟨_, List.mem_singleton_self _, rfl⟩, fun registration hregistration _ => ?_⟩
    obtain rfl := List.mem_singleton.mp hregistration
    exact ⟨rfl, fun _ _ => ⟨_, rfl, rfl⟩⟩
  layout _ _ _ := ⟨none, none, rfl⟩

theorem idealProduction_reviews :
    ((recognize idealProduction greyImage ⟨none⟩).returned? Frozen.frozen).map (fun result =>
      result.recognitions.map fun recognition =>
        (recognition.status, recognition.decisionReasons)) =
        some [(.review, [.cropQualityBelowMinimum])] := by
  decide +kernel

/-- Ideal evidence is not always accepted. -/
theorem not_accepts_idealEvidence : ¬ ∀ (deps : LprPipelineDependencies Frozen ℚ ℚ)
    (image : ImageView) (context : OperationContext) (plate : Text) (s s' : Frozen)
    (result : LprPipelineResult ℚ ℚ),
      IdealEvidence (production CropHypothesisGenerator.default CandidateFusion.Config.default
        SafeDecisionPolicy.Config.default deps) image context plate →
      recognize (production CropHypothesisGenerator.default CandidateFusion.Config.default
        SafeDecisionPolicy.Config.default deps) image context s = .ok result s' →
      ∀ recognition ∈ result.recognitions,
        recognition.status = .accepted ∧ recognition.plate = plate := by
  intro hclaim
  obtain ⟨result, hreturned, hstatuses⟩ := Option.map_eq_some_iff.mp idealProduction_reviews
  obtain ⟨s', hrun⟩ := returned?_eq_some.mp hreturned
  have haccepted := hclaim idealPipeline greyImage ⟨none⟩ (ascii "34ABC123") .frozen s' result
    idealEvidence_idealProduction hrun
  have hreview : ∃ recognition ∈ result.recognitions, recognition.status = .review := by
    obtain ⟨recognition, hmem, heq⟩ := List.mem_map.mp
      (hstatuses ▸ List.mem_singleton_self (RecognitionStatus.review, _))
    exact ⟨recognition, hmem, congrArg Prod.fst heq⟩
  obtain ⟨recognition, hmem, hreview⟩ := hreview
  cases (haccepted recognition hmem).1.symm.trans hreview

theorem ideal_evidence_not_accepted_greyImage : ∃ result : LprPipelineResult ℚ ℚ,
    (recognize idealProduction greyImage ⟨none⟩).returned? Frozen.frozen = some result ∧
      ∀ recognition ∈ result.recognitions, recognition.status ≠ .accepted := by
  obtain ⟨result, hreturned, -⟩ := Option.map_eq_some_iff.mp idealProduction_reviews
  obtain ⟨s', hrun⟩ := returned?_eq_some.mp hreturned
  exact ⟨result, hreturned, ideal_evidence_not_accepted CropHypothesisGenerator.default
    CandidateFusion.Config.default SafeDecisionPolicy.Config.default idealPipeline greyImage ⟨none⟩
    (by decide +kernel) hrun⟩

end LprPipeline

end FacLpr

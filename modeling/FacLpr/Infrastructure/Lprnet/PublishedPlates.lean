import FacLpr.Application.DecisionTrace
import FacLpr.Infrastructure.Lprnet.BeamExactness
import FacLpr.Infrastructure.Lprnet.LprNetOnnxOcrAdapter

/-!
# Infrastructure/Lprnet/PublishedPlates — every published plate is grammatical

`Grammatical` candidates are those whose flag is right.  The beam search and its fallback produce
them, each stage up to the policy keeps them, and the plate of a recognition is the text of one that
is flagged (`published_plates_grammatical`).
-/

namespace FacLpr

open Program

/-- A candidate flagged format-valid has a text of the grammar. -/
def PlateCandidate.Grammatical {F : Type} (candidate : PlateCandidate F) : Prop :=
  candidate.formatValid = true →
    TurkishPlateGrammar.default.isValidNormalized candidate.text = true

/-- Every candidate of the item is grammatical. -/
def RecognitionEvidence.Grammatical {F D : Type} (evidence : RecognitionEvidence F D) : Prop :=
  ∀ candidate ∈ evidence.candidates, candidate.Grammatical

variable {σ F D W : Type} [Scalar F] [Scalar D] [Scalar W]

/-! ## The recognizer -/

section

variable [CtcArithmetic F W]

omit [Scalar D] in
/-- **The beam search flags grammatical texts only**, its fallback included. -/
theorem grammatical_of_decode {b : ConstrainedCtcBeamSearch F}
    (hgrammar : b.grammar = TurkishPlateGrammar.default) {logits : List F} {timesteps classes : ℕ}
    {result : ConstrainedCtcBeamSearchResult F}
    (h : b.decode W logits timesteps classes = .ok result) :
    ∀ candidate ∈ result.candidates, candidate.Grammatical := by
  obtain ⟨greedy, beam, -, -, -, -, -, -, hcandidates⟩ := ConstrainedCtcBeamSearch.decode_eq_ok h
  rintro candidate hcandidate hflag
  rcases hcandidates with ⟨-, hscored⟩ | ⟨-, -, hfallback⟩
  · rw [hscored] at hcandidate
    obtain ⟨score, hscore, -⟩ := ConstrainedCtcBeamSearch.mem_scoredCandidates hcandidate
    exact hgrammar ▸ ConstrainedCtcBeamSearch.isValidNormalized_of_find? hscore
  · rw [hfallback, List.mem_singleton] at hcandidate
    subst hcandidate
    simp only [ConstrainedCtcBeamSearch.fallbackCandidate, Bool.and_eq_true, Bool.not_eq_true',
      hgrammar] at hflag ⊢
    rw [if_neg (by simp [hflag.1])]
    exact hflag.2

omit [Scalar D] in
theorem grammatical_evidenceOf [Zero D] (adapter : LprNetOnnxOcrAdapter F)
    {decoded : ConstrainedCtcBeamSearchResult F}
    (h : ∀ candidate ∈ decoded.candidates, candidate.Grammatical) :
    (adapter.evidenceOf decoded : RecognitionEvidence F D).Grammatical := by
  intro candidate hcandidate
  simp only [LprNetOnnxOcrAdapter.evidenceOf] at hcandidate
  split at hcandidate
  · obtain rfl := List.mem_singleton.mp hcandidate
    exact fun hflag => nomatch hflag
  · obtain ⟨decodedCandidate, hmem, rfl⟩ := List.mem_map.mp hcandidate
    exact h decodedCandidate hmem

variable [World σ]

/-- **What the recognizer returns is grammatical**, whatever its session and its preprocessing. -/
theorem returns_recognizer (adapter : LprNetOnnxOcrAdapter F)
    {preprocess : ValidatedImage → Run σ (OrtValue F)} {recognizer : GenericOnnxOcrRecognizer σ F D}
    (h : recognizer.adapter = adapter.modelAdapter W preprocess) (plate : ImageView)
    (context : OperationContext) :
    Returns (recognizer.recognize plate context) RecognitionEvidence.Grammatical := by
  refine GenericOnnxOcrRecognizer.returns_recognize fun outputs context => ?_
  rw [h]
  refine (returns_self _).bind fun _ _ => returns_runOfExcept fun evidence hdecode => ?_
  obtain ⟨⟨logits, timesteps, classes⟩, -, hdecode⟩ := except_bind_eq_ok.mp hdecode
  obtain ⟨decoded, hdecoded, hdecode⟩ := except_bind_eq_ok.mp hdecode
  cases hdecode
  exact grammatical_evidenceOf adapter (grammatical_of_decode rfl hdecoded)

end

/-! ## The pipeline -/

section

variable [World σ]

/-- The ensemble completes an item and leaves its flags. -/
theorem grammatical_evidenceOf_ensemble {registration : RecognizerRegistration σ F D}
    {plate : ImageView} {context : OperationContext} (cropQuality : F)
    (h : Returns (registration.provider.recognize plate context) RecognitionEvidence.Grammatical) :
    Returns (RecognitionEnsemble.evidenceOf registration plate cropQuality context)
      RecognitionEvidence.Grammatical := by
  refine (returns_self _).bind fun _ _ => h.bind fun evidence hevidence => ?_
  refine (returns_self _).bind fun _ _ => returns_runOfExcept fun completed hcompleted => ?_
  obtain ⟨-, -, hcompleted⟩ := except_bind_eq_ok.mp hcompleted
  cases hcompleted
  intro candidate hcandidate
  obtain ⟨raw, hraw, rfl⟩ := List.mem_map.mp hcandidate
  exact hevidence raw hraw

omit [Scalar D] [World σ] in
/-- The calibration leaves the flags too. -/
theorem grammatical_calibrateEvidence (deps : LprPipelineDependencies σ F D)
    (crop : CropHypothesis F) {evidence : RecognitionEvidence F D} (h : evidence.Grammatical) :
    Returns (LprPipeline.calibrateEvidence deps crop evidence) RecognitionEvidence.Grammatical := by
  have hcandidate : ∀ candidate ∈ evidence.candidates,
      Returns (LprPipeline.calibrateCandidate deps crop evidence.source candidate)
        fun calibrated => PlateCandidate.Grammatical calibrated :=
    fun candidate hcandidate => (returns_self _).bind fun _ _ =>
      returns_pure (h candidate hcandidate)
  exact (Returns.mapM_all hcandidate).bind fun _ hcandidates => returns_pure hcandidates

/-- A recognizer around an LPRNet adapter, its session and its preprocessing whatever they are. -/
def IsLprNet (W : Type) [Scalar W] [CtcArithmetic F W] (provider : PlateRecognizer σ F D) : Prop :=
  ∃ (adapter : LprNetOnnxOcrAdapter F) (preprocess : ValidatedImage → Run σ (OrtValue F))
    (recognizer : GenericOnnxOcrRecognizer σ F D),
      recognizer.adapter = adapter.modelAdapter W preprocess ∧ provider = recognizer.provider

variable [CtcArithmetic F W]

/-- What the crops of a detection leave is grammatical. -/
theorem grammatical_of_ran {deps : LprPipelineDependencies σ F D} {context : OperationContext}
    (hlprnet : ∀ registration ∈ deps.recognitionEnsemble.recognizers,
      IsLprNet W registration.provider) {pass : CropPass F D}
    (h : LprPipeline.Ran deps context pass) : ∀ item ∈ pass.evidence, item.Grammatical := by
  obtain ⟨⟨s, s', hensemble⟩, ⟨t, t', hcalibration⟩, -⟩ := h
  have hitems : ∀ item ∈ pass.ensemble.evidence, item.Grammatical := by
    refine RecognitionEnsemble.returns_recognize_evidence (fun registration hregistration context =>
      grammatical_evidenceOf_ensemble _ ?_) s _ s' hensemble
    obtain ⟨adapter, preprocess, recognizer, hadapter, hprovider⟩ :=
      hlprnet registration hregistration
    rw [hprovider]
    exact returns_recognizer adapter hadapter _ _
  exact Returns.mapM_all (fun item hitem => grammatical_calibrateEvidence deps pass.crop
    (hitems item hitem)) t _ t' hcalibration

/-- The plate of a decision is the text of a flagged candidate, or empty when there is none. -/
theorem plate_resultOf (detection : Detection F) (evidence : List (RecognitionEvidence F D))
    (fused : List (PlateCandidate F)) (context : RecognitionDecisionContext) :
    (SafeDecisionPolicy.validCandidates fused = [] ∧
      (SafeDecisionPolicy.resultOf detection evidence fused context).plate = []) ∨
    ∃ candidate ∈ fused, candidate.formatValid = true ∧ candidate.text ≠ [] ∧ candidate.text =
      (SafeDecisionPolicy.resultOf detection evidence fused context).plate := by
  cases hvalid : SafeDecisionPolicy.validCandidates fused with
  | nil => exact Or.inl ⟨rfl, by simp [SafeDecisionPolicy.resultOf, hvalid]⟩
  | cons best rest =>
    have hbest : best ∈ SafeDecisionPolicy.validCandidates fused := by simp [hvalid]
    obtain ⟨hmem, hflag⟩ := List.mem_filter.mp (mem_stableSort.mp hbest)
    rw [Bool.and_eq_true, Bool.not_eq_true', List.isEmpty_eq_false_iff] at hflag
    exact Or.inr ⟨best, hmem, hflag.1, hflag.2, by simp [SafeDecisionPolicy.resultOf, hvalid]⟩

/-- **Every published plate is grammatical.**  In every run that returns, over recognizers that are
all LPRNet adapters with the repository's beam search and grammar, and with the repository's fusion
and policy, the plate of a recognition is empty or a plate of the grammar, an accepted one is not
empty, and every candidate flagged format-valid, in the evidence or among the alternatives, has a
plate of the grammar for its text. -/
theorem published_plates_grammatical (deps : LprPipelineDependencies σ F D)
    (c : CandidateFusion.Config F) (p : SafeDecisionPolicy.Config F) (image : ImageView)
    (context : OperationContext)
    (hlprnet : ∀ registration ∈ deps.recognitionEnsemble.recognizers,
      IsLprNet W registration.provider) {s s' : σ} {result : LprPipelineResult F D}
    (h : LprPipeline.recognize { deps with
        candidateFusion := fun evidence layout => pure (CandidateFusion.fuse c evidence layout)
        decisionPolicy := LprPipeline.safePolicy p } image context s = .ok result s') :
    ∀ recognition ∈ result.recognitions,
      (recognition.plate ≠ [] →
        TurkishPlateGrammar.default.isValidNormalized recognition.plate = true) ∧
      (recognition.status = .accepted → recognition.plate ≠ []) ∧
      (∀ item ∈ recognition.evidence, item.Grammatical) ∧
      ∀ candidate ∈ recognition.alternatives, candidate.Grammatical := by
  intro recognition hrecognition
  obtain ⟨detections, t, t', -, hrounds⟩ := LprPipeline.returns_recognize_trace _ _ _ s result s' h
  obtain ⟨source, -, round, rfl, hround⟩ := forall₂_exists_left hrounds hrecognition
  have hevidence : ∀ item ∈ round.loop.allEvidence, item.Grammatical := by
    rw [hround.evidence]
    intro item hitem
    obtain ⟨pass, hpass, hitem⟩ := List.mem_flatMap.mp hitem
    exact grammatical_of_ran (W := W) (by exact hlprnet) (hround.ran pass hpass) item hitem
  have hfused : ∀ candidate ∈ round.fused, candidate.Grammatical := by
    obtain ⟨u, u', hfuse⟩ := hround.fused
    have hfuse : CandidateFusion.fuse c round.loop.allEvidence round.loop.allLayout =
        round.fused := (EStateM.Result.ok.inj hfuse).1
    intro candidate hcandidate hflag
    obtain ⟨item, hitem, raw, hraw, htext, hrawFlag⟩ :=
      CandidateFusion.exists_of_mem_fuse (hfuse ▸ hcandidate) hflag
    exact htext ▸ hevidence item hitem raw hraw hrawFlag
  obtain ⟨_, decisionContext, totalLatencyMs, u, u', -, hdecision, hresult⟩ := hround.decision
  obtain ⟨-, rfl⟩ := LprPipeline.returns_safePolicy_decision p _ _ _ _ u _ u' hdecision
  have hplate := plate_resultOf round.detection round.loop.allEvidence round.fused decisionContext
  obtain ⟨status, decisionReasons, hgates⟩ := SafeDecisionPolicy.applyGates_eq p.config
    round.detection (SafeDecisionPolicy.validCandidates round.fused) decisionContext
    (SafeDecisionPolicy.resultOf round.detection round.loop.allEvidence round.fused decisionContext)
  rw [hresult]
  refine ⟨?_, ?_, ?_, ?_⟩
  · rw [hgates]
    intro hne
    rcases hplate with ⟨-, hnil⟩ | ⟨candidate, hcandidate, hflag, -, htext⟩
    · exact absurd hnil hne
    · exact htext ▸ hfused candidate hcandidate hflag
  · intro haccepted
    obtain ⟨-, best, rest, hvalid, -⟩ := SafeDecisionPolicy.status_accepted_iff.mp haccepted
    rcases hplate with ⟨hnone, -⟩ | ⟨candidate, -, -, hne, htext⟩
    · cases hnone.symm.trans hvalid
    · rw [hgates]
      exact htext ▸ hne
  · rw [hgates]
    exact hevidence
  · rw [hgates]
    exact hfused

end

/-! ### A plate read off one-hot rows -/

section OneHot

open ConstrainedCtcBeamSearch LprPipeline

attribute [local instance] oneHotArithmetic

def oneHotAdapter : LprNetOnnxOcrAdapter ℚ where
  config :=
    { inputName := ascii "input"
      outputName := ascii "output"
      outputLayout := .batchTimestepsClasses
      decoder := oneHotSearch.config }
  accepted := by decide +kernel

/-- A recognizer whose session always returns the one-hot logits. -/
def oneHotRecognizer : GenericOnnxOcrRecognizer Frozen ℚ ℚ where
  session :=
    { inputs := [ascii "input"]
      outputs := [ascii "output"]
      run := fun _ _ _ => pure [⟨true, true, [1, 11, 3], 33, some oneHotLogits⟩] }
  adapter := oneHotAdapter.modelAdapter ℚ≥0 fun _ => pure ⟨true, true, [1], 1, some [0]⟩
  accepted := by decide +kernel

/-- The small pipeline around that recognizer. -/
def oneHotPipeline : LprPipelineDependencies Frozen ℚ ℚ :=
  { smallPipeline [detectionOf 1] with
    recognitionEnsemble := ⟨[⟨oneHotRecognizer.provider, 1, 1000, false, true⟩],
      by decide +kernel⟩ }

theorem published_plates_grammatical_oneHot : ∃ result : LprPipelineResult ℚ ℚ,
    result.recognitions.map PlateRecognitionResult.plate = [ascii "11A1111"] ∧
      ∀ recognition ∈ result.recognitions, recognition.plate ≠ [] →
        TurkishPlateGrammar.default.isValidNormalized recognition.plate = true := by
  have hplates : ((recognize oneHotPipeline onePixel ⟨none⟩).returned? Frozen.frozen).map
      (fun result => result.recognitions.map PlateRecognitionResult.plate) =
        some [ascii "11A1111"] := by decide +kernel
  obtain ⟨result, hreturned, hplates⟩ := Option.map_eq_some_iff.mp hplates
  obtain ⟨s', hrun⟩ := returned?_eq_some.mp hreturned
  refine ⟨result, hplates, fun recognition hrecognition => ?_⟩
  refine (published_plates_grammatical (W := ℚ≥0) oneHotPipeline CandidateFusion.Config.default
    SafeDecisionPolicy.Config.default onePixel ⟨none⟩ ?_ hrun recognition hrecognition).1
  intro registration hregistration
  obtain rfl := List.mem_singleton.mp hregistration
  exact ⟨oneHotAdapter, _, oneHotRecognizer, rfl, rfl⟩

end OneHot

end FacLpr

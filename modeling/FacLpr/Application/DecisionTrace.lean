import FacLpr.Application.FailureAccounting

/-!
# Application/DecisionTrace — where the recognitions of a run come from

Every recognition is the policy's decision on what the crops of its detection left, with the
quality, the flag and the latency of the pipeline written over it (`DecidedRound`).  This holds for
any dependencies; what a result means is read off it, given the dependencies at hand.
-/

namespace FacLpr

open Program

namespace LprPipeline

variable {σ F D : Type} [Scalar F] [Scalar D] [World σ]

/-- The best quality over the crops. -/
def bestQuality (crops : List (CropHypothesis F)) : F :=
  crops.foldl (fun best crop => Scalar.max best (Scalar.clamp01 crop.quality)) 0

/-- A score the geometry stage may set. -/
def IsGeometryScore (score : F) : Prop :=
  score = 0 ∨ ∃ raw, Scalar.isFinite raw = true ∧ score = Scalar.clamp01 raw

/-- **One iteration over the detections, from its detection to its recognition.** -/
structure DecidedRound (deps : LprPipelineDependencies σ F D) (image : ImageView)
    (context : OperationContext) (source : Detection F) (round : DetectionRound F D) : Prop where
  detection : ∃ geometryScore, round.detection = { source with geometryScore } ∧
    IsGeometryScore geometryScore
  crops : ∃ aligned s s', deps.cropGenerator image round.detection aligned context s =
    .ok (round.loop.passes.map CropPass.crop) s'
  ran : ∀ pass ∈ round.loop.passes, Ran deps context pass
  evidence : round.loop.allEvidence = round.loop.passes.flatMap CropPass.evidence
  quality : round.loop.bestCropQuality = bestQuality (round.loop.passes.map CropPass.crop)
  fused : ∃ s s', deps.candidateFusion round.loop.allEvidence round.loop.allLayout s =
    .ok round.fused s'
  decision : ∃ decision decisionContext totalLatencyMs s s',
    decisionContext.fatalProviderFailure = false ∧
    deps.decisionPolicy round.detection round.loop.allEvidence round.fused decisionContext s =
      .ok decision s' ∧
    round.recognition = { decision with
      cropQuality := round.loop.bestCropQuality
      degraded := decision.degraded || decisionContext.degraded
      totalLatencyMs }

theorem DecidedRound.quality_eq_foldl {deps : LprPipelineDependencies σ F D} {image : ImageView}
    {context : OperationContext} {source : Detection F} {round : DetectionRound F D}
    (h : DecidedRound deps image context source round) : round.loop.bestCropQuality =
      (round.loop.passes.map fun pass => Scalar.clamp01 pass.crop.quality).foldl Scalar.max 0 := by
  rw [h.quality, bestQuality, List.foldl_map, List.foldl_map]

/-! ## The stages leave the recognitions alone -/

/-- The recognitions there were before the detection at hand, and no fatal failure. -/
def Keeps (recognitions : List (PlateRecognitionResult F D)) (tally : Tally F D) : Prop :=
  tally.result.recognitions = recognitions ∧ tally.decisionContext.fatalProviderFailure = false

variable {recognitions : List (PlateRecognitionResult F D)}

omit [Scalar F] in
theorem keeps_addTiming {tally : Tally F D} (h : Keeps recognitions tally) (stage : String)
    (detectionIndex cropIndex : ℕ) (started : ℤ) :
    Returns (addTiming stage detectionIndex cropIndex started tally : Run σ (Tally F D))
      (Keeps recognitions) :=
  (returns_self _).bind fun _ _ => returns_pure h

theorem returns_evaluateGeometry_trace (deps : LprPipelineDependencies σ F D)
    (context : OperationContext) (detectionIndex : ℕ) (source : Detection F) {tally : Tally F D}
    (h : Keeps recognitions tally) :
    Returns (evaluateGeometry deps context detectionIndex source tally) fun stage =>
      (∃ geometryScore, stage.1 = { source with geometryScore } ∧ IsGeometryScore geometryScore) ∧
        Keeps recognitions stage.2 := by
  refine (returns_self _).bind fun started _ => ?_
  refine (returns_catchProviderError (Q := fun stage : Detection F × Tally F D =>
    (∃ geometryScore, stage.1 = { source with geometryScore } ∧ IsGeometryScore geometryScore) ∧
      Keeps recognitions stage.2) ?_ fun code => ?_).bind fun stage ⟨hsource, hstage⟩ => ?_
  · refine (returns_self _).bind fun geometry _ => returns_pure ⟨⟨_, rfl, ?_⟩, h⟩
    cases hfinite : Scalar.isFinite geometry.score with
    | true => exact Or.inr ⟨geometry.score, hfinite, rfl⟩
    | false => exact Or.inl rfl
  · exact ⟨⟨0, rfl, Or.inl rfl⟩, h⟩
  · refine (keeps_addTiming hstage _ _ _ _).bind fun tally htally => ?_
    exact (returns_self _).bind fun _ _ => returns_pure ⟨hsource, htally⟩

theorem keeps_alignPlate (deps : LprPipelineDependencies σ F D) (image : ImageView)
    (context : OperationContext) (detectionIndex : ℕ) (detection : Detection F)
    {tally : Tally F D} (h : Keeps recognitions tally) :
    Returns (alignPlate deps image context detectionIndex detection tally) fun stage =>
      Keeps recognitions stage.2 := by
  refine (returns_self _).bind fun started _ => ?_
  refine (returns_catchProviderError (Q := fun stage : Option ImageBuffer × Tally F D =>
    Keeps recognitions stage.2) ((returns_self _).bind fun _ _ => returns_pure h)
      fun _ => h).bind fun stage hstage => ?_
  refine (keeps_addTiming hstage _ _ _ _).bind fun tally htally => ?_
  exact (returns_self _).bind fun _ _ => returns_pure htally

/-! ## The loop over the crops -/

/-- The lists of the loop, from its passes. -/
structure LoopTrace (deps : LprPipelineDependencies σ F D) (context : OperationContext)
    (recognitions : List (PlateRecognitionResult F D)) (loop : CropLoop F D) : Prop where
  recognitions : Keeps recognitions loop.tally
  ran : ∀ pass ∈ loop.passes, Ran deps context pass
  evidence : loop.allEvidence = loop.passes.flatMap CropPass.evidence
  quality : loop.bestCropQuality = bestQuality (loop.passes.map CropPass.crop)

theorem returns_cropStep_trace (deps : LprPipelineDependencies σ F D) (context : OperationContext)
    (detectionIndex : ℕ) {loop : CropLoop F D} (h : LoopTrace deps context recognitions loop)
    (indexed : CropHypothesis F × ℕ) :
    Returns (cropStep deps context detectionIndex loop indexed) fun next =>
      LoopTrace deps context recognitions next ∧
        next.passes.map CropPass.crop = loop.passes.map CropPass.crop ++ [indexed.1] := by
  obtain ⟨crop, cropIndex⟩ := indexed
  refine (returns_self _).bind fun started _ => ?_
  refine (returns_self _).bind fun ensemble hensemble => ?_
  refine (keeps_addTiming h.recognitions _ _ _ _).bind fun tally htally => ?_
  have hrecorded : Keeps recognitions (recordEnsemble ensemble tally) := htally
  refine (returns_self _).bind fun calibrationStarted _ => ?_
  refine (returns_self _).bind fun evidence hevidence => ?_
  refine (keeps_addTiming hrecorded _ _ _ _).bind fun tally htally => ?_
  refine (returns_self _).bind fun layoutStarted _ => ?_
  have hlayout : Returns (analyzeLayout deps context crop
      (evidence.flatMap RecognitionEvidence.candidates) tally) fun stage =>
        (∃ s s', analyzeLayout deps context crop (evidence.flatMap RecognitionEvidence.candidates)
          tally s = .ok stage s') ∧ Keeps recognitions stage.2 :=
    fun s stage s' hrun => ⟨⟨s, s', hrun⟩, returns_catchProviderError
      (Q := fun stage : LayoutEvidence F × Tally F D => Keeps recognitions stage.2)
      ((returns_self _).bind fun _ _ => returns_pure htally) (fun _ => htally) s stage s' hrun⟩
  refine hlayout.bind ?_
  rintro ⟨layout, tally'⟩ ⟨⟨s, s', hlayout⟩, htally'⟩
  refine (keeps_addTiming htally' _ _ _ _).bind fun tally'' htally'' => ?_
  refine (returns_self _).bind fun _ _ => returns_pure ⟨⟨htally'', ?_, ?_, ?_⟩, ?_⟩
  · intro pass hpass
    rcases List.mem_append.mp hpass with hpass | hpass
    · exact h.ran pass hpass
    · obtain rfl := List.mem_singleton.mp hpass
      exact ⟨hensemble, hevidence, tally, tally', s, s', hlayout⟩
  · simp [h.evidence]
  · simp [h.quality, bestQuality]
  · simp

theorem returns_cropLoop_trace (deps : LprPipelineDependencies σ F D) (context : OperationContext)
    (detectionIndex : ℕ) {tally : Tally F D} (h : Keeps recognitions tally)
    (crops : List (CropHypothesis F)) :
    Returns (crops.zipIdx.foldlM (cropStep deps context detectionIndex) ⟨tally, [], [], 0, []⟩)
      fun loop => LoopTrace deps context recognitions loop ∧
        loop.passes.map CropPass.crop = crops := by
  have hinitial : LoopTrace deps context recognitions
      (⟨tally, [], [], 0, []⟩ : CropLoop F D) :=
    ⟨h, fun pass hpass => absurd hpass List.not_mem_nil, rfl, rfl⟩
  refine (Returns.foldlM_rest (I := fun rest loop => LoopTrace deps context recognitions loop ∧
    loop.passes.map CropPass.crop ++ rest.map Prod.fst = crops) ?_
    ⟨hinitial, by simp [List.zipIdx_map_fst]⟩).mono fun loop ⟨hloop, hcrops⟩ =>
      ⟨hloop, by simpa using hcrops⟩
  rintro indexed rest loop ⟨hloop, hcrops⟩
  refine (returns_cropStep_trace deps context detectionIndex hloop indexed).mono
    fun next ⟨hnext, hpasses⟩ => ⟨hnext, ?_⟩
  rw [hpasses, ← hcrops]
  simp

/-! ## The loop over the detections -/

theorem returns_decideDetection_trace (deps : LprPipelineDependencies σ F D)
    (context : OperationContext) (started : ℤ) (detectionIndex : ℕ) (detection : Detection F)
    {loop : CropLoop F D} (h : Keeps recognitions loop.tally) :
    Returns (decideDetection deps context started detectionIndex detection loop)
      fun (result, fused, recognition) =>
        result.recognitions = recognitions ++ [recognition] ∧
        (∃ s s', deps.candidateFusion loop.allEvidence loop.allLayout s = .ok fused s') ∧
        ∃ decision decisionContext totalLatencyMs s s',
          decisionContext.fatalProviderFailure = false ∧
          deps.decisionPolicy detection loop.allEvidence fused decisionContext s =
            .ok decision s' ∧
          recognition = { decision with
            cropQuality := loop.bestCropQuality
            degraded := decision.degraded || decisionContext.degraded
            totalLatencyMs } := by
  refine (returns_self _).bind fun _ _ => ?_
  refine (returns_self _).bind fun fused hfused => ?_
  refine (keeps_addTiming h _ _ _ _).bind fun tally htally => ?_
  refine (returns_self _).bind fun _ _ => ?_
  refine (returns_self _).bind fun decision ⟨s, s', hdecision⟩ => ?_
  refine (returns_addTiming _ _ _ _ _).bind ?_
  rintro _ ⟨stageTimings, rfl⟩
  refine (returns_self _).bind fun _ _ => (returns_self _).bind fun _ _ =>
    returns_pure ⟨?_, hfused, ?_⟩
  · exact congrArg (· ++ [_]) htally.1
  · exact ⟨decision, tally.decisionContext, _, s, s', htally.2, hdecision, rfl⟩

theorem returns_detectionStep_trace (deps : LprPipelineDependencies σ F D) (image : ImageView)
    (context : OperationContext) (started : ℤ)
    (state : LprPipelineResult F D × List (DetectionRound F D)) (indexed : Detection F × ℕ) :
    Returns (detectionStep deps image context started state indexed) fun next =>
      ∃ round, next.2 = state.2 ++ [round] ∧
        next.1.recognitions = state.1.recognitions ++ [round.recognition] ∧
        DecidedRound deps image context indexed.1 round := by
  obtain ⟨source, detectionIndex⟩ := indexed
  have hinitial : Keeps state.1.recognitions
      (⟨state.1, RecognitionDecisionContext.default⟩ : Tally F D) := ⟨rfl, rfl⟩
  refine (returns_evaluateGeometry_trace deps context detectionIndex source hinitial).bind
    fun (detection, tally) ⟨hsource, htally⟩ => ?_
  refine (keeps_alignPlate deps image context detectionIndex detection htally).bind
    fun (aligned, tally) htally => ?_
  refine (returns_self _).bind fun _ _ => (returns_self _).bind fun crops hcrops => ?_
  refine (keeps_addTiming htally _ _ _ _).bind fun tally htally => ?_
  refine (returns_self _).bind fun _ _ => ?_
  refine (returns_cropLoop_trace deps context detectionIndex htally crops).bind
    fun loop ⟨hloop, hpasses⟩ => ?_
  refine (returns_decideDetection_trace deps context started detectionIndex detection
    hloop.recognitions).bind fun (result, fused, recognition) ⟨hresult, hfused, hdecision⟩ => ?_
  exact returns_pure ⟨_, rfl, hresult, hsource, ⟨aligned, hpasses ▸ hcrops⟩, hloop.ran,
    hloop.evidence, hpasses ▸ hloop.quality, hfused, hdecision⟩

/-- **Every run that returns decided a round for each detection.** -/
theorem returns_recognizeRounds_trace (deps : LprPipelineDependencies σ F D) (image : ImageView)
    (context : OperationContext) :
    Returns (recognizeRounds deps image context) fun (result, rounds) =>
      result.recognitions = rounds.map DetectionRound.recognition ∧
        ∃ detections t t', deps.detector image context t = .ok detections t' ∧
          List.Forall₂ (DecidedRound deps image context) detections rounds := by
  refine (returns_recognizeRounds_of_step deps image context (I := fun detections result rounds =>
    result.recognitions = rounds.map DetectionRound.recognition ∧
      List.Forall₂ (DecidedRound deps image context) detections rounds) ?_ ?_ ?_).mono
    fun ran ⟨_, detections, t, t', hdetect, hresult, hrounds⟩ =>
      ⟨hresult, detections, t, t', hdetect, hrounds⟩
  · exact fun stageTimings => ⟨rfl, List.Forall₂.nil⟩
  · rintro started done state indexed ⟨hstate, hdone⟩
    refine (returns_detectionStep_trace deps image context started state indexed).mono ?_
    rintro next ⟨round, hrounds, hrecognitions, hround⟩
    rw [hrounds]
    refine ⟨by simp [hrecognitions, hstate], ?_⟩
    exact List.rel_append hdone (List.Forall₂.cons hround List.Forall₂.nil)
  · exact fun detections result rounds totalLatencyMs h => h

/-- A round for each recognition of a result. -/
theorem returns_recognize_trace (deps : LprPipelineDependencies σ F D) (image : ImageView)
    (context : OperationContext) :
    Returns (recognize deps image context) fun result =>
      ∃ detections t t', deps.detector image context t = .ok detections t' ∧
        List.Forall₂ (fun source recognition => ∃ round, recognition = round.recognition ∧
          DecidedRound deps image context source round) detections result.recognitions := by
  refine (returns_recognizeRounds_trace deps image context).bind ?_
  rintro ⟨result, rounds⟩ ⟨hresult, detections, t, t', hdetect, hrounds⟩
  refine returns_pure ⟨detections, t, t', hdetect, ?_⟩
  rw [hresult, List.forall₂_map_right_iff]
  exact hrounds.imp fun source round h => ⟨round, rfl, h⟩

omit [World σ] in
/-- A decision of the repository's policy. -/
theorem returns_safePolicy_decision (p : SafeDecisionPolicy.Config F) (detection : Detection F)
    (evidence : List (RecognitionEvidence F D)) (fused : List (PlateCandidate F))
    (context : RecognitionDecisionContext) :
    Returns (safePolicy p detection evidence fused context : Run σ (PlateRecognitionResult F D))
      fun decision => SafeDecisionPolicy.checkInputs evidence fused = .ok () ∧
        SafeDecisionPolicy.applyGates p.config detection (SafeDecisionPolicy.validCandidates fused)
          context (SafeDecisionPolicy.resultOf detection evidence fused context) = decision :=
  returns_runOfExcept fun _ h => SafeDecisionPolicy.decide_eq_ok.mp h

/-! ## What a pass leaves -/

/-- An item as the ensemble completes it: checked candidates, the crop's quality, a latency. -/
structure Completed (σ : Type) [World σ] (cropQuality : F) (item : RecognitionEvidence F D) :
    Prop where
  cropQuality : item.cropQuality = Scalar.clamp01 cropQuality
  latency : ∃ started finished, IsReading σ started ∧ IsReading σ finished ∧
    item.latencyMs = Scalar.max 0 (elapsedMs started finished)
  candidates : ∀ candidate ∈ item.candidates, candidate.text ≠ [] ∧
    Scalar.isProbability candidate.confidence = true

theorem returns_evidenceOf (registration : RecognizerRegistration σ F D) (plate : ImageView)
    (cropQuality : F) (context : OperationContext) :
    Returns (RecognitionEnsemble.evidenceOf registration plate cropQuality context)
      (Completed σ cropQuality) := by
  refine returns_now.bind fun started hstarted => (returns_self _).bind fun evidence _ => ?_
  refine returns_now.bind fun finished hfinished =>
    returns_runOfExcept fun completed hcompleted => ?_
  obtain ⟨_, hvalid, hcompleted⟩ := except_bind_eq_ok.mp hcompleted
  cases hcompleted
  refine ⟨rfl, ⟨started, finished, hstarted, hfinished, rfl⟩, fun candidate hcandidate => ?_⟩
  obtain ⟨raw, hraw, rfl⟩ := List.mem_map.mp hcandidate
  have hraw := List.all_eq_true.mp (require_eq_ok.mp hvalid) raw hraw
  simp only [RecognitionEnsemble.isValidCandidate, Bool.and_eq_true, Bool.not_eq_true',
    List.isEmpty_eq_false_iff] at hraw
  exact ⟨hraw.1.1, hraw.1.2⟩

/-- The ensemble ran on crops of finite quality only. -/
theorem isFinite_quality_of_ran {deps : LprPipelineDependencies σ F D} {context : OperationContext}
    {pass : CropPass F D} (h : Ran deps context pass) :
    Scalar.isFinite pass.crop.quality = true := by
  obtain ⟨s, s', hrun⟩ := h.ensemble
  by_contra hfinite
  rw [Bool.not_eq_true] at hfinite
  simp only [RecognitionEnsemble.recognize, hfinite] at hrun
  cases hrun

/-- A candidate as the calibration leaves it. -/
def Calibrated (deps : LprPipelineDependencies σ F D) (crop : CropHypothesis F) (source : Text)
    (candidate : PlateCandidate F) : Prop :=
  ∃ calibrated s s', deps.calibrator source candidate.confidence crop.quality crop.type s =
      .ok calibrated s' ∧
    candidate.calibratedConfidence =
      Scalar.clamp01 (calibrated * providerWeight deps.recognitionEnsemble source)

/-- **Every item of a pass** was completed by the ensemble and calibrated. -/
theorem evidence_of_ran {deps : LprPipelineDependencies σ F D} {context : OperationContext}
    {pass : CropPass F D} (h : Ran deps context pass) :
    ∀ item ∈ pass.evidence, Completed σ pass.crop.quality item ∧
      ∀ candidate ∈ item.candidates, Calibrated deps pass.crop item.source candidate := by
  obtain ⟨⟨s, s', hensemble⟩, ⟨t, t', hcalibration⟩, -⟩ := h
  have hitems := RecognitionEnsemble.returns_recognize_evidence
    (fun registration _ context => returns_evidenceOf registration pass.crop.image.view
      pass.crop.quality context) s _ s' hensemble
  refine Returns.mapM_all (fun item hitem => ?_) t _ t' hcalibration
  have hitem := hitems item hitem
  have hcandidate : ∀ candidate ∈ item.candidates,
      Returns (calibrateCandidate deps pass.crop item.source candidate) fun calibrated =>
        (calibrated.text ≠ [] ∧ Scalar.isProbability calibrated.confidence = true) ∧
          Calibrated deps pass.crop item.source calibrated :=
    fun candidate hcandidate => (returns_self _).bind fun calibrated ⟨u, u', hrun⟩ =>
      returns_pure ⟨hitem.candidates candidate hcandidate, calibrated, u, u', hrun, rfl⟩
  refine (Returns.mapM_all hcandidate).bind fun candidates hcandidates => returns_pure ?_
  exact ⟨⟨hitem.cropQuality, hitem.latency, fun candidate hmem => (hcandidates candidate hmem).1⟩,
    fun candidate hmem => (hcandidates candidate hmem).2⟩

end LprPipeline

end FacLpr

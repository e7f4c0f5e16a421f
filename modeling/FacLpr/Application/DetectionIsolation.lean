import FacLpr.Application.FailureAccounting

/-!
# Application/DetectionIsolation — the plates of an image do not disturb each other

Two iterations over one detection, in whatever runs and after whatever other detections, do the same
up to latency (`tracks_detectionStep`): a relation between the two accumulators is carried through
the stages.  So the recognitions of a run are a map over its detections (`recognitions_isolated`).
-/

namespace FacLpr

open Program

variable {σ F D : Type} [Scalar F] [Scalar D]

/-- **Deterministic, stateless providers**: what each does depends on its inputs, the clock, the
deadline and the latencies aside. -/
structure LprPipelineDependencies.Deterministic (deps : LprPipelineDependencies σ F D) : Prop where
  geometry : ∀ detection context context',
    Agrees Eq (deps.geometry detection context) (deps.geometry detection context')
  aligner : ∀ image detection context context',
    Agrees Eq (deps.aligner image detection context) (deps.aligner image detection context')
  cropGenerator : ∀ image detection aligned context context',
    Agrees Eq (deps.cropGenerator image detection aligned context)
      (deps.cropGenerator image detection aligned context')
  recognizers : ∀ registration ∈ deps.recognitionEnsemble.recognizers, ∀ plate context context',
    Agrees (fun e e' => e.withoutLatency = e'.withoutLatency)
      (registration.provider.recognize plate context)
      (registration.provider.recognize plate context')
  calibrator : ∀ source rawConfidence cropQuality cropType,
    Agrees Eq (deps.calibrator source rawConfidence cropQuality cropType)
      (deps.calibrator source rawConfidence cropQuality cropType)
  layoutAnalyzer : ∀ plate candidates context context',
    Agrees Eq (deps.layoutAnalyzer plate candidates context)
      (deps.layoutAnalyzer plate candidates context')
  candidateFusion : ∀ (evidence evidence' : List (RecognitionEvidence F D)) layoutEvidence,
    evidence.map RecognitionEvidence.withoutLatency =
      evidence'.map RecognitionEvidence.withoutLatency →
    Agrees Eq (deps.candidateFusion evidence layoutEvidence)
      (deps.candidateFusion evidence' layoutEvidence)
  decisionPolicy : ∀ detection (evidence evidence' : List (RecognitionEvidence F D))
    fusedCandidates context, evidence.map RecognitionEvidence.withoutLatency =
      evidence'.map RecognitionEvidence.withoutLatency →
    Agrees (fun r r' => r.withoutLatency = r'.withoutLatency)
      (deps.decisionPolicy detection evidence fusedCandidates context)
      (deps.decisionPolicy detection evidence' fusedCandidates context)

/-! ## The repository's fusion and policy read no latency -/

/-- The fusion reads no latency. -/
theorem fuse_withoutLatency (c : CandidateFusion.Config F)
    (evidence : List (RecognitionEvidence F D)) (layoutEvidence : List (LayoutEvidence F)) :
    CandidateFusion.fuse c (evidence.map RecognitionEvidence.withoutLatency) layoutEvidence =
      CandidateFusion.fuse c evidence layoutEvidence := by
  simp only [CandidateFusion.fuse, CandidateFusion.ranked, CandidateFusion.aggregate,
    List.zipIdx_map, List.foldl_map]
  rfl

/-- Nor do the checks of the policy, -/
theorem checkInputs_withoutLatency (evidence : List (RecognitionEvidence F D))
    (fusedCandidates : List (PlateCandidate F)) :
    SafeDecisionPolicy.checkInputs (evidence.map RecognitionEvidence.withoutLatency)
      fusedCandidates = SafeDecisionPolicy.checkInputs evidence fusedCandidates := by
  unfold SafeDecisionPolicy.checkInputs
  congr 1
  induction evidence with
  | nil => rfl
  | cons item evidence ih => exact congrArg _ (funext fun _ => ih)

/-- nor its gates, -/
theorem applyGates_withoutLatency (config : DecisionConfig F) (detection : Detection F)
    (valid : List (PlateCandidate F)) (context : RecognitionDecisionContext)
    (result : PlateRecognitionResult F D) :
    SafeDecisionPolicy.applyGates config detection valid context result.withoutLatency =
      (SafeDecisionPolicy.applyGates config detection valid context result).withoutLatency := by
  have hreasons : SafeDecisionPolicy.reviewReasons config detection result.withoutLatency valid =
    SafeDecisionPolicy.reviewReasons config detection result valid := rfl
  unfold SafeDecisionPolicy.applyGates
  rw [hreasons]
  split
  · rfl
  · split <;> rfl

/-- nor its decision. -/
theorem decide_withoutLatency (p : SafeDecisionPolicy.Config F) (detection : Detection F)
    (evidence : List (RecognitionEvidence F D)) (fusedCandidates : List (PlateCandidate F))
    (context : RecognitionDecisionContext) :
    SafeDecisionPolicy.decide p detection (evidence.map RecognitionEvidence.withoutLatency)
      fusedCandidates context =
      (SafeDecisionPolicy.decide p detection evidence fusedCandidates context).map
        PlateRecognitionResult.withoutLatency := by
  have hresult : SafeDecisionPolicy.resultOf detection
      (evidence.map RecognitionEvidence.withoutLatency) fusedCandidates context =
      (SafeDecisionPolicy.resultOf detection evidence fusedCandidates context).withoutLatency := by
    simp only [SafeDecisionPolicy.resultOf, SafeDecisionPolicy.bestCropQuality, List.foldl_map]
    rfl
  unfold SafeDecisionPolicy.decide
  rw [checkInputs_withoutLatency, hresult, applyGates_withoutLatency]
  cases SafeDecisionPolicy.checkInputs evidence fusedCandidates <;> rfl

theorem agrees_safePolicy (p : SafeDecisionPolicy.Config F) (detection : Detection F)
    {evidence evidence' : List (RecognitionEvidence F D)}
    (fusedCandidates : List (PlateCandidate F)) (context : RecognitionDecisionContext)
    (h : evidence.map RecognitionEvidence.withoutLatency =
      evidence'.map RecognitionEvidence.withoutLatency) :
    Agrees (fun r r' => r.withoutLatency = r'.withoutLatency)
      (LprPipeline.safePolicy p detection evidence fusedCandidates context :
        Run σ (PlateRecognitionResult F D))
      (LprPipeline.safePolicy p detection evidence' fusedCandidates context) := by
  have hdecide := decide_withoutLatency p detection evidence fusedCandidates context
  rw [h, decide_withoutLatency] at hdecide
  refine agrees_runOfExcept ?_
  generalize SafeDecisionPolicy.decide p detection evidence fusedCandidates context = v at hdecide ⊢
  generalize SafeDecisionPolicy.decide p detection evidence' fusedCandidates context = w
    at hdecide ⊢
  cases v with
  | error e =>
    cases w with
    | error e' => exact Or.inr ⟨e, rfl, hdecide⟩
    | ok r' => cases hdecide
  | ok r =>
    cases w with
    | error e' => cases hdecide
    | ok r' => exact Or.inl ⟨r, r', rfl, rfl, (Except.ok.inj hdecide).symm⟩

/-! ## The stages, side by side -/

omit [Scalar F] in
/-- Lists that are equal but for the latencies are so item by item. -/
theorem map_withoutLatency_eq {evidence evidence' : List (RecognitionEvidence F D)} :
    evidence.map RecognitionEvidence.withoutLatency =
        evidence'.map RecognitionEvidence.withoutLatency ↔
      List.Forall₂ (fun item item' => item.withoutLatency = item'.withoutLatency) evidence
        evidence' := by
  rw [← List.forall₂_eq_eq_eq, List.forall₂_map_left_iff, List.forall₂_map_right_iff]

/-- Two accumulators at the same detection, over the recognitions of whatever came before. -/
structure Tally.Alike (recognitions recognitions' : List (PlateRecognitionResult F D))
    (tally tally' : Tally F D) : Prop where
  decisionContext : tally.decisionContext = tally'.decisionContext
  left : tally.result.recognitions = recognitions
  right : tally'.result.recognitions = recognitions'

/-- Two results of the ensemble, up to latency. -/
structure RecognitionEnsembleResult.Alike (result result' : RecognitionEnsembleResult F D) :
    Prop where
  evidence : result.evidence.map RecognitionEvidence.withoutLatency =
    result'.evidence.map RecognitionEvidence.withoutLatency
  failures : result.failures = result'.failures
  degraded : result.degraded = result'.degraded

/-- Two loops over the same crops, up to latency. -/
structure CropLoop.Alike (recognitions recognitions' : List (PlateRecognitionResult F D))
    (loop loop' : CropLoop F D) : Prop where
  tally : loop.tally.Alike recognitions recognitions' loop'.tally
  evidence : loop.allEvidence.map RecognitionEvidence.withoutLatency =
    loop'.allEvidence.map RecognitionEvidence.withoutLatency
  layout : loop.allLayout = loop'.allLayout
  bestCropQuality : loop.bestCropQuality = loop'.bestCropQuality

omit [Scalar F] [Scalar D] in
/-- A failure is recorded in both tallies alike, -/
theorem alike_recordFailure {recognitions recognitions' : List (PlateRecognitionResult F D)}
    {tally tally' : Tally F D} (h : tally.Alike recognitions recognitions' tally')
    (provider : Text) (code : EngineErrorCode) :
    (LprPipeline.recordFailure provider code tally).Alike recognitions recognitions'
      (LprPipeline.recordFailure provider code tally') := by
  refine ⟨?_, h.left, h.right⟩
  simp only [LprPipeline.recordFailure, h.decisionContext]

omit [Scalar F] in
/-- and so is what an ensemble found. -/
theorem alike_recordEnsemble {recognitions recognitions' : List (PlateRecognitionResult F D)}
    {tally tally' : Tally F D} (h : tally.Alike recognitions recognitions' tally')
    {ensemble ensemble' : RecognitionEnsembleResult F D} (hensemble : ensemble.Alike ensemble') :
    (LprPipeline.recordEnsemble ensemble tally).Alike recognitions recognitions'
      (LprPipeline.recordEnsemble ensemble' tally') := by
  refine ⟨?_, h.left, h.right⟩
  simp only [LprPipeline.recordEnsemble, h.decisionContext, hensemble.failures, hensemble.degraded]

namespace LprPipeline

omit [Scalar F] [Scalar D] in
/-- A handler of provider failures keeps two runs in agreement. -/
theorem agrees_catchProviderError {α β : Type} {body : Run σ α} {body' : Run σ β}
    {handler : EngineErrorCode → α} {handler' : EngineErrorCode → β} {R : α → β → Prop}
    (hbody : Agrees R body body') (hhandler : ∀ code, R (handler code) (handler' code)) :
    Agrees R (catchProviderError body handler) (catchProviderError body' handler') := by
  refine hbody.tryCatch fun e => ?_
  cases e with
  | engine error =>
    simp only
    split
    · exact agrees_pure (hhandler _)
    · exact agrees_runThrow error R
  | foreign => exact agrees_throw _ R

section

variable [World σ] {recognitions recognitions' : List (PlateRecognitionResult F D)}
  {tally tally' : Tally F D}

omit [Scalar F] in
/-- Timings are no part of what tallies have in common. -/
theorem agrees_addTiming (h : tally.Alike recognitions recognitions' tally') (stage : String)
    (detectionIndex detectionIndex' cropIndex cropIndex' : ℕ) (started started' : ℤ) :
    Agrees (Tally.Alike recognitions recognitions')
      (addTiming stage detectionIndex cropIndex started tally : Run σ (Tally F D))
      (addTiming stage detectionIndex' cropIndex' started' tally') :=
  agrees_now.bind fun _ _ _ => agrees_pure ⟨h.decisionContext, h.left, h.right⟩

variable {deps : LprPipelineDependencies σ F D} (hdeps : deps.Deterministic)
  (context context' : OperationContext) (detectionIndex detectionIndex' : ℕ)

include hdeps

/-- **The geometry stage** does the same for a detection at any place, -/
theorem tracks_evaluateGeometry (detection : Detection F)
    (h : tally.Alike recognitions recognitions' tally') :
    Tracks IsInterruption (fun stage stage' => stage.1 = stage'.1 ∧
        stage.2.Alike recognitions recognitions' stage'.2)
      (evaluateGeometry deps context detectionIndex detection tally)
      (evaluateGeometry deps context' detectionIndex' detection tally') := by
  refine agrees_now.tracks.bind fun started started' _ => ?_
  refine (agrees_catchProviderError (R := fun stage stage' => stage.1 = stage'.1 ∧
    stage.2.Alike recognitions recognitions' stage'.2) ?_ fun code => ?_).tracks.bind
      fun stage stage' ⟨hdetection, hstage⟩ => ?_
  · refine (hdeps.geometry detection context context').bind ?_
    rintro geometry _ rfl
    exact agrees_pure ⟨rfl, h⟩
  · exact ⟨rfl, alike_recordFailure h _ _⟩
  · refine (agrees_addTiming hstage _ _ _ _ _ _ _).tracks.bind fun tally tally' htally => ?_
    exact (tracks_checkContext _ _ _ _).bind fun _ _ _ => tracks_pure ⟨hdetection, htally⟩

/-- and so does **the alignment**, -/
theorem tracks_alignPlate (image : ImageView) (detection : Detection F)
    (h : tally.Alike recognitions recognitions' tally') :
    Tracks IsInterruption (fun stage stage' => stage.1 = stage'.1 ∧
        stage.2.Alike recognitions recognitions' stage'.2)
      (alignPlate deps image context detectionIndex detection tally)
      (alignPlate deps image context' detectionIndex' detection tally') := by
  refine agrees_now.tracks.bind fun started started' _ => ?_
  refine (agrees_catchProviderError (R := fun stage stage' => stage.1 = stage'.1 ∧
    stage.2.Alike recognitions recognitions' stage'.2) ?_ fun code => ?_).tracks.bind
      fun stage stage' ⟨haligned, hstage⟩ => ?_
  · refine (hdeps.aligner image detection context context').bind ?_
    rintro aligned _ rfl
    exact agrees_pure ⟨rfl, h⟩
  · exact ⟨rfl, alike_recordFailure h _ _⟩
  · refine (agrees_addTiming hstage _ _ _ _ _ _ _).tracks.bind fun tally tally' htally => ?_
    exact (tracks_checkContext _ _ _ _).bind fun _ _ _ => tracks_pure ⟨haligned, htally⟩

omit [World σ] in
/-- **the layout stage** -/
theorem agrees_analyzeLayout (crop : CropHypothesis F) (candidates : List (PlateCandidate F))
    (h : tally.Alike recognitions recognitions' tally') :
    Agrees (fun stage stage' => stage.1 = stage'.1 ∧
        stage.2.Alike recognitions recognitions' stage'.2)
      (analyzeLayout deps context crop candidates tally)
      (analyzeLayout deps context' crop candidates tally') := by
  refine agrees_catchProviderError ?_ fun code => ⟨rfl, alike_recordFailure h _ _⟩
  refine (hdeps.layoutAnalyzer crop.image.view candidates context context').bind ?_
  rintro layout _ rfl
  exact agrees_pure ⟨rfl, h⟩

omit [World σ] in
/-- and **the calibration**. -/
theorem agrees_calibrateEvidence (crop : CropHypothesis F)
    {evidence evidence' : RecognitionEvidence F D}
    (h : evidence.withoutLatency = evidence'.withoutLatency) :
    Agrees (fun item item' => item.withoutLatency = item'.withoutLatency)
      (calibrateEvidence deps crop evidence) (calibrateEvidence deps crop evidence') := by
  obtain ⟨source, candidates, cropQuality, latencyMs⟩ := evidence
  obtain ⟨source', candidates', cropQuality', latencyMs'⟩ := evidence'
  simp only [RecognitionEvidence.withoutLatency, RecognitionEvidence.mk.injEq] at h
  obtain ⟨rfl, rfl, rfl, -⟩ := h
  have hcandidate : ∀ candidate candidate' : PlateCandidate F, candidate = candidate' →
      Agrees Eq (calibrateCandidate deps crop source candidate)
        (calibrateCandidate deps crop source candidate') := by
    rintro candidate _ rfl
    refine (hdeps.calibrator source candidate.confidence crop.quality crop.type).bind ?_
    rintro calibrated _ rfl
    exact agrees_pure rfl
  refine (agrees_mapM hcandidate (List.forall₂_refl candidates)).bind fun l l' hl => ?_
  rw [List.forall₂_eq_eq_eq] at hl
  exact agrees_pure (by rw [hl]; rfl)

/-! ## The ensemble and the loop over the crops -/

theorem agrees_evidenceOf {registration : RecognizerRegistration σ F D}
    (hregistration : registration ∈ deps.recognitionEnsemble.recognizers) (plate : ImageView)
    (cropQuality : F) :
    Agrees (fun item item' => item.withoutLatency = item'.withoutLatency)
      (RecognitionEnsemble.evidenceOf registration plate cropQuality context)
      (RecognitionEnsemble.evidenceOf registration plate cropQuality context') := by
  refine agrees_now.bind fun started started' _ => ?_
  refine (hdeps.recognizers registration hregistration plate context context').bind
    fun evidence evidence' hevidence => ?_
  refine agrees_now.bind fun finished finished' _ => agrees_runOfExcept ?_
  have hcandidates : evidence.withoutLatency.candidates = evidence'.withoutLatency.candidates :=
    congrArg RecognitionEvidence.candidates hevidence
  unfold RecognitionEnsemble.validateEvidence
  rw [show evidence.candidates = evidence'.candidates from hcandidates]
  cases hall : evidence'.candidates.all RecognitionEnsemble.isValidCandidate with
  | true => exact Or.inl ⟨_, _, rfl, rfl, rfl⟩
  | false => exact Or.inr ⟨_, rfl, rfl⟩

/-- One recognizer adds the same to two results that are alike. -/
theorem agrees_recognizerStep {registration : RecognizerRegistration σ F D}
    (hregistration : registration ∈ deps.recognitionEnsemble.recognizers) (plate : ImageView)
    (cropQuality : F) {result result' : RecognitionEnsembleResult F D} (h : result.Alike result') :
    Agrees RecognitionEnsembleResult.Alike
      (RecognitionEnsemble.recognizerStep plate cropQuality context result registration)
      (RecognitionEnsemble.recognizerStep plate cropQuality context' result' registration) := by
  unfold RecognitionEnsemble.recognizerStep
  split
  · exact agrees_pure h
  · have hcontext : Agrees (fun _ _ : OperationContext => True)
        (RecognitionEnsemble.providerContext context registration.timeout : Run σ OperationContext)
        (RecognitionEnsemble.providerContext context' registration.timeout) :=
      agrees_now.bind fun _ _ _ => agrees_pure trivial
    refine hcontext.bind fun childContext childContext' _ => Agrees.tryCatch ?_ fun e => ?_
    · refine (agrees_evidenceOf hdeps childContext childContext' hregistration plate
        cropQuality).bind fun item item' hitem => agrees_pure ⟨?_, h.failures, h.degraded⟩
      simp only [List.map_append, List.map_cons, List.map_nil, h.evidence, hitem]
    · cases registration.required with
      | true => exact agrees_runThrow _ _
      | false => exact agrees_pure ⟨h.evidence, by simp only [h.failures], rfl⟩

/-- **An ensemble** finds the same, but for the latencies. -/
theorem tracks_ensemble (plate : ImageView) (cropQuality : F) :
    Tracks IsInterruption RecognitionEnsembleResult.Alike
      (deps.recognitionEnsemble.recognize plate cropQuality context)
      (deps.recognitionEnsemble.recognize plate cropQuality context') := by
  unfold RecognitionEnsemble.recognize
  split
  · exact (agrees_runThrow _ _).tracks
  · refine (tracks_checkContext _ _ _ _).bind fun _ _ _ => ?_
    have hrefl : List.Forall₂ (fun registration registration' => registration = registration' ∧
        registration ∈ deps.recognitionEnsemble.recognizers)
        deps.recognitionEnsemble.recognizers deps.recognitionEnsemble.recognizers :=
      List.forall₂_same.mpr fun registration hregistration => ⟨rfl, hregistration⟩
    refine (agrees_foldlM (R := RecognitionEnsembleResult.Alike) ?_ hrefl
      ⟨rfl, rfl, rfl⟩).tracks.bind fun result result' h => ?_
    · rintro registration _ ⟨rfl, hregistration⟩ result result' h
      exact agrees_recognizerStep hdeps context context' hregistration plate cropQuality h
    · have hempty : result.evidence.isEmpty = result'.evidence.isEmpty := by
        rw [← List.isEmpty_map (f := RecognitionEvidence.withoutLatency), h.evidence,
          List.isEmpty_map]
      exact tracks_pure ⟨h.evidence, h.failures, by simp only [h.degraded, hempty, h.failures]⟩

/-- **One crop** of a detection adds the same, at whatever place the detection is, -/
theorem tracks_cropStep {loop loop' : CropLoop F D}
    (h : loop.Alike recognitions recognitions' loop') (crop : CropHypothesis F)
    (cropIndex cropIndex' : ℕ) :
    Tracks IsInterruption (CropLoop.Alike recognitions recognitions')
      (cropStep deps context detectionIndex loop (crop, cropIndex))
      (cropStep deps context' detectionIndex' loop' (crop, cropIndex')) := by
  refine agrees_now.tracks.bind fun _ _ _ => ?_
  refine (tracks_ensemble hdeps context context' _ _).bind fun ensemble ensemble' hensemble => ?_
  refine (agrees_addTiming h.tally _ _ _ _ _ _ _).tracks.bind fun tally tally' htally => ?_
  have htally := alike_recordEnsemble htally hensemble
  refine agrees_now.tracks.bind fun _ _ _ => ?_
  refine (agrees_mapM (fun item item' hitem => agrees_calibrateEvidence hdeps crop hitem)
    (map_withoutLatency_eq.mp hensemble.evidence)).tracks.bind
      fun evidence evidence' hevidence => ?_
  refine (agrees_addTiming htally _ _ _ _ _ _ _).tracks.bind fun tally tally' htally => ?_
  refine agrees_now.tracks.bind fun _ _ _ => ?_
  have hmap := map_withoutLatency_eq.mpr hevidence
  have hcandidates : evidence.flatMap RecognitionEvidence.candidates =
      evidence'.flatMap RecognitionEvidence.candidates := by
    have hflat := congrArg (List.flatMap RecognitionEvidence.candidates) hmap
    rwa [List.flatMap_map, List.flatMap_map] at hflat
  rw [hcandidates]
  refine (agrees_analyzeLayout hdeps context context' crop _ htally).tracks.bind ?_
  rintro ⟨layout, tally⟩ ⟨_, tally'⟩ ⟨rfl, htally⟩
  refine (agrees_addTiming htally _ _ _ _ _ _ _).tracks.bind fun tally tally' htally => ?_
  refine (tracks_checkContext _ _ _ _).bind fun _ _ _ => tracks_pure ⟨htally, ?_, ?_, ?_⟩
  · simp only [List.map_append, h.evidence, hmap]
  · simp only [h.layout, hevidence.length_eq]
  · simp only [h.bestCropQuality]

/-- and so does the loop over its crops. -/
theorem tracks_cropLoop (h : tally.Alike recognitions recognitions' tally')
    (crops : List (CropHypothesis F)) :
    Tracks IsInterruption (CropLoop.Alike recognitions recognitions')
      (crops.zipIdx.foldlM (cropStep deps context detectionIndex) ⟨tally, [], [], 0, []⟩)
      (crops.zipIdx.foldlM (cropStep deps context' detectionIndex') ⟨tally', [], [], 0, []⟩) := by
  refine tracks_foldlM (E := Eq) ?_ (List.forall₂_refl _) ⟨h, rfl, rfl, rfl⟩
  rintro ⟨crop, cropIndex⟩ _ rfl loop loop' hloop
  exact tracks_cropStep hdeps context context' detectionIndex detectionIndex' hloop crop _ _

/-! ## The loop over the detections -/

/-- **The decision** is the same, and is added behind the recognitions so far. -/
theorem tracks_decideDetection {loop loop' : CropLoop F D}
    (h : loop.Alike recognitions recognitions' loop') (detection : Detection F)
    (started started' : ℤ) :
    Tracks IsInterruption (fun decided decided' =>
        decided.1.recognitions = recognitions ++ [decided.2.2] ∧
        decided'.1.recognitions = recognitions' ++ [decided'.2.2] ∧
        decided.2.2.withoutLatency = decided'.2.2.withoutLatency)
      (decideDetection deps context started detectionIndex detection loop)
      (decideDetection deps context' started' detectionIndex' detection loop') := by
  refine agrees_now.tracks.bind fun _ _ _ => ?_
  rw [← h.layout]
  refine (hdeps.candidateFusion _ _ loop.allLayout h.evidence).tracks.bind ?_
  rintro fused _ rfl
  refine (agrees_addTiming h.tally _ _ _ _ _ _ _).tracks.bind fun tally tally' htally => ?_
  refine agrees_now.tracks.bind fun _ _ _ => ?_
  rw [← htally.decisionContext]
  refine (hdeps.decisionPolicy detection _ _ fused _ h.evidence).tracks.bind
    fun recognition recognition' hrecognition => ?_
  refine (agrees_addTiming htally _ _ _ _ _ _ _).tracks.bind fun tally tally' htally => ?_
  refine agrees_now.tracks.bind fun _ _ _ => ?_
  refine (tracks_checkContext _ _ _ _).bind fun _ _ _ => tracks_pure ⟨?_, ?_, ?_⟩
  · simp only [htally.left]
  · simp only [htally.right]
  · simp only [PlateRecognitionResult.withoutLatency, PlateRecognitionResult.mk.injEq]
      at hrecognition ⊢
    simp_all only [h.bestCropQuality, htally.decisionContext, and_self]

/-- **One detection, two iterations**: each appends a recognition, the same up to latency. -/
theorem tracks_detectionStep (image : ImageView) (detection : Detection F) (started started' : ℤ)
    (state state' : LprPipelineResult F D × List (DetectionRound F D)) :
    Tracks IsInterruption (fun next next' => ∃ recognition recognition',
        next.1.recognitions = state.1.recognitions ++ [recognition] ∧
        next'.1.recognitions = state'.1.recognitions ++ [recognition'] ∧
        recognition.withoutLatency = recognition'.withoutLatency)
      (detectionStep deps image context started state (detection, detectionIndex))
      (detectionStep deps image context' started' state' (detection, detectionIndex')) := by
  have hinitial : Tally.Alike state.1.recognitions state'.1.recognitions
      ⟨state.1, RecognitionDecisionContext.default⟩
      ⟨state'.1, RecognitionDecisionContext.default⟩ :=
    ⟨rfl, rfl, rfl⟩
  refine (tracks_evaluateGeometry hdeps context context' detectionIndex detectionIndex' detection
    hinitial).bind ?_
  rintro ⟨detection, tally⟩ ⟨_, tally'⟩ ⟨rfl, htally⟩
  refine (tracks_alignPlate hdeps context context' detectionIndex detectionIndex' image detection
    htally).bind ?_
  rintro ⟨aligned, tally⟩ ⟨_, tally'⟩ ⟨rfl, htally⟩
  refine agrees_now.tracks.bind fun _ _ _ => ?_
  refine (hdeps.cropGenerator image detection aligned context context').tracks.bind ?_
  rintro crops _ rfl
  refine (agrees_addTiming htally _ _ _ _ _ _ _).tracks.bind fun tally tally' htally => ?_
  refine (tracks_checkContext _ _ _ _).bind fun _ _ _ => ?_
  refine (tracks_cropLoop hdeps context context' detectionIndex detectionIndex' htally crops).bind
    fun loop loop' hloop => ?_
  refine (tracks_decideDetection hdeps context context' detectionIndex detectionIndex' hloop
    detection started started').bind ?_
  rintro ⟨result, fused, recognition⟩ ⟨result', fused', recognition'⟩ ⟨hleft, hright, hsame⟩
  exact tracks_pure ⟨recognition, recognition', hleft, hright, hsame⟩

end

section

variable [World σ]

/-- Some iteration over the detection appended the recognition. -/
def Recognized (deps : LprPipelineDependencies σ F D) (image : ImageView)
    (context : OperationContext) (detection : Detection F)
    (recognition : PlateRecognitionResult F D) : Prop :=
  ∃ started index state s next s',
    detectionStep deps image context started state (detection, index) s = .ok next s' ∧
      next.1.recognitions = state.1.recognitions ++ [recognition]

/-- What the detection is recognized as, latencies aside. -/
def RecognizedAs (deps : LprPipelineDependencies σ F D) (image : ImageView)
    (detection : Detection F) (erased : PlateRecognitionResult F D) : Prop :=
  ∃ context recognition, Recognized deps image context detection recognition ∧
    recognition.withoutLatency = erased

variable {deps : LprPipelineDependencies σ F D} (hdeps : deps.Deterministic)
  (image : ImageView) (context context' : OperationContext)

include hdeps

/-- A step of the loop over the detections adds one recognition, that of its detection. -/
theorem returns_detectionStep_recognized (started : ℤ)
    (state : LprPipelineResult F D × List (DetectionRound F D)) (indexed : Detection F × ℕ) :
    Returns (detectionStep deps image context started state indexed) fun next =>
      ∃ recognition, next.1.recognitions = state.1.recognitions ++ [recognition] ∧
        Recognized deps image context indexed.1 recognition := by
  obtain ⟨detection, index⟩ := indexed
  intro s next s' hrun
  rcases tracks_detectionStep hdeps context context index index image detection started started
    state state s next s' hrun s with ⟨_, _, _, recognition, _, hnext, -⟩ | ⟨e, t', hstop, -⟩
  · exact ⟨recognition, hnext, started, index, state, s, next, s', hrun, hnext⟩
  · cases hrun.symm.trans hstop

/-- **A recognition depends on its detection only.** -/
theorem recognized_unique {detection : Detection F}
    {recognition recognition' : PlateRecognitionResult F D}
    (h : Recognized deps image context detection recognition)
    (h' : Recognized deps image context' detection recognition') :
    recognition.withoutLatency = recognition'.withoutLatency := by
  obtain ⟨started, index, state, s, next, s', hrun, hnext⟩ := h
  obtain ⟨started', index', state', t, next', t', hrun', hnext'⟩ := h'
  rcases tracks_detectionStep hdeps context context' index index' image detection started started'
    state state' s next s' hrun t with ⟨_, _, hfollow, r, r', hr, hr', hsame⟩ | ⟨e, u, hstop, -⟩
  · cases hrun'.symm.trans hfollow
    rw [hnext, List.append_cancel_left_eq, List.cons.injEq] at hr
    rw [hnext', List.append_cancel_left_eq, List.cons.injEq] at hr'
    rw [hr.1, hr'.1, hsame]
  · cases hrun'.symm.trans hstop

/-- **Every run recognizes each detection once**, in the order of the detector. -/
theorem returns_recognize_recognized :
    Returns (recognize deps image context) fun result =>
      (∃ validated, validateImage image {} = .ok validated) ∧
        ∃ detections t t', deps.detector image context t = .ok detections t' ∧
          List.Forall₂ (Recognized deps image context) detections result.recognitions := by
  refine (returns_recognizeRounds_of_step deps image context (I := fun detections result _ =>
    List.Forall₂ (Recognized deps image context) detections result.recognitions) ?_ ?_ ?_).bind
      fun ran hran => returns_pure hran
  · exact fun stageTimings => List.Forall₂.nil
  · intro started done state indexed hdone
    refine (returns_detectionStep_recognized hdeps image context started state indexed).mono ?_
    rintro next ⟨recognition, hnext, hrecognized⟩
    rw [hnext]
    exact List.rel_append hdone (List.Forall₂.cons hrecognized List.Forall₂.nil)
  · exact fun detections result rounds totalLatencyMs h => h

/-- **One detection alone**: what an iteration does in any run, a run of its own does, unless it is
interrupted. -/
theorem tracks_recognizeOne {validated : ValidatedImage}
    (hvalidated : validateImage image {} = .ok validated) (detection : Detection F)
    (started : ℤ) (index : ℕ) (state : LprPipelineResult F D × List (DetectionRound F D)) :
    Tracks IsInterruption (fun next result => ∃ recognition recognition',
        next.1.recognitions = state.1.recognitions ++ [recognition] ∧
        result.recognitions = [recognition'] ∧
        recognition.withoutLatency = recognition'.withoutLatency)
      (detectionStep deps image context started state (detection, index))
      (recognize { deps with detector := fun _ _ => pure [detection] } image context') := by
  refine Tracks.andThen (R := fun next ran => ∃ recognition recognition',
      next.1.recognitions = state.1.recognitions ++ [recognition] ∧
      ran.1.recognitions = [recognition'] ∧
      recognition.withoutLatency = recognition'.withoutLatency) ?_
    fun next ran hran => tracks_pure hran
  have hnow : Tracks IsInterruption (fun (_ : Unit) (_ : ℤ) => True) (pure ()) (now : Run σ ℤ) :=
    tracks_of_returns fun t => ⟨_, _, rfl, fun _ => trivial⟩
  unfold recognizeRounds
  rw [hvalidated]
  refine Tracks.after hnow fun started' _ => ?_
  refine Tracks.after (tracks_checkContext _ _ _ _) fun _ _ => ?_
  refine Tracks.after (P := fun v => v = validated) (tracks_pure rfl) ?_
  rintro _ rfl
  refine Tracks.after hnow fun _ _ => ?_
  refine Tracks.after (P := fun detections => detections = [detection]) (tracks_pure rfl) ?_
  rintro _ rfl
  refine Tracks.after (P := fun tally => tally.result.recognitions = [])
    (tracks_of_returns fun t => ⟨_, _, rfl, fun _ => rfl⟩) fun tally htally => ?_
  refine Tracks.after (tracks_checkContext _ _ _ _) fun _ _ => ?_
  rw [validateImage_view hvalidated]
  refine Tracks.andThen (Tracks.andThen (tracks_detectionStep hdeps context context' index 0 image
    detection started started' state (tally.result, []))
      fun next next' hnext => tracks_pure hnext) ?_
  rintro next ⟨result, rounds⟩ ⟨recognition, recognition', hnext, hresult, hsame⟩
  rw [htally, List.nil_append] at hresult
  refine Tracks.after hnow fun _ _ => Tracks.after (P := fun _ => True) (tracks_of_returns ?_)
    fun _ _ => tracks_pure ⟨recognition, recognition', hnext, hresult, hsame⟩
  intro t
  cases deps.diagnostics <;> exact ⟨_, _, rfl, fun _ => trivial⟩

/-- What a detection is recognized as, a run with that detection alone returns too, unless it is
interrupted. -/
theorem recognized_alone {validated : ValidatedImage}
    (hvalidated : validateImage image {} = .ok validated) {detection : Detection F}
    {recognition : PlateRecognitionResult F D}
    (h : Recognized deps image context detection recognition) (t : σ) :
    (∃ single t' recognition', recognize { deps with detector := fun _ _ => pure [detection] }
        image context' t = .ok single t' ∧ single.recognitions = [recognition'] ∧
      recognition.withoutLatency = recognition'.withoutLatency) ∨
    ∃ e t', recognize { deps with detector := fun _ _ => pure [detection] } image context' t =
      .error e t' ∧ IsInterruption e := by
  obtain ⟨started, index, state, s, next, s', hrun, hnext⟩ := h
  rcases tracks_recognizeOne hdeps image context context' hvalidated detection started index state s
    next s' hrun t with ⟨single, t', hsingle, r, r', hr, hr', hsame⟩ | hstop
  · rw [hnext, List.append_cancel_left_eq, List.cons.injEq] at hr
    exact Or.inl ⟨single, t', r', hsingle, hr', hr.1 ▸ hsame⟩
  · exact Or.inr hstop

/-- A detection is recognized in one way, but for the latencies. -/
theorem rightUnique_recognizedAs : Relator.RightUnique (RecognizedAs deps image) := by
  rintro detection _ _ ⟨context, recognition, h, rfl⟩ ⟨context', recognition', h', rfl⟩
  exact recognized_unique hdeps image context context' h h'

omit hdeps in
theorem forall₂_recognizedAs {detections : List (Detection F)}
    {recognitions : List (PlateRecognitionResult F D)}
    (h : List.Forall₂ (Recognized deps image context) detections recognitions) :
    List.Forall₂ (RecognizedAs deps image) detections
      (recognitions.map PlateRecognitionResult.withoutLatency) :=
  List.forall₂_map_right_iff.mpr (h.imp fun _ recognition h => ⟨context, recognition, h, rfl⟩)

/-- **Detection isolation.**  For deterministic providers, every run that returns has one
recognition for each detection, in order.  Each is the recognition of a run over that detection
alone, which returns unless it is interrupted; in any other run that returns, over whatever
detections, an equal detection has an equal recognition, and the same detections in another order
have the same recognitions in that order.  All this up to latency. -/
theorem recognitions_isolated {s s' : σ} {result : LprPipelineResult F D}
    (h : recognize deps image context s = .ok result s') :
    ∃ detections, (∃ t t', deps.detector image context t = .ok detections t') ∧
      result.recognitions.length = detections.length ∧
      (∀ (i : ℕ) detection recognition, detections[i]? = some detection →
        result.recognitions[i]? = some recognition → ∀ context' t,
          (∃ single t' recognition', recognize { deps with detector := fun _ _ => pure [detection] }
              image context' t = .ok single t' ∧ single.recognitions = [recognition'] ∧
            recognition.withoutLatency = recognition'.withoutLatency) ∨
          ∃ e t', recognize { deps with detector := fun _ _ => pure [detection] } image context' t =
            .error e t' ∧ IsInterruption e) ∧
      ∀ detections' context' t t' result',
        recognize { deps with detector := fun _ _ => pure detections' } image context' t =
            .ok result' t' →
          (∀ (i j : ℕ) detection, detections[i]? = some detection →
            detections'[j]? = some detection →
              result.recognitions[i]?.map PlateRecognitionResult.withoutLatency =
                result'.recognitions[j]?.map PlateRecognitionResult.withoutLatency) ∧
          (detections'.Perm detections →
            (result'.recognitions.map PlateRecognitionResult.withoutLatency).Perm
              (result.recognitions.map PlateRecognitionResult.withoutLatency)) := by
  obtain ⟨⟨validated, hvalidated⟩, detections, u, u', hdetect, hrecognized⟩ :=
    returns_recognize_recognized hdeps image context s result s' h
  refine ⟨detections, ⟨u, u', hdetect⟩, hrecognized.length_eq.symm, ?_, ?_⟩
  · intro i detection recognition hdetection hrecognition context' t
    obtain ⟨r, hr, hrecognized⟩ := forall₂_getElem? hrecognized hdetection
    cases hr.symm.trans hrecognition
    exact recognized_alone hdeps image context context' hvalidated hrecognized t
  intro detections' context' t t' result' h'
  have hdeps' : ({ deps with detector := fun _ _ => pure detections' } :
      LprPipelineDependencies σ F D).Deterministic :=
    ⟨hdeps.geometry, hdeps.aligner, hdeps.cropGenerator, hdeps.recognizers, hdeps.calibrator,
      hdeps.layoutAnalyzer, hdeps.candidateFusion, hdeps.decisionPolicy⟩
  obtain ⟨-, _, _, _, hdetect', hrecognized'⟩ :=
    returns_recognize_recognized hdeps' image context' t result' t' h'
  cases hdetect'
  have hunique := rightUnique_recognizedAs hdeps image
  have hleft : List.Forall₂ (RecognizedAs deps image) detections
      (result.recognitions.map PlateRecognitionResult.withoutLatency) :=
    forall₂_recognizedAs image context hrecognized
  have hright : List.Forall₂ (RecognizedAs deps image) detections'
      (result'.recognitions.map PlateRecognitionResult.withoutLatency) :=
    forall₂_recognizedAs image context' hrecognized'
  refine ⟨fun i j detection hi hj => ?_, List.rel_perm_imp hunique hright hleft⟩
  obtain ⟨erased, hleft, h⟩ := forall₂_getElem? hleft hi
  obtain ⟨erased', hright, h'⟩ := forall₂_getElem? hright hj
  rw [← List.getElem?_map, ← List.getElem?_map, hleft, hright, hunique h h']

end

/-! ### The small pipeline is deterministic -/

/-- Its providers are deterministic. -/
theorem smallPipeline_deterministic (detections : List (Detection ℚ)) :
    (smallPipeline detections).Deterministic where
  geometry detection context context' := by
    simp only [smallPipeline]
    split
    · exact agrees_runThrow _ _
    · exact agrees_pure rfl
  aligner _ _ _ _ := agrees_pure rfl
  cropGenerator _ _ _ _ _ := agrees_pure rfl
  recognizers registration hregistration plate context context' := by
    obtain rfl := List.mem_singleton.mp hregistration
    exact agrees_pure rfl
  calibrator _ _ _ _ := agrees_pure rfl
  layoutAnalyzer _ _ _ _ := agrees_pure rfl
  candidateFusion evidence evidence' layoutEvidence h := by
    refine agrees_pure ?_
    rw [← fuse_withoutLatency, h, fuse_withoutLatency]
  decisionPolicy detection _ _ fusedCandidates context h :=
    agrees_safePolicy _ detection fusedCandidates context h

theorem recognitions_isolated_twoDetections : ∃ (result : LprPipelineResult ℚ ℚ)
    (s' : Frozen), recognize (smallPipeline [detectionOf 1, detectionOf (9 / 10)]) onePixel ⟨none⟩
      .frozen = .ok result s' ∧
    ∃ detections t t', (smallPipeline [detectionOf 1, detectionOf (9 / 10)]).detector onePixel
      ⟨none⟩ t = .ok detections t' ∧ result.recognitions.length = detections.length := by
  have hreturns : ((recognize (smallPipeline [detectionOf 1, detectionOf (9 / 10)]) onePixel
      ⟨none⟩).returned? Frozen.frozen).isSome = true := by decide +kernel
  obtain ⟨result, hreturned⟩ := Option.isSome_iff_exists.mp hreturns
  obtain ⟨s', hrun⟩ := returned?_eq_some.mp hreturned
  obtain ⟨detections, ⟨t, t', hdetect⟩, hlength, -⟩ :=
    recognitions_isolated (smallPipeline_deterministic _) onePixel ⟨none⟩ hrun
  exact ⟨result, s', hrun, detections, t, t', hdetect, hlength⟩

end LprPipeline

end FacLpr

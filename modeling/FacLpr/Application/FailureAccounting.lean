import FacLpr.Application.LprPipeline
import FacLpr.Application.SafeDecisionPolicy

/-!
# Application/FailureAccounting — every provider failure counted once

A `Tally` is kept in order by each stage (`Tally.Accounted`): its count, its flag and its list
agree, and so do those of the detection at hand.  The loop over the crops adds that the evidence and
the layouts run in parallel (`LoopSpec`).
-/

namespace FacLpr

open Program

variable {σ F D : Type}

/-- The count, the flag and the list of failures agree, for the whole result and, past `recorded`,
for the detection at hand; the recognitions are those there were. -/
structure Tally.Accounted (recorded : List ProviderFailure)
    (recognitions : List (PlateRecognitionResult F D)) (tally : Tally F D) : Prop where
  count : tally.result.providerFailureCount = tally.result.failures.length
  degraded : tally.result.degraded = true ↔ tally.result.failures ≠ []
  recognitions : tally.result.recognitions = recognitions
  own : ∃ own, tally.result.failures = recorded ++ own ∧
    (tally.decisionContext.degraded = true ↔ own ≠ []) ∧
    tally.decisionContext.providerFailureCount = own.length

namespace LprPipeline

theorem zip_replicate {α β : Type} (l : List α) (b : β) :
    l.zip (List.replicate l.length b) = l.map fun a => (a, b) := by
  induction l with
  | nil => rfl
  | cons a l ih => rw [List.length_cons, List.replicate_succ, List.zip_cons_cons, ih, List.map_cons]

theorem accounted_recordFailure {recorded : List ProviderFailure}
    {recognitions : List (PlateRecognitionResult F D)} {tally : Tally F D}
    (h : tally.Accounted recorded recognitions) (provider : Text) (code : EngineErrorCode) :
    (recordFailure provider code tally).Accounted recorded recognitions := by
  obtain ⟨own, hown, -, hcount⟩ := h.own
  refine ⟨?_, ?_, h.recognitions, own ++ [⟨provider, code⟩], ?_, ?_, ?_⟩
  · simp [recordFailure, h.count]
  · simp [recordFailure]
  · simp [recordFailure, hown]
  · simp [recordFailure]
  · simp [recordFailure, hcount]

theorem accounted_recordEnsemble {recorded : List ProviderFailure}
    {recognitions : List (PlateRecognitionResult F D)} {tally : Tally F D}
    (h : tally.Accounted recorded recognitions) {ensemble : RecognitionEnsembleResult F D}
    (hensemble : ensemble.degraded = true ↔ ensemble.failures ≠ []) :
    (recordEnsemble ensemble tally).Accounted recorded recognitions := by
  obtain ⟨own, hown, hdegraded, hcount⟩ := h.own
  have hflag : ∀ (flag : Bool) (failures : List ProviderFailure),
      (flag = true ↔ failures ≠ []) →
        ((flag || ensemble.degraded) = true ↔ failures ++ ensemble.failures ≠ []) := by
    intro flag failures hflag
    rw [Bool.or_eq_true, hflag, hensemble, Ne, Ne, Ne, List.append_eq_nil_iff]
    tauto
  refine ⟨?_, hflag _ _ h.degraded, h.recognitions, own ++ ensemble.failures, ?_,
    hflag _ _ hdegraded, ?_⟩
  · simp [recordEnsemble, h.count]
  · simp [recordEnsemble, hown]
  · simp [recordEnsemble, hcount]

variable [Scalar F] [Scalar D]

/-- A handled stage returns what the handler or the body makes of it. -/
theorem returns_catchProviderError {α : Type} {body : Run σ α} {handler : EngineErrorCode → α}
    {Q : α → Prop} (hbody : Returns body Q) (hhandler : ∀ code, Q (handler code)) :
    Returns (catchProviderError body handler) Q := by
  refine hbody.tryCatch fun e => ?_
  cases e with
  | engine error =>
    simp only
    split
    · exact returns_pure (hhandler _)
    · exact fun s a s' h => nomatch h
  | foreign => exact returns_throw _ _

section

variable [World σ]

omit [Scalar F] in
/-- A timing leaves everything else alone. -/
theorem returns_addTiming (stage : String) (detectionIndex cropIndex : ℕ) (started : ℤ)
    (tally : Tally F D) :
    Returns (addTiming stage detectionIndex cropIndex started tally : Run σ (Tally F D)) fun next =>
      ∃ stageTimings, next = { tally with result := { tally.result with stageTimings } } :=
  (returns_self _).bind fun _ _ => returns_pure ⟨_, rfl⟩

omit [Scalar F] in
theorem accounted_addTiming {recorded : List ProviderFailure}
    {recognitions : List (PlateRecognitionResult F D)} {tally : Tally F D}
    (h : tally.Accounted recorded recognitions) (stage : String) (detectionIndex cropIndex : ℕ)
    (started : ℤ) :
    Returns (addTiming stage detectionIndex cropIndex started tally : Run σ (Tally F D))
      (Tally.Accounted recorded recognitions) := by
  refine (returns_addTiming _ _ _ _ _).mono ?_
  rintro next ⟨stageTimings, rfl⟩
  exact ⟨h.count, h.degraded, h.recognitions, h.own⟩

theorem returns_evaluateGeometry (deps : LprPipelineDependencies σ F D) (context : OperationContext)
    (detectionIndex : ℕ) (detection : Detection F) {recorded : List ProviderFailure}
    {recognitions : List (PlateRecognitionResult F D)} {tally : Tally F D}
    (h : tally.Accounted recorded recognitions) :
    Returns (evaluateGeometry deps context detectionIndex detection tally) fun stage =>
      (∃ geometryScore, stage.1 = { detection with geometryScore }) ∧
        stage.2.Accounted recorded recognitions := by
  refine (returns_self _).bind fun started _ => ?_
  refine (returns_catchProviderError (Q := fun stage : Detection F × Tally F D =>
    (∃ geometryScore, stage.1 = { detection with geometryScore }) ∧
      stage.2.Accounted recorded recognitions) ?_ fun code => ?_).bind
        fun stage ⟨hsource, hstage⟩ => ?_
  · exact (returns_self _).bind fun geometry _ => returns_pure ⟨⟨_, rfl⟩, h⟩
  · exact ⟨⟨0, rfl⟩, accounted_recordFailure h _ _⟩
  · refine (accounted_addTiming hstage _ _ _ _).bind fun tally htally => ?_
    exact (returns_self _).bind fun _ _ => returns_pure ⟨hsource, htally⟩

theorem returns_alignPlate (deps : LprPipelineDependencies σ F D) (image : ImageView)
    (context : OperationContext) (detectionIndex : ℕ) (detection : Detection F)
    {recorded : List ProviderFailure} {recognitions : List (PlateRecognitionResult F D)}
    {tally : Tally F D} (h : tally.Accounted recorded recognitions) :
    Returns (alignPlate deps image context detectionIndex detection tally) fun stage =>
      stage.2.Accounted recorded recognitions := by
  refine (returns_self _).bind fun started _ => ?_
  refine (returns_catchProviderError (Q := fun stage : Option ImageBuffer × Tally F D =>
    stage.2.Accounted recorded recognitions) ?_ fun code => ?_).bind fun stage hstage => ?_
  · exact (returns_self _).bind fun aligned _ => returns_pure h
  · exact accounted_recordFailure h _ _
  · refine (accounted_addTiming hstage _ _ _ _).bind fun tally htally => ?_
    exact (returns_self _).bind fun _ _ => returns_pure htally

omit [Scalar D] [World σ] in
theorem returns_analyzeLayout (deps : LprPipelineDependencies σ F D) (context : OperationContext)
    (crop : CropHypothesis F) (candidates : List (PlateCandidate F))
    {recorded : List ProviderFailure} {recognitions : List (PlateRecognitionResult F D)}
    {tally : Tally F D} (h : tally.Accounted recorded recognitions) :
    Returns (analyzeLayout deps context crop candidates tally) fun stage =>
      stage.2.Accounted recorded recognitions :=
  returns_catchProviderError ((returns_self _).bind fun _ _ => returns_pure h)
    fun _ => accounted_recordFailure h _ _

/-! ## The loop over the crops -/

/-- The pass is what the ensemble, the calibration and the layout stage made of its crop. -/
structure Ran (deps : LprPipelineDependencies σ F D) (context : OperationContext)
    (pass : CropPass F D) : Prop where
  ensemble : ∃ s s', deps.recognitionEnsemble.recognize pass.crop.image.view pass.crop.quality
    context s = .ok pass.ensemble s'
  calibration : ∃ s s', (pass.ensemble.evidence.mapM (calibrateEvidence deps pass.crop)) s =
    .ok pass.evidence s'
  layout : ∃ (tally tally' : Tally F D) (s s' : σ), analyzeLayout deps context pass.crop
    (pass.evidence.flatMap RecognitionEvidence.candidates) tally s = .ok (pass.layout, tally') s'

/-- **The lists of the loop run in parallel**: an item and the layout at its place come from one
pass. -/
structure LoopSpec (deps : LprPipelineDependencies σ F D) (context : OperationContext)
    (recorded : List ProviderFailure) (recognitions : List (PlateRecognitionResult F D))
    (loop : CropLoop F D) : Prop where
  tally : loop.tally.Accounted recorded recognitions
  ran : ∀ pass ∈ loop.passes, Ran deps context pass
  lengths : loop.allEvidence.length = loop.allLayout.length
  pairs : loop.allEvidence.zip loop.allLayout =
    loop.passes.flatMap fun pass => pass.evidence.map fun item => (item, pass.layout)

theorem returns_cropStep (deps : LprPipelineDependencies σ F D) (context : OperationContext)
    (detectionIndex : ℕ) {recorded : List ProviderFailure}
    {recognitions : List (PlateRecognitionResult F D)} {loop : CropLoop F D}
    (h : LoopSpec deps context recorded recognitions loop) (indexed : CropHypothesis F × ℕ) :
    Returns (cropStep deps context detectionIndex loop indexed) fun next =>
      LoopSpec deps context recorded recognitions next ∧
        next.passes.map CropPass.crop = loop.passes.map CropPass.crop ++ [indexed.1] := by
  obtain ⟨crop, cropIndex⟩ := indexed
  refine (returns_self _).bind fun started _ => ?_
  have hensemble : Returns (deps.recognitionEnsemble.recognize crop.image.view crop.quality context)
      fun ensemble => (∃ s s', deps.recognitionEnsemble.recognize crop.image.view crop.quality
        context s = .ok ensemble s') ∧ (ensemble.degraded = true ↔ ensemble.failures ≠ []) :=
    fun s ensemble s' hrun => ⟨⟨s, s', hrun⟩, (RecognitionEnsemble.returns_recognize_accounted
      _ _ _ _ s ensemble s' hrun).2⟩
  refine hensemble.bind fun ensemble ⟨hran, hdegraded⟩ => ?_
  refine (accounted_addTiming h.tally _ _ _ _).bind fun tally htally => ?_
  have htally := accounted_recordEnsemble htally hdegraded
  refine (returns_self _).bind fun calibrationStarted _ => ?_
  refine (returns_self _).bind fun evidence hevidence => ?_
  refine (accounted_addTiming htally _ _ _ _).bind fun tally htally => ?_
  refine (returns_self _).bind fun layoutStarted _ => ?_
  have hlayout : Returns (analyzeLayout deps context crop
      (evidence.flatMap RecognitionEvidence.candidates) tally) fun stage =>
        (∃ s s', analyzeLayout deps context crop (evidence.flatMap RecognitionEvidence.candidates)
          tally s = .ok stage s') ∧ stage.2.Accounted recorded recognitions :=
    fun s stage s' hrun => ⟨⟨s, s', hrun⟩, returns_analyzeLayout _ _ _ _ htally s stage s' hrun⟩
  refine hlayout.bind fun stage ⟨⟨s, s', hrun⟩, hstage⟩ => ?_
  obtain ⟨layout, tally'⟩ := stage
  refine (accounted_addTiming hstage _ _ _ _).bind fun tally'' htally => ?_
  refine (returns_self _).bind fun _ _ => returns_pure ⟨⟨htally, ?_, ?_, ?_⟩, by simp⟩
  · intro pass hpass
    rcases List.mem_append.mp hpass with hpass | hpass
    · exact h.ran pass hpass
    · obtain rfl := List.mem_singleton.mp hpass
      exact ⟨hran, hevidence, tally, tally', s, s', hrun⟩
  · simp [h.lengths]
  · rw [List.zip_append h.lengths, h.pairs, List.flatMap_append, zip_replicate]
    simp

/-- **The whole loop** makes one pass for each crop. -/
theorem returns_cropLoop (deps : LprPipelineDependencies σ F D) (context : OperationContext)
    (detectionIndex : ℕ) {recorded : List ProviderFailure}
    {recognitions : List (PlateRecognitionResult F D)} {tally : Tally F D}
    (h : tally.Accounted recorded recognitions) (crops : List (CropHypothesis F)) :
    Returns (crops.zipIdx.foldlM (cropStep deps context detectionIndex) ⟨tally, [], [], 0, []⟩)
      fun loop => LoopSpec deps context recorded recognitions loop ∧
        loop.passes.map CropPass.crop = crops := by
  have hinitial : LoopSpec deps context recorded recognitions
      (⟨tally, [], [], 0, []⟩ : CropLoop F D) :=
    ⟨h, fun pass hpass => absurd hpass List.not_mem_nil, rfl, rfl⟩
  refine (Returns.foldlM_rest (I := fun rest loop =>
    LoopSpec deps context recorded recognitions loop ∧
      loop.passes.map CropPass.crop ++ rest.map Prod.fst = crops) ?_
    ⟨hinitial, by simp [List.zipIdx_map_fst]⟩).mono fun loop ⟨hloop, hcrops⟩ =>
      ⟨hloop, by simpa using hcrops⟩
  rintro indexed rest loop ⟨hloop, hcrops⟩
  refine (returns_cropStep deps context detectionIndex hloop indexed).mono
    fun next ⟨hnext, hpasses⟩ => ⟨hnext, ?_⟩
  rw [hpasses, ← hcrops]
  simp

/-! ## The loop over the detections -/

/-- The repository's policy as a dependency. -/
def safePolicy (p : SafeDecisionPolicy.Config F) (detection : Detection F)
    (evidence : List (RecognitionEvidence F D)) (fusedCandidates : List (PlateCandidate F))
    (context : RecognitionDecisionContext) : Run σ (PlateRecognitionResult F D) :=
  Run.ofExcept (SafeDecisionPolicy.decide p detection evidence fusedCandidates context)

omit [World σ] in
/-- **A detection whose providers failed is never accepted.** -/
theorem returns_safePolicy (p : SafeDecisionPolicy.Config F) (detection : Detection F)
    (evidence : List (RecognitionEvidence F D)) (fusedCandidates : List (PlateCandidate F))
    {context : RecognitionDecisionContext} (h : context.degraded = true) :
    Returns (safePolicy p detection evidence fusedCandidates context :
      Run σ (PlateRecognitionResult F D)) fun recognition => recognition.status ≠ .accepted := by
  refine returns_runOfExcept fun recognition hdecide haccepted => ?_
  obtain ⟨-, rfl⟩ := SafeDecisionPolicy.decide_eq_ok.mp hdecide
  have hdegraded := (SafeDecisionPolicy.status_accepted_iff.mp haccepted).1.degraded
  simp [SafeDecisionPolicy.isDegraded, h] at hdegraded

/-- What an iteration over the detections did. -/
structure RoundSpec (deps : LprPipelineDependencies σ F D) (image : ImageView)
    (context : OperationContext) (round : DetectionRound F D) : Prop where
  /-- There is a pass for each crop, in order. -/
  crops : ∃ aligned s s', deps.cropGenerator image round.detection aligned context s =
    .ok (round.loop.passes.map CropPass.crop) s'
  ran : ∀ pass ∈ round.loop.passes, Ran deps context pass
  lengths : round.loop.allEvidence.length = round.loop.allLayout.length
  pairs : round.loop.allEvidence.zip round.loop.allLayout =
    round.loop.passes.flatMap fun pass => pass.evidence.map fun item => (item, pass.layout)
  /-- These lists are what the fusion got. -/
  fused : ∃ s s', deps.candidateFusion round.loop.allEvidence round.loop.allLayout s =
    .ok round.fused s'
  flagged : round.failures ≠ [] →
    round.recognition.degraded = true ∧ round.recognition.status ≠ .accepted

/-- The round is the detection's own: the geometry stage writes its score, and nothing else changes
the detection. -/
def RoundOf (source : Detection F) (round : DetectionRound F D) : Prop :=
  ∃ geometryScore, round.detection = { source with geometryScore }

/-- The failures of a result are those of its rounds. -/
structure ResultSpec (deps : LprPipelineDependencies σ F D) (image : ImageView)
    (context : OperationContext) (result : LprPipelineResult F D)
    (rounds : List (DetectionRound F D)) : Prop where
  count : result.providerFailureCount = result.failures.length
  degraded : result.degraded = true ↔ result.failures ≠ []
  failures : result.failures = rounds.flatMap DetectionRound.failures
  recognitions : result.recognitions = rounds.map DetectionRound.recognition
  rounds : ∀ round ∈ rounds, RoundSpec deps image context round

theorem returns_decideDetection {deps : LprPipelineDependencies σ F D}
    {p : SafeDecisionPolicy.Config F} (hpolicy : deps.decisionPolicy = safePolicy p)
    (context : OperationContext) (pipelineStarted : ℤ) (detectionIndex : ℕ)
    (detection : Detection F) {recorded : List ProviderFailure}
    {recognitions : List (PlateRecognitionResult F D)} {loop : CropLoop F D}
    (h : loop.tally.Accounted recorded recognitions) :
    Returns (decideDetection deps context pipelineStarted detectionIndex detection loop)
      fun (result, fused, recognition) =>
        (∃ decisionContext, Tally.Accounted recorded (recognitions ++ [recognition])
          ⟨result, decisionContext⟩) ∧
        (∃ s s', deps.candidateFusion loop.allEvidence loop.allLayout s = .ok fused s') ∧
        (result.failures.drop recorded.length ≠ [] →
          recognition.degraded = true ∧ recognition.status ≠ .accepted) := by
  refine (returns_self _).bind fun fusionStarted _ => ?_
  refine (returns_self _).bind fun fused hfused => ?_
  refine (accounted_addTiming h _ _ _ _).bind fun tally htally => ?_
  refine (returns_self _).bind fun decisionStarted _ => ?_
  have hdecide : Returns (deps.decisionPolicy detection loop.allEvidence fused
      tally.decisionContext) fun recognition =>
        tally.decisionContext.degraded = true → recognition.status ≠ .accepted := by
    rw [hpolicy]
    intro s recognition s' hrun hdegraded
    exact returns_safePolicy p _ _ _ hdegraded s recognition s' hrun
  refine hdecide.bind fun recognition hstatus => ?_
  obtain ⟨own, hown, hdegraded, hcount⟩ := htally.own
  refine (returns_addTiming _ _ _ _ _).bind ?_
  rintro timed ⟨stageTimings, rfl⟩
  refine (returns_self _).bind fun finished _ => ?_
  refine (returns_self _).bind fun _ _ => returns_pure ⟨⟨tally.decisionContext, ?_⟩, hfused, ?_⟩
  · exact ⟨htally.count, htally.degraded, by simp [htally.recognitions], own, hown, hdegraded,
      hcount⟩
  · intro hfailed
    have hflag : tally.decisionContext.degraded = true := by
      refine hdegraded.mpr fun hnil => hfailed ?_
      simp [hown, hnil]
    exact ⟨by simp [hflag], hstatus hflag⟩

theorem returns_detectionStep {deps : LprPipelineDependencies σ F D}
    {p : SafeDecisionPolicy.Config F} (hpolicy : deps.decisionPolicy = safePolicy p)
    (image : ImageView) (context : OperationContext) (pipelineStarted : ℤ)
    {result : LprPipelineResult F D} {rounds : List (DetectionRound F D)}
    (h : ResultSpec deps image context result rounds) (indexed : Detection F × ℕ) :
    Returns (detectionStep deps image context pipelineStarted (result, rounds) indexed)
      fun next => ResultSpec deps image context next.1 next.2 ∧
        ∃ round, next.2 = rounds ++ [round] ∧ RoundOf indexed.1 round := by
  obtain ⟨source, detectionIndex⟩ := indexed
  have htally : Tally.Accounted result.failures result.recognitions
      ⟨result, RecognitionDecisionContext.default⟩ :=
    ⟨h.count, h.degraded, rfl, [], by simp, by simp [RecognitionDecisionContext.default], rfl⟩
  refine (returns_evaluateGeometry deps context detectionIndex source htally).bind
    fun (detection, tally) ⟨hsource, htally⟩ => ?_
  refine (returns_alignPlate deps image context detectionIndex detection htally).bind
    fun (aligned, tally) htally => ?_
  refine (returns_self _).bind fun cropStarted _ => ?_
  refine (returns_self _).bind fun crops hcrops => ?_
  refine (accounted_addTiming htally _ _ _ _).bind fun tally htally => ?_
  refine (returns_self _).bind fun _ _ => ?_
  refine (returns_cropLoop deps context detectionIndex htally crops).bind
    fun loop ⟨hloop, hpasses⟩ => ?_
  refine (returns_decideDetection hpolicy context pipelineStarted detectionIndex detection
    hloop.tally).bind
      fun (next, fused, recognition) ⟨⟨decisionContext, hnext⟩, hfused, hflagged⟩ => ?_
  obtain ⟨own, hown, -, -⟩ := hnext.own
  simp only at hown
  refine returns_pure ⟨⟨hnext.count, hnext.degraded, ?_, ?_, ?_⟩, _, rfl, hsource⟩
  · simp [hown, h.failures]
  · have hrecognitions := hnext.recognitions
    simp only at hrecognitions
    simp [hrecognitions, h.recognitions]
  · intro round hround
    rcases List.mem_append.mp hround with hround | hround
    · exact h.rounds round hround
    · obtain rfl := List.mem_singleton.mp hround
      exact ⟨⟨aligned, hpasses ▸ hcrops⟩, hloop.ran, hloop.lengths, hloop.pairs, hfused, hflagged⟩

/-- **The rule for a run**: an invariant on the detections done and on what they left, kept by an
iteration and blind to the latency, holds of all the detections in the end. -/
theorem returns_recognizeRounds_of_step (deps : LprPipelineDependencies σ F D) (image : ImageView)
    (context : OperationContext)
    {I : List (Detection F) → LprPipelineResult F D → List (DetectionRound F D) → Prop}
    (hinitial : ∀ stageTimings, I [] { emptyResult with stageTimings } [])
    (hstep : ∀ started done state (indexed : Detection F × ℕ), I done state.1 state.2 →
      Returns (detectionStep deps image context started state indexed) fun next =>
        I (done ++ [indexed.1]) next.1 next.2)
    (hlatency : ∀ detections result rounds totalLatencyMs, I detections result rounds →
      I detections { result with totalLatencyMs } rounds) :
    Returns (recognizeRounds deps image context) fun (result, rounds) =>
      (∃ validated, validateImage image {} = .ok validated) ∧
        ∃ detections t t', deps.detector image context t = .ok detections t' ∧
          I detections result rounds := by
  refine (returns_self _).bind fun started _ => (returns_self _).bind fun _ _ => ?_
  refine (returns_runOfExcept fun validated hvalidated => hvalidated).bind
    fun validated hvalidated => ?_
  rw [validateImage_view hvalidated]
  refine (returns_self _).bind fun _ _ => (returns_self _).bind
    fun detections ⟨t, t', hdetect⟩ => ?_
  refine (returns_addTiming _ _ _ _ _).bind ?_
  rintro _ ⟨stageTimings, rfl⟩
  refine (returns_self _).bind fun _ _ => ?_
  refine (Returns.foldlM_rest (I := fun rest state => ∃ done,
    detections = done ++ rest.map Prod.fst ∧ I done state.1 state.2) ?_ ?_).bind ?_
  · rintro indexed rest state ⟨done, hdetections, hdone⟩
    exact (hstep started done state indexed hdone).mono fun next hnext =>
      ⟨done ++ [indexed.1], by simpa using hdetections, hnext⟩
  · exact ⟨[], by simp [List.zipIdx_map_fst], hinitial stageTimings⟩
  · rintro ⟨result, rounds⟩ ⟨done, hdetections, hdone⟩
    have hall : detections = done := by simpa using hdetections
    refine (returns_self _).bind fun _ _ => (returns_self _).bind fun _ _ => returns_pure ?_
    exact ⟨⟨validated, hvalidated⟩, detections, t, t', hdetect, hall ▸ hlatency _ _ _ _ hdone⟩

theorem returns_recognizeRounds {deps : LprPipelineDependencies σ F D}
    {p : SafeDecisionPolicy.Config F} (hpolicy : deps.decisionPolicy = safePolicy p)
    (image : ImageView) (context : OperationContext) :
    Returns (recognizeRounds deps image context) fun (result, rounds) =>
      ResultSpec deps image context result rounds ∧
        ∃ detections t t', deps.detector image context t = .ok detections t' ∧
          List.Forall₂ RoundOf detections rounds := by
  refine (returns_recognizeRounds_of_step deps image context
    (I := fun detections result rounds => ResultSpec deps image context result rounds ∧
      List.Forall₂ RoundOf detections rounds) ?_ ?_ ?_).mono
    fun ran ⟨_, detections, t, t', hdetect, hresult, hrounds⟩ =>
      ⟨hresult, detections, t, t', hdetect, hrounds⟩
  · exact fun stageTimings => ⟨⟨rfl, by simp [emptyResult], rfl, rfl,
      fun round hround => absurd hround List.not_mem_nil⟩, List.Forall₂.nil⟩
  · rintro started done ⟨result, rounds⟩ indexed ⟨hresult, hrounds⟩
    refine (returns_detectionStep hpolicy image context started hresult indexed).mono ?_
    rintro ⟨next, _⟩ ⟨hnext, round, rfl, hround⟩
    exact ⟨hnext, List.rel_append hrounds (List.Forall₂.cons hround List.Forall₂.nil)⟩
  · rintro detections result rounds totalLatencyMs ⟨hresult, hrounds⟩
    exact ⟨⟨hresult.count, hresult.degraded, hresult.failures, hresult.recognitions,
      hresult.rounds⟩, hrounds⟩

/-- **Pipeline failure accounting.**  In every run that returns, the failure count is the number of
recorded failures, and the result is degraded when there is one.  The run made a round for each
detection, in their order, and in it a pass for each crop; a pass accounts for every active
recognizer, the evidence and the layouts handed to the fusion are those of the passes, place by
place, and a recognition whose round recorded a failure is flagged degraded and not accepted. -/
theorem recognize_accounts (deps : LprPipelineDependencies σ F D) (p : SafeDecisionPolicy.Config F)
    (image : ImageView) (context : OperationContext) {s s' : σ} {result : LprPipelineResult F D}
    (h : recognize { deps with decisionPolicy := safePolicy p } image context s = .ok result s') :
    ∃ rounds, recognizeRounds { deps with decisionPolicy := safePolicy p } image context s =
        .ok (result, rounds) s' ∧
      ResultSpec { deps with decisionPolicy := safePolicy p } image context result rounds ∧
      (∃ detections t t', deps.detector image context t = .ok detections t' ∧
        List.Forall₂ RoundOf detections rounds) ∧
      ∀ round ∈ rounds, ∀ pass ∈ round.loop.passes,
        pass.ensemble.evidence.length + pass.ensemble.failures.length =
          deps.recognitionEnsemble.recognizers.countP RecognitionEnsemble.isActive := by
  obtain ⟨⟨result', rounds⟩, t, hrounds, hpure⟩ := bind_eq_ok.mp h
  cases hpure
  obtain ⟨hresult, hdetections⟩ :=
    returns_recognizeRounds (p := p) rfl image context s _ _ hrounds
  refine ⟨rounds, hrounds, hresult, hdetections, fun round hround pass hpass => ?_⟩
  obtain ⟨u, u', hrun⟩ := ((hresult.rounds round hround).ran pass hpass).ensemble
  exact (RecognitionEnsemble.returns_recognize_accounted _ _ _ _ u _ u' hrun).1

/-! ### A pipeline whose geometry stage fails -/

/-- A recognizer that reads one plate off every crop. -/
def plateReader : PlateRecognizer Frozen ℚ ℚ where
  name := ascii "reader"
  recognize _ _ := pure ⟨ascii "reader", [⟨ascii "34ABC123", 1, 1, true⟩], 1, 0⟩

/-- One perfect crop for a detection, and no geometry for one that is not certain. -/
def smallPipeline (detections : List (Detection ℚ)) : LprPipelineDependencies Frozen ℚ ℚ where
  detector _ _ := pure detections
  geometry detection _ :=
    if detection.confidence < 1 then Run.throw (providerError "no geometry") else pure ⟨true, 1⟩
  aligner _ _ _ := pure none
  cropGenerator _ _ _ _ :=
    pure [⟨⟨[0], 1, 1, 1, .gray8⟩, ascii "raw_bbox", ascii "source_image", 0, 1⟩]
  recognitionEnsemble := ⟨[⟨plateReader, 1, 1000, false, true⟩], by decide +kernel⟩
  calibrator _ rawConfidence _ _ := pure rawConfidence
  layoutAnalyzer _ _ _ := pure ⟨true, none, none, 1⟩
  candidateFusion evidence layoutEvidence :=
    pure (CandidateFusion.fuse CandidateFusion.Config.default evidence layoutEvidence)
  decisionPolicy := safePolicy SafeDecisionPolicy.Config.default
  diagnostics := none

/-- A detection of the given confidence. -/
def detectionOf (confidence : ℚ) : Detection ℚ where
  bbox := ⟨0, 0, 1, 1⟩
  quadrilateral := none
  confidence
  geometryScore := 0
  provider := ascii "detector"

def onePixel : ImageView := ⟨[0], 1, 1, 1, .gray8⟩

/-- The second detection's geometry fails: its round has the failure, the first one's has none. -/
theorem recognize_accounts_oneFailure : ∃ (result : LprPipelineResult ℚ ℚ)
    (rounds : List (DetectionRound ℚ ℚ)), result.failures = [⟨ascii "geometry", .provider⟩] ∧
      rounds.map (fun round => (round.failures.length, round.recognition.degraded)) =
        [(0, false), (1, true)] ∧
      ResultSpec (smallPipeline [detectionOf 1, detectionOf (9 / 10)]) onePixel ⟨none⟩ result
        rounds ∧
      List.Forall₂ RoundOf [detectionOf 1, detectionOf (9 / 10)] rounds := by
  have hran : ((recognizeRounds (smallPipeline [detectionOf 1, detectionOf (9 / 10)]) onePixel
      ⟨none⟩).returned? Frozen.frozen).map (fun ran => (ran.1.failures, ran.2.map fun round =>
        (round.failures.length, round.recognition.degraded))) =
          some ([⟨ascii "geometry", .provider⟩], [(0, false), (1, true)]) := by decide +kernel
  obtain ⟨⟨result, made⟩, hreturned, hran⟩ := Option.map_eq_some_iff.mp hran
  obtain ⟨s', hrun⟩ := returned?_eq_some.mp hreturned
  have hrecognize : recognize (smallPipeline [detectionOf 1, detectionOf (9 / 10)]) onePixel ⟨none⟩
      Frozen.frozen = .ok result s' := bind_eq_ok.mpr ⟨(result, made), s', hrun, rfl⟩
  obtain ⟨rounds, hrounds, hresult, ⟨detections, t, t', hdetect, hof⟩, -⟩ := recognize_accounts
    (smallPipeline [detectionOf 1, detectionOf (9 / 10)]) SafeDecisionPolicy.Config.default onePixel
    ⟨none⟩ hrecognize
  cases hrun.symm.trans hrounds
  cases hdetect
  obtain ⟨hfailures, hflags⟩ := Prod.mk.inj hran
  exact ⟨result, made, hfailures, hflags, hresult, hof⟩

end

end LprPipeline

end FacLpr

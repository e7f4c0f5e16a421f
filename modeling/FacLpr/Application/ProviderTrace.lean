import FacLpr.Application.LprPipeline

/-!
# Application/ProviderTrace — what the providers answered in a run

`LprPipelineDependencies.traced` are the same dependencies over a world that keeps a list of answers
beside it: each recognizer, the calibrator and the layout analyzer add what they answered.  Nothing
reads the list, so the run is the same (`lifts_recognize`).
-/

namespace FacLpr

open Program

/-- An answer of a provider: what it returned or threw, and for a recognizer whether it is required
and whether the stop token was set when it answered. -/
inductive ProviderEvent (F D : Type) where
  | recognizer (required stopRequested : Bool) (answer : Except Exn (RecognitionEvidence F D))
  | calibrator (answer : Except Exn F)
  | layoutAnalyzer (answer : Except Exn (LayoutEvidence F))

/-- A world with the answers so far. -/
abbrev Traced (σ F D : Type) := σ × List (ProviderEvent F D)

variable {σ F D : Type}

/-- Add the event of an answer, made in the state the call leaves. -/
def Run.recorded {α : Type} (event : Except Exn α → σ → ProviderEvent F D) (x : Run σ α) :
    Run (Traced σ F D) α := fun (s, events) =>
  match x s with
  | .ok a s' => .ok a (s', events ++ [event (.ok a) s'])
  | .error e s' => .error e (s', events ++ [event (.error e) s'])

section

variable {α : Type} {event : Except Exn α → σ → ProviderEvent F D} {x : Run σ α} {s s' : σ}

/-- What was returned is recorded as returned. -/
theorem recorded_run_ok {a : α} (h : x s = .ok a s') (events : List (ProviderEvent F D)) :
    x.recorded event (s, events) = .ok a (s', events ++ [event (.ok a) s']) := by
  rw [Run.recorded, h]

/-- What was thrown is recorded as thrown. -/
theorem recorded_run_error {e : Exn} (h : x s = .error e s') (events : List (ProviderEvent F D)) :
    x.recorded event (s, events) = .error e (s', events ++ [event (.error e) s']) := by
  rw [Run.recorded, h]

/-- Recording an answer does not change it. -/
theorem lifts_recorded (event : Except Exn α → σ → ProviderEvent F D) (x : Run σ α) :
    Lifts x (x.recorded event) :=
  fun _ events => ⟨fun _ _ h => ⟨_, recorded_run_ok h events⟩,
    fun _ _ h => ⟨_, recorded_run_error h events⟩⟩

end

section

variable [World σ]

/-- The same recognizer, with its answers recorded. -/
def RecognizerRegistration.traced (registration : RecognizerRegistration σ F D) :
    RecognizerRegistration (Traced σ F D) F D :=
  { registration with provider := {
      name := registration.provider.name
      recognize := fun plate context => (registration.provider.recognize plate context).recorded
        fun answer s => .recognizer registration.required (World.stopRequested s).1 answer } }

theorem recognize_traced (registration : RecognizerRegistration σ F D) (plate : ImageView)
    (context : OperationContext) : registration.traced.provider.recognize plate context =
      (registration.provider.recognize plate context).recorded fun answer s =>
        .recognizer registration.required (World.stopRequested s).1 answer := rfl

/-- The recognizers pass the checks of the ensemble as before: names, weights and timeouts are the
same. -/
theorem check_traced [Scalar F] (recognizers : List (RecognizerRegistration σ F D)) :
    RecognitionEnsemble.check (recognizers.map RecognizerRegistration.traced) =
      RecognitionEnsemble.check recognizers := by
  unfold RecognitionEnsemble.check
  rw [List.isEmpty_map, List.foldlM_map]
  rfl

variable [Scalar F]

/-- The ensemble with the answers of its recognizers recorded. -/
def RecognitionEnsemble.traced (ensemble : RecognitionEnsemble σ F D) :
    RecognitionEnsemble (Traced σ F D) F D where
  recognizers := ensemble.recognizers.map RecognizerRegistration.traced
  accepted := (check_traced ensemble.recognizers).trans ensemble.accepted

/-- The dependencies over a world with the answers beside it. -/
def LprPipelineDependencies.traced (deps : LprPipelineDependencies σ F D) :
    LprPipelineDependencies (Traced σ F D) F D where
  detector image context := onFst (deps.detector image context)
  geometry detection context := onFst (deps.geometry detection context)
  aligner image detection context := onFst (deps.aligner image detection context)
  cropGenerator image detection aligned context :=
    onFst (deps.cropGenerator image detection aligned context)
  recognitionEnsemble := deps.recognitionEnsemble.traced
  calibrator source rawConfidence cropQuality cropType :=
    (deps.calibrator source rawConfidence cropQuality cropType).recorded
      fun answer _ => .calibrator answer
  layoutAnalyzer image candidates context :=
    (deps.layoutAnalyzer image candidates context).recorded fun answer _ => .layoutAnalyzer answer
  candidateFusion evidence layoutEvidence := onFst (deps.candidateFusion evidence layoutEvidence)
  decisionPolicy detection evidence fused context :=
    onFst (deps.decisionPolicy detection evidence fused context)
  diagnostics := deps.diagnostics.map fun diagnostics => {
    recordRecognition := fun status (s, events) =>
      (diagnostics.recordRecognition status s, events)
    recordProviderFailures := fun count (s, events) =>
      (diagnostics.recordProviderFailures count s, events)
    recordStageLatency := fun stage latencyMs (s, events) =>
      (diagnostics.recordStageLatency stage latencyMs s, events) }

/-- The calibrator answers as before and its answer is recorded. -/
theorem calibrator_traced (deps : LprPipelineDependencies σ F D) (source : Text)
    (rawConfidence cropQuality : F) (cropType : Text) :
    deps.traced.calibrator source rawConfidence cropQuality cropType =
      (deps.calibrator source rawConfidence cropQuality cropType).recorded
        fun answer _ => .calibrator answer := rfl

/-- So does the layout analyzer. -/
theorem layoutAnalyzer_traced (deps : LprPipelineDependencies σ F D) (image : ImageView)
    (candidates : List (PlateCandidate F)) (context : OperationContext) :
    deps.traced.layoutAnalyzer image candidates context =
      (deps.layoutAnalyzer image candidates context).recorded
        fun answer _ => .layoutAnalyzer answer := rfl

end

/-- Reading the clock keeps what does not depend on it. -/
theorem triple_now [World σ] {P : Traced σ F D → Prop} {E : Exn → Traced σ F D → Prop}
    (h : ∀ s events, P (s, events) → P ((World.now s).2, events)) :
    Triple P (now : Run (Traced σ F D) ℤ) (fun _ => P) E := by
  rintro ⟨s, events⟩ hs
  refine ⟨fun a t hrun => ?_, fun e t hrun => nomatch hrun⟩
  cases hrun
  exact h s events hs

/-! ## The traced run is the run -/

section

variable [World σ] [Scalar F] [Scalar D]

namespace RecognitionEnsemble

/-- One recognizer adds what it did: skipped, answered, or failed where it is optional. -/
theorem lifts_recognizerStep (plate : ImageView) (cropQuality : F) (context : OperationContext)
    (result : RecognitionEnsembleResult F D) (registration : RecognizerRegistration σ F D) :
    Lifts (recognizerStep plate cropQuality context result registration)
      (recognizerStep plate cropQuality context result registration.traced) := by
  have hactive : isActive registration.traced = isActive registration := rfl
  have hanswer : ∀ childContext : OperationContext,
      Lifts (registration.provider.recognize plate childContext)
        (registration.traced.provider.recognize plate childContext) := fun childContext => by
    rw [recognize_traced]
    exact lifts_recorded _ _
  have hevidence : ∀ childContext : OperationContext,
      Lifts (evidenceOf registration plate cropQuality childContext)
        (evidenceOf registration.traced plate cropQuality childContext) := fun childContext =>
    lifts_now.bind fun _ => (hanswer childContext).bind fun _ => lifts_now.bind fun _ =>
      lifts_runOfExcept _
  unfold recognizerStep
  rw [hactive]
  split
  · exact lifts_pure result
  · refine (lifts_now.bind fun _ => lifts_pure _ : Lifts (providerContext context
      registration.timeout) (providerContext context registration.timeout)).bind
        fun childContext => Lifts.tryCatch ?_ fun e => ?_
    · exact (hevidence childContext).bind fun _ => lifts_pure _
    · change Lifts (if registration.required then _ else _)
        (if registration.required then _ else _)
      split
      · exact lifts_runThrow _
      · exact lifts_pure _

/-- The whole ensemble adds what it did. -/
theorem lifts_recognize (ensemble : RecognitionEnsemble σ F D) (plate : ImageView)
    (cropQuality : F) (context : OperationContext) :
    Lifts (ensemble.recognize plate cropQuality context)
      (ensemble.traced.recognize plate cropQuality context) := by
  unfold recognize
  split
  · exact lifts_runThrow _
  · refine (lifts_checkContext _ _ _).bind fun _ => Lifts.bind ?_ fun _ => lifts_pure _
    change Lifts _ ((ensemble.recognizers.map RecognizerRegistration.traced).foldlM _ _)
    rw [List.foldlM_map]
    exact lifts_foldlM (fun registration _ result =>
      lifts_recognizerStep plate cropQuality context result registration) _

end RecognitionEnsemble

namespace LprPipeline

variable {κ : Type}

omit [Scalar F] in
/-- A timing reads the clock only. -/
theorem lifts_addTiming (stage : String) (detectionIndex cropIndex : ℕ) (started : ℤ)
    (tally : Tally F D) :
    Lifts (addTiming stage detectionIndex cropIndex started tally)
      (addTiming stage detectionIndex cropIndex started tally : Run (σ × κ) (Tally F D)) :=
  lifts_now.bind fun _ => lifts_pure _

omit [World σ] in
/-- What is caught is caught, since the error is the same. -/
theorem lifts_catchProviderError {α : Type} {body : Run σ α} {body' : Run (σ × κ) α}
    (handler : EngineErrorCode → α) (h : Lifts body body') :
    Lifts (catchProviderError body handler) (catchProviderError body' handler) := by
  refine h.tryCatch fun e => ?_
  cases e with
  | engine error =>
    simp only
    split
    · exact lifts_pure _
    · exact lifts_runThrow error
  | foreign => exact lifts_throw _

variable (deps : LprPipelineDependencies σ F D) (context : OperationContext)

/-- The geometry stage. -/
theorem lifts_evaluateGeometry (detectionIndex : ℕ) (detection : Detection F) (tally : Tally F D) :
    Lifts (evaluateGeometry deps context detectionIndex detection tally)
      (evaluateGeometry deps.traced context detectionIndex detection tally) :=
  lifts_now.bind fun _ => (lifts_catchProviderError _
    ((lifts_onFst _).bind fun _ => lifts_pure _)).bind fun _ =>
      (lifts_addTiming _ _ _ _ _).bind fun _ =>
        (lifts_checkContext _ _ _).bind fun _ => lifts_pure _

/-- The alignment stage. -/
theorem lifts_alignPlate (image : ImageView) (detectionIndex : ℕ) (detection : Detection F)
    (tally : Tally F D) :
    Lifts (alignPlate deps image context detectionIndex detection tally)
      (alignPlate deps.traced image context detectionIndex detection tally) :=
  lifts_now.bind fun _ => (lifts_catchProviderError _
    ((lifts_onFst _).bind fun _ => lifts_pure _)).bind fun _ =>
      (lifts_addTiming _ _ _ _ _).bind fun _ =>
        (lifts_checkContext _ _ _).bind fun _ => lifts_pure _

omit [Scalar D] in
/-- A recorded recognizer keeps its weight. -/
theorem providerWeight_traced (ensemble : RecognitionEnsemble σ F D) (source : Text) :
    providerWeight ensemble.traced source = providerWeight ensemble source := by
  have hfind : (ensemble.traced.recognizers.find? fun registration =>
      registration.provider.name == source) = (ensemble.recognizers.find? fun registration =>
        registration.provider.name == source).map RecognizerRegistration.traced := List.find?_map
  unfold providerWeight
  rw [hfind]
  cases ensemble.recognizers.find? fun registration => registration.provider.name == source <;> rfl

/-- **One crop** — recognition, calibration of each candidate, and layout analysis. -/
theorem lifts_cropStep (detectionIndex : ℕ) (loop : CropLoop F D)
    (indexed : CropHypothesis F × ℕ) :
    Lifts (cropStep deps context detectionIndex loop indexed)
      (cropStep deps.traced context detectionIndex loop indexed) := by
  obtain ⟨crop, cropIndex⟩ := indexed
  have hcandidate : ∀ (source : Text) (candidate : PlateCandidate F),
      Lifts (calibrateCandidate deps crop source candidate)
        (calibrateCandidate deps.traced crop source candidate) := by
    intro source candidate
    have hanswer : Lifts (deps.calibrator source candidate.confidence crop.quality crop.type)
        (deps.traced.calibrator source candidate.confidence crop.quality crop.type) := by
      rw [calibrator_traced]
      exact lifts_recorded _ _
    unfold calibrateCandidate
    rw [← providerWeight_traced deps.recognitionEnsemble source]
    exact hanswer.bind fun _ => lifts_pure _
  have hcalibrate : ∀ item : RecognitionEvidence F D, Lifts (calibrateEvidence deps crop item)
      (calibrateEvidence deps.traced crop item) := fun item =>
    (lifts_mapM fun candidate _ => hcandidate item.source candidate).bind fun _ => lifts_pure _
  have hlayout : ∀ (candidates : List (PlateCandidate F)) (tally : Tally F D),
      Lifts (analyzeLayout deps context crop candidates tally)
        (analyzeLayout deps.traced context crop candidates tally) := by
    intro candidates tally
    have hanswer : Lifts (deps.layoutAnalyzer crop.image.view candidates context)
        (deps.traced.layoutAnalyzer crop.image.view candidates context) := by
      rw [layoutAnalyzer_traced]
      exact lifts_recorded _ _
    exact lifts_catchProviderError _ (hanswer.bind fun _ => lifts_pure _)
  refine lifts_now.bind fun _ => ?_
  refine (RecognitionEnsemble.lifts_recognize _ _ _ _).bind fun _ => ?_
  refine (lifts_addTiming _ _ _ _ _).bind fun _ => lifts_now.bind fun _ => ?_
  refine (lifts_mapM fun item _ => hcalibrate item).bind fun _ => ?_
  refine (lifts_addTiming _ _ _ _ _).bind fun _ => lifts_now.bind fun _ => ?_
  refine (hlayout _ _).bind fun _ => (lifts_addTiming _ _ _ _ _).bind fun _ => ?_
  exact (lifts_checkContext _ _ _).bind fun _ => lifts_pure _

/-- Fusion and decision, which are not recorded. -/
theorem lifts_decideDetection (started : ℤ) (detectionIndex : ℕ) (detection : Detection F)
    (loop : CropLoop F D) :
    Lifts (decideDetection deps context started detectionIndex detection loop)
      (decideDetection deps.traced context started detectionIndex detection loop) := by
  refine lifts_now.bind fun _ => (lifts_onFst _).bind fun _ => ?_
  refine (lifts_addTiming _ _ _ _ _).bind fun _ => lifts_now.bind fun _ => ?_
  refine (lifts_onFst _).bind fun _ => (lifts_addTiming _ _ _ _ _).bind fun _ => ?_
  exact lifts_now.bind fun _ => (lifts_checkContext _ _ _).bind fun _ => lifts_pure _

/-- One detection, with its loop over the crops. -/
theorem lifts_detectionStep (image : ImageView) (started : ℤ)
    (state : LprPipelineResult F D × List (DetectionRound F D)) (indexed : Detection F × ℕ) :
    Lifts (detectionStep deps image context started state indexed)
      (detectionStep deps.traced image context started state indexed) := by
  obtain ⟨detection, detectionIndex⟩ := indexed
  refine (lifts_evaluateGeometry deps context detectionIndex detection _).bind fun _ => ?_
  refine (lifts_alignPlate deps context image detectionIndex _ _).bind fun _ => ?_
  refine lifts_now.bind fun _ => (lifts_onFst _).bind fun crops => ?_
  refine (lifts_addTiming _ _ _ _ _).bind fun _ => (lifts_checkContext _ _ _).bind fun _ => ?_
  refine (lifts_foldlM (fun indexed _ loop =>
    lifts_cropStep deps context detectionIndex loop indexed) _).bind fun _ => ?_
  exact (lifts_decideDetection deps context started detectionIndex _ _).bind fun _ => lifts_pure _

omit [World σ] [Scalar F] [Scalar D] in
/-- A loop over the state leaves alone what is beside it. -/
theorem foldl_beside {α : Type} (f : α → σ → σ) (l : List α) (s : σ) (c : κ) :
    l.foldl (fun t a => (f a t.1, t.2)) (s, c) = (l.foldl (fun s a => f a s) s, c) := by
  induction l generalizing s with
  | nil => rfl
  | cons a l ih => exact ih (f a s)

omit [Scalar D] in
/-- The counters are kept in the state, not beside it. -/
theorem publishDiagnostics_traced (result : LprPipelineResult F D) :
    publishDiagnostics deps.traced.diagnostics result =
      onFst (publishDiagnostics deps.diagnostics result) := by
  have htraced : deps.traced.diagnostics = deps.diagnostics.map fun diagnostics => {
    recordRecognition := fun status t => (diagnostics.recordRecognition status t.1, t.2)
    recordProviderFailures := fun count t => (diagnostics.recordProviderFailures count t.1, t.2)
    recordStageLatency := fun stage latencyMs t =>
      (diagnostics.recordStageLatency stage latencyMs t.1, t.2) } := rfl
  rw [htraced]
  cases deps.diagnostics with
  | none => rfl
  | some diagnostics =>
    refine funext fun t => ?_
    simp only [Option.map_some, publishDiagnostics, onFst,
      foldl_beside fun recognition : PlateRecognitionResult F D =>
        diagnostics.recordRecognition recognition.status,
      foldl_beside fun timing : PipelineStageTiming D =>
        diagnostics.recordStageLatency timing.stage timing.latencyMs]

/-- **Tracing changes nothing.** -/
theorem lifts_recognize (image : ImageView) :
    Lifts (recognize deps image context) (recognize deps.traced image context) := by
  refine Lifts.bind ?_ fun _ => lifts_pure _
  refine lifts_now.bind fun started => (lifts_checkContext _ _ _).bind fun _ => ?_
  refine (lifts_runOfExcept _).bind fun validated => lifts_now.bind fun _ => ?_
  refine (lifts_onFst _).bind fun detections => (lifts_addTiming _ _ _ _ _).bind fun _ => ?_
  refine (lifts_checkContext _ _ _).bind fun _ => ?_
  refine (lifts_foldlM (fun indexed _ state =>
    lifts_detectionStep deps context validated.view started state indexed) _).bind fun _ => ?_
  refine lifts_now.bind fun _ => Lifts.bind ?_ fun _ => lifts_pure _
  rw [publishDiagnostics_traced]
  exact lifts_onFst _

end LprPipeline

end

end FacLpr

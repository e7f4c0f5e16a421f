import FacLpr.Application.DecisionTrace

/-!
# Application/SteadyClock — latencies under a clock that never goes back

A run of the pipeline reads the clock at its start and again for each recognition, with everything
its providers do in between.  If they only let time pass, the latency of a recognition is that of a
later reading (`maintains_recognize_timely`).
-/

namespace FacLpr

open Program

/-- `std::chrono::steady_clock`: a later reading is not smaller, and a reading is a 64-bit count.
`time` is what a reading has to reach. -/
structure SteadyClock (σ : Type) [World σ] where
  time : σ → ℤ
  time_le_now (s : σ) : time s ≤ (World.now s).1
  now_le_time (s : σ) : (World.now s).1 ≤ time (World.now s).2
  time_le_stopRequested (s : σ) : time s ≤ time (World.stopRequested s).2
  range (s : σ) : -2 ^ 63 ≤ (World.now s).1 ∧ (World.now s).1 < 2 ^ 63

section

variable {σ F D α : Type} [World σ] (clock : SteadyClock σ)

/-- Time has reached `m`. -/
def SteadyClock.Reached (m : ℤ) (s : σ) : Prop := m ≤ clock.time s

/-- A run lets time pass: it never takes back what was reached. -/
def LetsTimePass (x : Run σ α) : Prop := ∀ m, Maintains (clock.Reached m) x fun _ => True

variable {clock} {m : ℤ}

theorem maintains_now : Maintains (clock.Reached m) (now : Run σ ℤ) fun reading =>
    m ≤ reading ∧ -2 ^ 63 ≤ reading ∧ reading < 2 ^ 63 := by
  refine fun s hs => ⟨fun reading s' hrun => ?_, fun e s' hrun => nomatch hrun⟩
  cases hrun
  have hreading := le_trans hs (clock.time_le_now s)
  exact ⟨⟨hreading, clock.range s⟩, hreading.trans (clock.now_le_time s)⟩

/-- A reading is reached. -/
theorem reached_now {s s' : σ} {reading : ℤ} (h : (now : Run σ ℤ) s = .ok reading s') :
    clock.Reached reading s' ∧ -2 ^ 63 ≤ reading ∧ reading < 2 ^ 63 := by
  cases h
  exact ⟨clock.now_le_time s, clock.range s⟩

theorem maintains_cancellationRequested :
    Maintains (clock.Reached m) (OperationContext.cancellationRequested : Run σ Bool)
      fun _ => True := by
  refine fun s hs => ⟨fun stopped s' hrun => ?_, fun e s' hrun => nomatch hrun⟩
  cases hrun
  exact ⟨trivial, le_trans hs (clock.time_le_stopRequested s)⟩

omit [World σ] in
theorem maintains_runOfExcept {I : σ → Prop} (v : Except EngineError α) :
    Maintains I (Run.ofExcept v : Run σ α) fun _ => True :=
  maintains_ofExcept _

theorem maintains_checkContext (context : OperationContext) (cancelled timeout : String) :
    Maintains (clock.Reached m) (checkContext context cancelled timeout : Run σ Unit)
      fun _ => True := by
  refine maintains_cancellationRequested.bind fun stopped _ => ?_
  split
  · exact maintains_throw _ _
  · have hdeadline : Maintains (clock.Reached m) (context.deadlineExceeded : Run σ Bool)
        fun _ => True := by
      unfold OperationContext.deadlineExceeded
      split
      · exact maintains_pure trivial
      · exact maintains_now.bind fun _ _ => maintains_pure trivial
    refine hdeadline.bind fun exceeded _ => ?_
    split
    · exact maintains_throw _ _
    · exact maintains_pure trivial

namespace RecognitionEnsemble

variable [Scalar F] [Scalar D]

theorem letsTimePass_recognize {ensemble : RecognitionEnsemble σ F D}
    (h : ∀ registration ∈ ensemble.recognizers, ∀ plate context,
      LetsTimePass clock (registration.provider.recognize plate context))
    (plate : ImageView) (cropQuality : F) (context : OperationContext) :
    LetsTimePass clock (ensemble.recognize plate cropQuality context) := by
  intro m
  unfold recognize
  split
  · exact maintains_throw _ _
  · refine (maintains_checkContext _ _ _).bind fun _ _ => ?_
    refine (maintains_foldlM (J := fun _ => True) (fun registration hregistration result _ => ?_)
      trivial).bind fun _ _ => maintains_pure trivial
    unfold recognizerStep
    split
    · exact maintains_pure trivial
    · refine (maintains_now.bind fun _ _ => maintains_pure trivial :
        Maintains (clock.Reached m) (providerContext context registration.timeout)
          fun _ => True).bind fun childContext _ => Maintains.tryCatch ?_ fun e => ?_
      · refine (maintains_now.bind fun _ _ => (h registration hregistration _ _ m).bind fun _ _ =>
          maintains_now.bind fun _ _ => maintains_ofExcept _ :
            Maintains (clock.Reached m) (evidenceOf registration plate cropQuality childContext)
              fun _ => True).bind fun _ _ => maintains_pure trivial
      · split
        · exact maintains_throw _ _
        · exact maintains_pure trivial

end RecognitionEnsemble

namespace LprPipeline

variable [Scalar F] [Scalar D]

/-- The dependencies only let time pass. -/
structure LetTimePass (clock : SteadyClock σ) (deps : LprPipelineDependencies σ F D) : Prop where
  detector : ∀ image context, LetsTimePass clock (deps.detector image context)
  geometry : ∀ detection context, LetsTimePass clock (deps.geometry detection context)
  aligner : ∀ image detection context, LetsTimePass clock (deps.aligner image detection context)
  cropGenerator : ∀ image detection aligned context,
    LetsTimePass clock (deps.cropGenerator image detection aligned context)
  recognizers : ∀ registration ∈ deps.recognitionEnsemble.recognizers, ∀ plate context,
    LetsTimePass clock (registration.provider.recognize plate context)
  calibrator : ∀ source rawConfidence cropQuality cropType,
    LetsTimePass clock (deps.calibrator source rawConfidence cropQuality cropType)
  layoutAnalyzer : ∀ image candidates context,
    LetsTimePass clock (deps.layoutAnalyzer image candidates context)
  candidateFusion : ∀ evidence layout, LetsTimePass clock (deps.candidateFusion evidence layout)
  decisionPolicy : ∀ detection evidence fused context,
    LetsTimePass clock (deps.decisionPolicy detection evidence fused context)

/-- The latency of the recognition ends at a later reading. -/
def Timely (started : ℤ) (recognition : PlateRecognitionResult F D) : Prop :=
  ∃ finished, recognition.totalLatencyMs = elapsedMs started finished ∧ started ≤ finished ∧
    finished < 2 ^ 63

omit [Scalar F] in
theorem maintains_addTiming (stage : String) (detectionIndex cropIndex : ℕ) (started : ℤ)
    (tally : Tally F D) :
    Maintains (clock.Reached m)
      (addTiming stage detectionIndex cropIndex started tally : Run σ (Tally F D)) fun _ => True :=
  maintains_now.bind fun _ _ => maintains_pure trivial

omit [World σ] in
theorem maintains_catchProviderError {I : σ → Prop} {body : Run σ α} {handler : EngineErrorCode → α}
    (hbody : Maintains I body fun _ => True) :
    Maintains I (catchProviderError body handler) fun _ => True := by
  refine hbody.tryCatch fun e => ?_
  cases e with
  | engine error =>
    simp only
    split
    · exact maintains_pure trivial
    · exact maintains_throw _ _
  | foreign => exact maintains_throw _ _

variable {deps : LprPipelineDependencies σ F D} (h : LetTimePass clock deps)
include h

theorem maintains_evaluateGeometry (context : OperationContext) (detectionIndex : ℕ)
    (detection : Detection F) (tally : Tally F D) :
    Maintains (clock.Reached m) (evaluateGeometry deps context detectionIndex detection tally)
      fun _ => True :=
  maintains_now.bind fun _ _ => (maintains_catchProviderError
    ((h.geometry _ _ m).bind fun _ _ => maintains_pure trivial)).bind fun _ _ =>
      (maintains_addTiming _ _ _ _ _).bind fun _ _ =>
        (maintains_checkContext _ _ _).bind fun _ _ => maintains_pure trivial

theorem maintains_alignPlate (image : ImageView) (context : OperationContext) (detectionIndex : ℕ)
    (detection : Detection F) (tally : Tally F D) :
    Maintains (clock.Reached m) (alignPlate deps image context detectionIndex detection tally)
      fun _ => True :=
  maintains_now.bind fun _ _ => (maintains_catchProviderError
    ((h.aligner _ _ _ m).bind fun _ _ => maintains_pure trivial)).bind fun _ _ =>
      (maintains_addTiming _ _ _ _ _).bind fun _ _ =>
        (maintains_checkContext _ _ _).bind fun _ _ => maintains_pure trivial

theorem maintains_cropStep (context : OperationContext) (detectionIndex : ℕ) (loop : CropLoop F D)
    (indexed : CropHypothesis F × ℕ) :
    Maintains (clock.Reached m) (cropStep deps context detectionIndex loop indexed)
      fun _ => True := by
  obtain ⟨crop, cropIndex⟩ := indexed
  have hcalibrate : ∀ item : RecognitionEvidence F D,
      Maintains (clock.Reached m) (calibrateEvidence deps crop item) fun _ => True := fun item =>
    (maintains_mapM fun candidate _ =>
      (h.calibrator _ _ _ _ m).bind fun _ _ => maintains_pure trivial).bind fun _ _ =>
        maintains_pure trivial
  refine maintains_now.bind fun _ _ => ?_
  refine (RecognitionEnsemble.letsTimePass_recognize h.recognizers _ _ _ m).bind fun _ _ => ?_
  refine (maintains_addTiming _ _ _ _ _).bind fun _ _ => maintains_now.bind fun _ _ => ?_
  refine (maintains_mapM fun item _ => hcalibrate item).bind fun _ _ => ?_
  refine (maintains_addTiming _ _ _ _ _).bind fun _ _ => maintains_now.bind fun _ _ => ?_
  refine (maintains_catchProviderError
    ((h.layoutAnalyzer _ _ _ m).bind fun _ _ => maintains_pure trivial)).bind fun _ _ => ?_
  refine (maintains_addTiming _ _ _ _ _).bind fun _ _ => ?_
  exact (maintains_checkContext _ _ _).bind fun _ _ => maintains_pure trivial

/-- **The latency of a recognition** is read after what was reached. -/
theorem maintains_decideDetection (context : OperationContext) (started : ℤ) (detectionIndex : ℕ)
    (detection : Detection F) (loop : CropLoop F D) :
    Maintains (clock.Reached started)
      (decideDetection deps context started detectionIndex detection loop)
      fun (_, _, recognition) => Timely started recognition := by
  refine maintains_now.bind fun _ _ => (h.candidateFusion _ _ started).bind fun _ _ => ?_
  refine (maintains_addTiming _ _ _ _ _).bind fun _ _ => maintains_now.bind fun _ _ => ?_
  refine (h.decisionPolicy _ _ _ _ started).bind fun _ _ => ?_
  refine (maintains_addTiming _ _ _ _ _).bind fun _ _ => ?_
  refine maintains_now.bind fun finished ⟨hfinished, _, hrange⟩ => ?_
  exact (maintains_checkContext _ _ _).bind fun _ _ =>
    maintains_pure ⟨finished, rfl, hfinished, hrange⟩

theorem maintains_detectionStep (image : ImageView) (context : OperationContext) (started : ℤ)
    (state : LprPipelineResult F D × List (DetectionRound F D))
    (hstate : ∀ recognition ∈ state.1.recognitions, Timely started recognition)
    (indexed : Detection F × ℕ) :
    Maintains (clock.Reached started) (detectionStep deps image context started state indexed)
      fun next => ∀ recognition ∈ next.1.recognitions, Timely started recognition := by
  obtain ⟨source, detectionIndex⟩ := indexed
  have hinitial : Keeps state.1.recognitions
      (⟨state.1, RecognitionDecisionContext.default⟩ : Tally F D) := ⟨rfl, rfl⟩
  refine ((maintains_evaluateGeometry h context detectionIndex source _).and_returns
    (returns_evaluateGeometry_trace deps context detectionIndex source hinitial)).bind
      fun (detection, tally) ⟨_, _, htally⟩ => ?_
  refine ((maintains_alignPlate h image context detectionIndex detection _).and_returns
    (keeps_alignPlate deps image context detectionIndex detection htally)).bind
      fun (aligned, tally) ⟨_, htally⟩ => ?_
  refine maintains_now.bind fun _ _ => (h.cropGenerator _ _ _ _ started).bind fun crops _ => ?_
  refine ((maintains_addTiming _ _ _ _ _).and_returns (keeps_addTiming htally _ _ _ _)).bind
    fun tally ⟨_, htally⟩ => ?_
  refine (maintains_checkContext _ _ _).bind fun _ _ => ?_
  refine ((maintains_foldlM (J := fun _ => True) (fun indexed _ loop _ =>
    maintains_cropStep h context detectionIndex loop indexed) trivial).and_returns
      (returns_cropLoop_trace deps context detectionIndex htally crops)).bind
        fun loop ⟨_, hloop, _⟩ => ?_
  refine ((maintains_decideDetection h context started detectionIndex detection loop).and_returns
    (returns_decideDetection_trace deps context started detectionIndex detection
      hloop.recognitions)).bind fun (result, fused, recognition) ⟨htimely, hresult, _⟩ => ?_
  refine maintains_pure ?_
  change ∀ recognition ∈ result.recognitions, Timely started recognition
  rw [hresult]
  exact List.forall_mem_append.mpr ⟨hstate, List.forall_mem_singleton.mpr htimely⟩

omit h in
/-- **Every recognition of a run is timely**, and the latency of the whole run is between two
readings. -/
theorem returns_recognize_timely (h : LetTimePass clock deps) (image : ImageView)
    (context : OperationContext) :
    Returns (recognize deps image context) fun result =>
      ∃ started, -2 ^ 63 ≤ started ∧ started < 2 ^ 63 ∧
        (∃ finished, result.totalLatencyMs = Scalar.max 0 (elapsedMs started finished) ∧
          started ≤ finished ∧ finished < 2 ^ 63) ∧
        ∀ recognition ∈ result.recognitions, Timely started recognition := by
  intro s result s' hrun
  obtain ⟨⟨result', rounds⟩, t, hrounds, hpure⟩ := bind_eq_ok.mp hrun
  cases hpure
  obtain ⟨started, u, hnow, hrest⟩ := bind_eq_ok.mp hrounds
  obtain ⟨hreached, hlow, hhigh⟩ : clock.Reached started u ∧ _ := reached_now hnow
  refine ⟨started, hlow, hhigh, (?_ : ReturnsFrom (clock.Reached started) _
    fun pair : LprPipelineResult F D × List (DetectionRound F D) =>
      (∃ finished, pair.1.totalLatencyMs = Scalar.max 0 (elapsedMs started finished) ∧
        started ≤ finished ∧ finished < 2 ^ 63) ∧
      ∀ recognition ∈ pair.1.recognitions, Timely started recognition) u hreached _ _ hrest⟩
  refine (maintains_checkContext _ _ _).bind_returnsFrom fun _ _ => ?_
  refine (maintains_ofExcept _).bind_returnsFrom fun _ _ => ?_
  refine maintains_now.bind_returnsFrom fun _ _ => ?_
  refine (h.detector _ _ started).bind_returnsFrom fun detections _ => ?_
  refine ((maintains_addTiming _ _ _ _ _).and_returns
    (returns_addTiming _ _ _ _ _)).bind_returnsFrom ?_
  rintro _ ⟨-, stageTimings, rfl⟩
  refine (maintains_checkContext _ _ _).bind_returnsFrom fun _ _ => ?_
  refine (maintains_foldlM (J := fun state : LprPipelineResult F D × List (DetectionRound F D) =>
    ∀ recognition ∈ state.1.recognitions, Timely started recognition)
      (fun indexed _ state hstate => maintains_detectionStep h _ context started state hstate
        indexed) (fun recognition hmem => absurd hmem List.not_mem_nil)).bind_returnsFrom
          fun (result, rounds) hstate => ?_
  refine maintains_now.bind_returnsFrom fun finished ⟨hfinished, _, hrange⟩ s _ => ?_
  exact ((returns_self _).bind fun _ _ =>
    returns_pure ⟨⟨finished, rfl, hfinished, hrange⟩, hstate⟩) s

end LprPipeline

end

end FacLpr

import FacLpr.Application.ProviderTrace

/-!
# Application/CancellationIdentity — a cancellation reported by a recognizer

Once the stop token is set and a recognizer has thrown `CancelledError`, the next check of the
context ends the run with `CancelledError`, unless another exception ends it first
(`fails_of_reported`).  One that does is a required recognizer's: the ensemble throws
`ProviderError` in its place, whatever it threw.
-/

namespace FacLpr

open Program

/-- `CancelledError`. -/
def Exn.isCancelled : Exn → Bool
  | .engine error => decide (error.code = .cancelled)
  | .foreign => false

/-- `ProviderError`. -/
def Exn.isProvider : Exn → Bool
  | .engine error => decide (error.code = .provider)
  | .foreign => false

variable {σ F D : Type} [Scalar F]

namespace ProviderEvent

/-- A recognizer threw `CancelledError` once the stop token was set. -/
def isReport : ProviderEvent F D → Bool
  | .recognizer _ stopRequested (.error e) => stopRequested && e.isCancelled
  | _ => false

/-- The answer ends the run with another exception: a required recognizer failed, or the calibrator
or the layout analyzer threw something that is neither caught nor a cancellation. -/
def masks : ProviderEvent F D → Bool
  | .recognizer required _ (.ok evidence) =>
      required && !evidence.candidates.all RecognitionEnsemble.isValidCandidate
  | .recognizer required _ (.error _) => required
  | .calibrator (.error e) => !e.isCancelled
  | .layoutAnalyzer (.error e) => !e.isCancelled && !e.isProvider
  | _ => false

end ProviderEvent

/-- A recognizer reported the cancellation. -/
def Reported (events : List (ProviderEvent F D)) : Prop := ∃ event ∈ events, event.isReport = true

/-- No answer ended the run with another exception. -/
def Unmasked (events : List (ProviderEvent F D)) : Prop := ∀ event ∈ events, event.masks = false

omit [Scalar F] in
theorem reported_concat {events : List (ProviderEvent F D)} {event : ProviderEvent F D} :
    Reported (events ++ [event]) ↔ Reported events ∨ event.isReport = true := by
  simp only [Reported, List.mem_append, List.mem_singleton, or_and_right, exists_or,
    exists_eq_left]

theorem unmasked_concat {events : List (ProviderEvent F D)} {event : ProviderEvent F D} :
    Unmasked (events ++ [event]) ↔ Unmasked events ∧ event.masks = false := by
  simp only [Unmasked, List.forall_mem_append, List.forall_mem_singleton]

/-! ## The stop token -/

section

variable [World σ]

/-- `stop_requested()`. -/
def StopRequested (s : σ) : Prop := (World.stopRequested s).1 = true

/-- A run that does not take back a stop request. -/
def KeepsStop {α : Type} (x : Run σ α) : Prop := Maintains StopRequested x fun _ => True

/-- Reading the clock or the token takes back no stop request. -/
structure StickyStop (σ : Type) [World σ] : Prop where
  now : ∀ s : σ, StopRequested s → StopRequested (World.now s).2
  stopRequested : ∀ s : σ, StopRequested s → StopRequested (World.stopRequested s).2

/-- The providers that may answer after a report take back no stop request. -/
structure LprPipelineDependencies.KeepStop (deps : LprPipelineDependencies σ F D) : Prop where
  recognizers : ∀ registration ∈ deps.recognitionEnsemble.recognizers, ∀ plate context,
    KeepsStop (registration.provider.recognize plate context)
  calibrator : ∀ source rawConfidence cropQuality cropType,
    KeepsStop (deps.calibrator source rawConfidence cropQuality cropType)
  layoutAnalyzer : ∀ image candidates context,
    KeepsStop (deps.layoutAnalyzer image candidates context)

/-! ## What holds while a run goes on, and when it ends -/

/-- Nothing was masked, and a reported cancellation still stands. -/
structure Live (t : Traced σ F D) : Prop where
  unmasked : Unmasked t.2
  stopped : Reported t.2 → StopRequested t.1

/-- Nothing was masked or reported. -/
structure Quiet (t : Traced σ F D) : Prop where
  unmasked : Unmasked t.2
  notReported : ¬ Reported t.2

/-- The exception a run ends with, when a cancellation was reported. -/
def Fate (e : Exn) (t : Traced σ F D) : Prop :=
  Reported t.2 → (e.isCancelled = true ↔ Unmasked t.2)

theorem Quiet.live {t : Traced σ F D} (h : Quiet t) : Live t :=
  ⟨h.unmasked, fun hreported => absurd hreported h.notReported⟩

omit [World σ] in
theorem Quiet.fate {t : Traced σ F D} (h : Quiet t) (e : Exn) : Fate e t :=
  fun hreported => absurd hreported h.notReported

/-- The state an answer leaves, before it is known what becomes of the answer. -/
def Answered (event : σ → ProviderEvent F D) (t : Traced σ F D) : Prop :=
  ∃ events, t.2 = events ++ [event t.1] ∧ Live (t.1, events)

theorem Answered.live {event : σ → ProviderEvent F D} {t : Traced σ F D}
    (h : Answered event t) (hmasks : (event t.1).masks = false)
    (hreport : (event t.1).isReport = true → StopRequested t.1) : Live t := by
  obtain ⟨s, events'⟩ := t
  obtain ⟨events, hevents, hlive⟩ := h
  simp only at hevents hmasks hreport
  subst hevents
  refine ⟨unmasked_concat.mpr ⟨hlive.unmasked, hmasks⟩, fun hreported => ?_⟩
  rcases reported_concat.mp hreported with hreported | hreported
  · exact hlive.stopped hreported
  · exact hreport hreported

theorem Answered.unmasked_iff {event : σ → ProviderEvent F D} {t : Traced σ F D}
    (h : Answered event t) : Unmasked t.2 ↔ (event t.1).masks = false := by
  obtain ⟨events, hevents, hlive⟩ := h
  rw [hevents, unmasked_concat]
  exact and_iff_right hlive.unmasked

theorem triple_recorded {α : Type} {event : Except Exn α → σ → ProviderEvent F D} {x : Run σ α}
    (hx : KeepsStop x) : Triple Live (x.recorded event) (fun a => Answered (event (.ok a)))
      fun e => Answered (event (.error e)) := by
  rintro ⟨s, events⟩ hlive
  have hkeeps : Reported events → StopRequested (x.after s) := fun hreported =>
    hx.after (hlive.stopped hreported)
  cases hrun : x s with
  | ok a s' =>
    have hafter : x.after s = s' := by rw [Program.after, hrun]
    rw [recorded_run_ok hrun]
    refine ⟨fun b t h => ?_, (fun e t h => by cases h)⟩
    cases h
    exact ⟨events, rfl, hlive.unmasked, hafter ▸ hkeeps⟩
  | error e s' =>
    have hafter : x.after s = s' := by rw [Program.after, hrun]
    rw [recorded_run_error hrun]
    refine ⟨(fun b t h => by cases h), fun e' t h => ?_⟩
    cases h
    exact ⟨events, rfl, hlive.unmasked, hafter ▸ hkeeps⟩

omit [World σ] in
theorem triple_onFst {α : Type} (x : Run σ α) :
    Triple (Quiet (F := F) (D := D)) (onFst x) (fun _ => Quiet) Fate := by
  rintro ⟨s, events⟩ hquiet
  cases hrun : x s with
  | ok a s' =>
    rw [onFst_run_ok hrun]
    refine ⟨fun b t h => ?_, fun e t h => nomatch h⟩
    cases h
    exact ⟨hquiet.unmasked, hquiet.notReported⟩
  | error e s' =>
    rw [onFst_run_error hrun]
    refine ⟨(fun b t h => nomatch h), fun e' t h => ?_⟩
    cases h
    exact fun hreported => absurd hreported hquiet.notReported

theorem quiet_now (s : σ) (events : List (ProviderEvent F D)) (h : Quiet (s, events)) :
    Quiet ((World.now s).2, events) := ⟨h.unmasked, h.notReported⟩

theorem StickyStop.live_now (hsticky : StickyStop σ) (s : σ) (events : List (ProviderEvent F D))
    (h : Live (s, events)) : Live ((World.now s).2, events) :=
  ⟨h.unmasked, fun hreported => hsticky.now s (h.stopped hreported)⟩

/-- **A check of the context** passes only when nothing was reported, and ends the run with
`CancelledError` otherwise. -/
theorem triple_checkContext (context : OperationContext) (cancelled timeout : String) :
    Triple (Live (F := F) (D := D))
      (checkContext context cancelled timeout : Run (Traced σ F D) Unit)
      (fun _ => Quiet) Fate := by
  have hstopped : Triple (Live (F := F) (D := D))
      (OperationContext.cancellationRequested : Run (Traced σ F D) Bool)
      (fun stopped t => Unmasked t.2 ∧ (stopped = false → ¬ Reported t.2)) Fate := by
    rintro ⟨s, events⟩ hlive
    refine ⟨fun stopped t hrun => ?_, fun e t hrun => nomatch hrun⟩
    cases hrun
    refine ⟨hlive.unmasked, fun hstopped hreported => ?_⟩
    exact Bool.false_ne_true (hstopped.symm.trans (hlive.stopped hreported))
  refine hstopped.bind fun stopped => ?_
  cases stopped with
  | true =>
    exact triple_throw fun t ht _ => ⟨fun _ => ht.1, fun _ => rfl⟩
  | false =>
    have hquiet : Triple (fun t : Traced σ F D =>
        Unmasked t.2 ∧ (false = false → ¬ Reported t.2))
      (context.deadlineExceeded : Run (Traced σ F D) Bool)
        (fun _ => Quiet) Fate := by
      unfold OperationContext.deadlineExceeded
      split
      · exact triple_pure fun t ht => ⟨ht.1, ht.2 rfl⟩
      · exact ((triple_now quiet_now).mono (fun t ht => ⟨ht.1, ht.2 rfl⟩) (fun _ _ h => h)
          fun _ _ h => h).bind fun _ => triple_pure fun _ ht => ht
    refine hquiet.bind fun exceeded => ?_
    split
    · exact triple_throw fun t ht => ht.fate _
    · exact triple_pure fun _ ht => ht

/-! ## The ensemble -/

namespace RecognitionEnsemble

/-- A recognizer failed: the run is masked when it is required, and goes on when it is not. -/
def AfterFailure (required : Bool) (t : Traced σ F D) : Prop :=
  if required then ¬ Unmasked t.2 else Live t

theorem afterFailure_now (hsticky : StickyStop σ) (required : Bool) (s : σ)
    (events : List (ProviderEvent F D)) (h : AfterFailure required (s, events)) :
    AfterFailure required ((World.now s).2, events) := by
  cases required with
  | true => exact h
  | false => exact hsticky.live_now s events h

variable [Scalar D]

/-- **One recognizer**: what it returned is evidence, or it failed. -/
theorem triple_evidenceOf (hsticky : StickyStop σ) {registration : RecognizerRegistration σ F D}
    (h : ∀ plate context, KeepsStop (registration.provider.recognize plate context))
    (plate : ImageView) (cropQuality : F) (context : OperationContext) :
    Triple Live (evidenceOf registration.traced plate cropQuality context) (fun _ => Live)
      fun _ => AfterFailure registration.required := by
  have hfailed : ∀ {event : σ → ProviderEvent F D} {t : Traced σ F D}, Answered event t →
      (event t.1).masks = registration.required →
      ((event t.1).isReport = true → StopRequested t.1) → AfterFailure registration.required t := by
    intro event t hanswered hmasks hreport
    unfold AfterFailure
    split
    · rename_i hrequired
      rw [hanswered.unmasked_iff, hmasks, hrequired]
      exact fun h => nomatch h
    · rename_i hrequired
      exact hanswered.live (hmasks.trans (Bool.eq_false_of_not_eq_true hrequired)) hreport
  refine (triple_now hsticky.live_now).bind fun started => ?_
  rw [recognize_traced]
  refine ((triple_recorded (h plate context)).mono (fun _ ht => ht) (fun _ _ ht => ht)
    fun e t ht => ?_).bind fun evidence => ?_
  · refine hfailed ht rfl fun hreport => ?_
    exact (Bool.and_eq_true_iff.mp hreport).1
  · cases hvalid : evidence.candidates.all isValidCandidate with
    | true =>
      have hlive : ∀ t : Traced σ F D, Answered (fun s => .recognizer registration.required
          (World.stopRequested s).1 (.ok evidence)) t → Live t := fun t ht =>
        ht.live (by simp [ProviderEvent.masks, hvalid]) fun hreport => nomatch hreport
      refine ((triple_now hsticky.live_now).mono hlive (fun _ _ ht => ht) fun _ _ ht => ht).bind
        fun finished => ?_
      unfold validateEvidence
      rw [hvalid]
      exact triple_pure fun _ ht => ht
    | false =>
      have hafter : ∀ t : Traced σ F D, Answered (fun s => .recognizer registration.required
          (World.stopRequested s).1 (.ok evidence)) t → AfterFailure registration.required t :=
        fun t ht => hfailed ht (by simp [ProviderEvent.masks, hvalid])
          fun hreport => nomatch hreport
      refine ((triple_now (afterFailure_now hsticky _)).mono hafter (fun _ _ ht => ht)
        fun _ _ ht => ht).bind fun finished => ?_
      unfold validateEvidence
      rw [hvalid]
      exact triple_throw fun _ ht => ht

theorem triple_recognizerStep (hsticky : StickyStop σ)
    {registration : RecognizerRegistration σ F D}
    (h : ∀ plate context, KeepsStop (registration.provider.recognize plate context))
    (plate : ImageView) (cropQuality : F) (context : OperationContext)
    (result : RecognitionEnsembleResult F D) :
    Triple Live (recognizerStep plate cropQuality context result registration.traced)
      (fun _ => Live) Fate := by
  unfold recognizerStep
  split
  · exact triple_pure fun _ ht => ht
  · refine ((triple_now hsticky.live_now).bind fun _ => triple_pure fun _ ht => ht :
      Triple Live (providerContext context registration.traced.timeout) (fun _ => Live) Fate).bind
        fun childContext => ?_
    refine Triple.tryCatch ((triple_evidenceOf hsticky h plate cropQuality childContext).bind
      fun _ => triple_pure fun _ ht => ht) fun e => ?_
    -- the exception of a required recognizer is replaced, whatever it was
    change Triple (AfterFailure registration.required)
      (if registration.required then _ else _) _ _
    cases registration.required with
    | true =>
      exact triple_throw fun t ht _ => ⟨(fun h => nomatch h), fun hunmasked => absurd hunmasked ht⟩
    | false => exact triple_pure fun _ ht => ht

/-- **The ensemble** goes on with a cancellation reported, or ends the run. -/
theorem triple_recognize (hsticky : StickyStop σ) {ensemble : RecognitionEnsemble σ F D}
    (h : ∀ registration ∈ ensemble.recognizers, ∀ plate context,
      KeepsStop (registration.provider.recognize plate context))
    (plate : ImageView) (cropQuality : F) (context : OperationContext) :
    Triple Quiet (ensemble.traced.recognize plate cropQuality context) (fun _ => Live) Fate := by
  unfold recognize
  split
  · exact triple_throw fun _ ht => ht.fate _
  · refine ((triple_checkContext context _ _).mono (fun _ ht => ht.live) (fun _ _ ht => ht)
      fun _ _ ht => ht).bind fun _ => ?_
    refine Triple.bind (Q := fun _ => Live) ?_ fun _ => triple_pure fun _ ht => ht
    refine (triple_foldlM (fun registration hregistration result => ?_) _).mono
      (fun _ ht => ht.live) (fun _ _ ht => ht) fun _ _ ht => ht
    obtain ⟨source, hsource, rfl⟩ := List.mem_map.mp hregistration
    exact triple_recognizerStep hsticky (h source hsource) plate cropQuality context result

end RecognitionEnsemble

/-! ## The pipeline -/

namespace LprPipeline

variable [Scalar D]

omit [Scalar F] in
theorem triple_addTiming {P : Traced σ F D → Prop} {E : Exn → Traced σ F D → Prop}
    (h : ∀ s events, P (s, events) → P ((World.now s).2, events)) (stage : String)
    (detectionIndex cropIndex : ℕ) (started : ℤ) (tally : Tally F D) :
    Triple P (addTiming stage detectionIndex cropIndex started tally : Run (Traced σ F D) _)
      (fun _ => P) E :=
  (triple_now h).bind fun _ => triple_pure fun _ ht => ht

omit [World σ] [Scalar D] in
/-- A caught `ProviderError` is no cancellation. -/
theorem triple_catchProviderError {α : Type} {P : Traced σ F D → Prop}
    {body : Run (Traced σ F D) α} {handler : EngineErrorCode → α}
    {K : Exn → Traced σ F D → Prop} (h : Triple P body (fun _ => P) K)
    (hcaught : ∀ e t, e.isProvider = true → K e t → P t)
    (hescapes : ∀ e t, e.isProvider = false → K e t → Fate e t) :
    Triple P (catchProviderError body handler) (fun _ => P) Fate := by
  refine h.tryCatch fun e => ?_
  cases e with
  | engine error =>
    simp only
    split
    · rename_i hcode
      exact triple_pure fun t ht => hcaught (.engine error) t (decide_eq_true hcode) ht
    · rename_i hcode
      exact triple_throw fun t ht => hescapes (.engine error) t (decide_eq_false hcode) ht
  | foreign => exact triple_throw fun t ht => hescapes _ t rfl ht

omit [World σ] [Scalar D] in
/-- A stage whose provider is not traced. -/
theorem quiet_stage {α β : Type} (x : Run σ α) (f : α → β) (handler : EngineErrorCode → β) :
    Triple (Quiet (F := F) (D := D))
      (catchProviderError (do let a ← onFst x; return f a) handler) (fun _ => Quiet) Fate := by
  have hbody : Triple (Quiet (F := F) (D := D)) (do let a ← onFst x; return f a)
      (fun _ => Quiet) fun _ => Quiet := by
    refine Triple.bind (Q := fun _ => Quiet) ?_ fun _ => triple_pure fun _ ht => ht
    rintro ⟨s, events⟩ hquiet
    cases hrun : x s with
    | ok a s' =>
      rw [onFst_run_ok hrun]
      refine ⟨fun b t h => ?_, fun e t h => nomatch h⟩
      cases h
      exact ⟨hquiet.unmasked, hquiet.notReported⟩
    | error e s' =>
      rw [onFst_run_error hrun]
      refine ⟨(fun b t h => nomatch h), fun e' t h => ?_⟩
      cases h
      exact ⟨hquiet.unmasked, hquiet.notReported⟩
  exact triple_catchProviderError hbody (fun _ _ _ ht => ht) fun e _ _ ht => ht.fate e

variable (deps : LprPipelineDependencies σ F D) (context : OperationContext)

omit [Scalar D] in
/-- A check of the context, while nothing is reported. -/
theorem quiet_checkContext (cancelled timeout : String) :
    Triple (Quiet (F := F) (D := D))
      (checkContext context cancelled timeout : Run (Traced σ F D) Unit) (fun _ => Quiet) Fate :=
  (triple_checkContext context _ _).mono (fun _ ht => ht.live) (fun _ _ ht => ht) fun _ _ ht => ht

theorem quiet_evaluateGeometry (detectionIndex : ℕ) (detection : Detection F)
    (tally : Tally F D) :
    Triple Quiet (evaluateGeometry deps.traced context detectionIndex detection tally)
      (fun _ => Quiet) Fate :=
  (triple_now quiet_now).bind fun _ => (quiet_stage _ _ _).bind fun _ =>
    (triple_addTiming quiet_now _ _ _ _ _).bind fun _ =>
      (quiet_checkContext context _ _).bind fun _ => triple_pure fun _ ht => ht

theorem quiet_alignPlate (image : ImageView) (detectionIndex : ℕ) (detection : Detection F)
    (tally : Tally F D) :
    Triple Quiet (alignPlate deps.traced image context detectionIndex detection tally)
      (fun _ => Quiet) Fate :=
  (triple_now quiet_now).bind fun _ => (quiet_stage _ _ _).bind fun _ =>
    (triple_addTiming quiet_now _ _ _ _ _).bind fun _ =>
      (quiet_checkContext context _ _).bind fun _ => triple_pure fun _ ht => ht

variable {deps}

/-- **One crop**: the check at its end lets nothing pass that was reported. -/
theorem quiet_cropStep (hsticky : StickyStop σ) (h : deps.KeepStop) (detectionIndex : ℕ)
    (loop : CropLoop F D) (indexed : CropHypothesis F × ℕ) :
    Triple Quiet (cropStep deps.traced context detectionIndex loop indexed) (fun _ => Quiet)
      Fate := by
  obtain ⟨crop, cropIndex⟩ := indexed
  have hcandidate : ∀ (source : Text) (candidate : PlateCandidate F),
      Triple Live (calibrateCandidate deps.traced crop source candidate) (fun _ => Live) Fate := by
    intro source candidate
    unfold calibrateCandidate
    rw [calibrator_traced]
    refine Triple.bind (Q := fun _ => Live) ?_ fun _ => triple_pure fun _ ht => ht
    refine (triple_recorded (h.calibrator _ _ _ _)).mono (fun _ ht => ht) (fun _ _ ht => ?_)
      fun e t ht _ => ?_
    · exact ht.live rfl fun hreport => nomatch hreport
    · rw [ht.unmasked_iff]
      simp [ProviderEvent.masks]
  have hcalibrate : ∀ item : RecognitionEvidence F D,
      Triple Live (calibrateEvidence deps.traced crop item) (fun _ => Live) Fate := fun item =>
    (triple_mapM fun candidate _ => hcandidate item.source candidate).bind fun _ =>
      triple_pure fun _ ht => ht
  have hlayout : ∀ (candidates : List (PlateCandidate F)) (tally : Tally F D),
      Triple Live (analyzeLayout deps.traced context crop candidates tally) (fun _ => Live)
        Fate := by
    intro candidates tally
    unfold analyzeLayout
    rw [layoutAnalyzer_traced]
    refine triple_catchProviderError (K := fun e => Answered fun _ => .layoutAnalyzer (.error e))
      (Triple.bind (Q := fun _ => Live) ?_ fun _ => triple_pure fun _ ht => ht)
      (fun e t hprovider ht => ?_) fun e t hescapes ht _ => ?_
    · exact (triple_recorded (h.layoutAnalyzer _ _ _)).mono (fun _ ht => ht)
        (fun _ _ ht => ht.live rfl fun hreport => nomatch hreport) fun _ _ ht => ht
    · exact ht.live (by simp [ProviderEvent.masks, hprovider]) fun hreport => nomatch hreport
    · rw [ht.unmasked_iff]
      simp [ProviderEvent.masks, hescapes]
  refine (triple_now quiet_now).bind fun _ => ?_
  refine (RecognitionEnsemble.triple_recognize hsticky h.recognizers _ _ _).bind fun _ => ?_
  refine (triple_addTiming hsticky.live_now _ _ _ _ _).bind fun _ => ?_
  refine (triple_now hsticky.live_now).bind fun _ => ?_
  refine (triple_mapM fun item _ => hcalibrate item).bind fun _ => ?_
  refine (triple_addTiming hsticky.live_now _ _ _ _ _).bind fun _ => ?_
  refine (triple_now hsticky.live_now).bind fun _ => (hlayout _ _).bind fun _ => ?_
  refine (triple_addTiming hsticky.live_now _ _ _ _ _).bind fun _ => ?_
  exact (triple_checkContext context _ _).bind fun _ => triple_pure fun _ ht => ht

theorem quiet_decideDetection (deps : LprPipelineDependencies σ F D) (started : ℤ)
    (detectionIndex : ℕ) (detection : Detection F) (loop : CropLoop F D) :
    Triple Quiet (decideDetection deps.traced context started detectionIndex detection loop)
      (fun _ => Quiet) Fate := by
  refine (triple_now quiet_now).bind fun _ => (triple_onFst _).bind fun _ => ?_
  refine (triple_addTiming quiet_now _ _ _ _ _).bind fun _ => (triple_now quiet_now).bind fun _ => ?_
  refine (triple_onFst _).bind fun _ => (triple_addTiming quiet_now _ _ _ _ _).bind fun _ => ?_
  exact (triple_now quiet_now).bind fun _ => (quiet_checkContext context _ _).bind fun _ =>
    triple_pure fun _ ht => ht

theorem quiet_detectionStep (hsticky : StickyStop σ) (h : deps.KeepStop) (image : ImageView)
    (started : ℤ) (state : LprPipelineResult F D × List (DetectionRound F D))
    (indexed : Detection F × ℕ) :
    Triple Quiet (detectionStep deps.traced image context started state indexed) (fun _ => Quiet)
      Fate := by
  obtain ⟨detection, detectionIndex⟩ := indexed
  refine (quiet_evaluateGeometry deps context detectionIndex detection _).bind fun _ => ?_
  refine (quiet_alignPlate deps context image detectionIndex _ _).bind fun _ => ?_
  refine (triple_now quiet_now).bind fun _ => (triple_onFst _).bind fun crops => ?_
  refine (triple_addTiming quiet_now _ _ _ _ _).bind fun _ => ?_
  refine (quiet_checkContext context _ _).bind fun _ => ?_
  refine (triple_foldlM (fun indexed _ loop =>
    quiet_cropStep context hsticky h detectionIndex loop indexed) _).bind fun _ => ?_
  exact (quiet_decideDetection context deps started detectionIndex _ _).bind fun _ =>
    triple_pure fun _ ht => ht

/-- **A whole run**: what it returns, nothing was reported before. -/
theorem quiet_recognize (hsticky : StickyStop σ) (h : deps.KeepStop) (image : ImageView) :
    Triple Quiet (recognize deps.traced image context) (fun _ => Quiet) Fate := by
  refine Triple.bind (Q := fun _ => Quiet) ?_ fun _ => triple_pure fun _ ht => ht
  refine (triple_now quiet_now).bind fun started => (quiet_checkContext context _ _).bind fun _ => ?_
  refine Triple.bind (Q := fun _ => Quiet) ?_ fun validated => ?_
  · cases validateImage image {} with
    | ok validated => exact triple_pure fun _ ht => ht
    | error e => exact triple_throw fun _ ht => ht.fate _
  · refine (triple_now quiet_now).bind fun _ => (triple_onFst _).bind fun detections => ?_
    refine (triple_addTiming quiet_now _ _ _ _ _).bind fun _ => ?_
    refine (quiet_checkContext context _ _).bind fun _ => ?_
    refine (triple_foldlM (fun indexed _ state =>
      quiet_detectionStep context hsticky h validated.view started state indexed) _).bind fun _ => ?_
    refine (triple_now quiet_now).bind fun _ =>
      Triple.bind (Q := fun _ => Quiet) ?_ fun _ => triple_pure fun _ ht => ht
    rw [publishDiagnostics_traced]
    exact triple_onFst _

/-- What the recognizers, the calibrator and the layout analyzer answered in a run. -/
def answers (deps : LprPipelineDependencies σ F D) (image : ImageView) (context : OperationContext)
    (s : σ) : List (ProviderEvent F D) :=
  ((recognize deps.traced image context).after (s, [])).2

/-- **A reported cancellation ends the run**, with `CancelledError` exactly when no other exception
ended it: a required recognizer that failed, the one that reported the cancellation among them, or
what the calibrator or the layout analyzer threw. -/
theorem fails_of_reported (hsticky : StickyStop σ) (hdeps : deps.KeepStop) {image : ImageView}
    {s : σ} (h : Reported (answers deps image context s)) :
    ∃ e s', recognize deps image context s = .error e s' ∧
      (e.isCancelled = true ↔ Unmasked (answers deps image context s)) := by
  have hquiet : Quiet (σ := σ) (F := F) (D := D) (s, []) :=
    ⟨fun _ hevent => absurd hevent List.not_mem_nil,
      fun ⟨_, hevent, _⟩ => absurd hevent List.not_mem_nil⟩
  have hrun := quiet_recognize context hsticky hdeps image (s, []) hquiet
  have hlifts := lifts_recognize deps context image s []
  unfold answers at h ⊢
  cases hreal : recognize deps image context s with
  | ok result s' =>
    obtain ⟨events, htraced⟩ := hlifts.1 result s' hreal
    rw [Program.after, htraced] at h
    exact absurd h (hrun.1 result _ htraced).notReported
  | error e s' =>
    obtain ⟨events, htraced⟩ := hlifts.2 e s' hreal
    rw [Program.after, htraced] at h ⊢
    exact ⟨e, s', rfl, hrun.2 e _ htraced h⟩

end LprPipeline

end

/-! ### A recognizer that is interrupted -/

/-- A world whose operation may be cancelled. -/
inductive Interruptible where
  | running
  | cancelled
  deriving DecidableEq

instance : World Interruptible := ⟨fun s => (0, s), fun s => (decide (s = .cancelled), s)⟩

namespace LprPipeline

/-- A recognizer during whose work the operation is cancelled. -/
def interruptedRecognizer : PlateRecognizer Interruptible ℚ ℚ where
  name := ascii "reader"
  recognize _ _ := fun _ => .error (.engine (cancelledError "recognition cancelled")) .cancelled

/-- One detection with one crop, and that recognizer. -/
def interruptedPipeline (required : Bool) (h : RecognitionEnsemble.check
    [⟨interruptedRecognizer, 1, 1000, required, true⟩] = .ok ()) :
    LprPipelineDependencies Interruptible ℚ ℚ where
  detector _ _ := pure [⟨⟨0, 0, 1, 1⟩, none, 1, 0, ascii "detector"⟩]
  geometry _ _ := pure ⟨true, 1⟩
  aligner _ _ _ := pure none
  cropGenerator _ _ _ _ :=
    pure [⟨⟨[0], 1, 1, 1, .gray8⟩, ascii "raw_bbox", ascii "source_image", 0, 1⟩]
  recognitionEnsemble := ⟨[⟨interruptedRecognizer, 1, 1000, required, true⟩], h⟩
  calibrator _ rawConfidence _ _ := pure rawConfidence
  layoutAnalyzer _ _ _ := pure ⟨true, none, none, 1⟩
  candidateFusion _ _ := pure []
  decisionPolicy _ _ _ _ := pure .default
  diagnostics := none

def requiredPipeline : LprPipelineDependencies Interruptible ℚ ℚ :=
  interruptedPipeline true (by decide +kernel)

def optionalPipeline : LprPipelineDependencies Interruptible ℚ ℚ :=
  interruptedPipeline false (by decide +kernel)

def interruptedImage : ImageView := ⟨[0], 1, 1, 1, .gray8⟩

instance (events : List (ProviderEvent ℚ ℚ)) : Decidable (Reported events) :=
  inferInstanceAs (Decidable (∃ event ∈ events, event.isReport = true))

instance (events : List (ProviderEvent ℚ ℚ)) : Decidable (Unmasked events) :=
  inferInstanceAs (Decidable (∀ event ∈ events, event.masks = false))

theorem fails_of_reported_optional : ∃ e s',
    recognize optionalPipeline interruptedImage ⟨none⟩ .running = .error e s' ∧
      e.isCancelled = true := by
  have hsticky : StickyStop Interruptible := ⟨fun _ h => h, fun _ h => h⟩
  have hkeep : optionalPipeline.KeepStop := by
    refine ⟨fun registration hregistration plate context s _ => ?_,
      fun _ _ _ _ => maintains_pure trivial, fun _ _ _ => maintains_pure trivial⟩
    obtain rfl := List.mem_singleton.mp hregistration
    refine ⟨(fun _ _ hrun => nomatch hrun), fun e s' hrun => ?_⟩
    cases hrun
    exact decide_eq_true (rfl : Interruptible.cancelled = .cancelled)
  obtain ⟨e, s', hrun, hcancelled⟩ := fails_of_reported ⟨none⟩ hsticky hkeep
    (by decide +kernel : Reported (answers optionalPipeline interruptedImage ⟨none⟩ .running))
  exact ⟨e, s', hrun, hcancelled.mpr (by decide +kernel)⟩

/-- **The cancellation of a required recognizer is lost**: the run fails with `ProviderError`. -/
theorem required_report_masked :
    Reported (answers requiredPipeline interruptedImage ⟨none⟩ .running) ∧
      (recognize requiredPipeline interruptedImage ⟨none⟩).thrown? .running =
        some (.engine (RecognitionEnsemble.requiredFailed (ascii "reader"))) ∧
      (RecognitionEnsemble.requiredFailed (ascii "reader")).code = .provider := by
  decide +kernel

end LprPipeline

end FacLpr

import FacLpr.Application.ProviderTrace
import FacLpr.Application.StartupSelfTest

/-!
# Application/ReadinessAgreement — the self-test and the ensemble

The self-test counts the enabled recognizers, the ensemble runs those of positive weight among
them.  Whatever the providers do, a self-test that reports `ready` or `degraded` promises an
ensemble that invokes a recognizer exactly when some enabled recognizer has positive weight, or none
is enabled and the report says so (`readinessAgrees_iff`).
-/

namespace FacLpr

open Program

/-- A registration without its provider's code. -/
structure RecognizerSettings (F : Type) where
  name : Text
  weight : F
  timeout : ℤ
  required : Bool
  enabled : Bool

variable {σ F D : Type}

def RecognizerRegistration.settings (registration : RecognizerRegistration σ F D) :
    RecognizerSettings F :=
  ⟨registration.provider.name, registration.weight, registration.timeout, registration.required,
    registration.enabled⟩

/-- A registration of a provider that recognizes nothing. -/
def RecognizerSettings.idle [Zero F] [Zero D] (settings : RecognizerSettings F) :
    RecognizerRegistration Frozen F D :=
  ⟨⟨settings.name, fun _ _ => pure ⟨settings.name, [], 0, 0⟩⟩, settings.weight, settings.timeout,
    settings.required, settings.enabled⟩

variable [Scalar F] [Scalar D]

/-- The ensemble invokes some recognizer on every crop it gets to. -/
def InvokesOnEveryCrop [World σ] (ensemble : RecognitionEnsemble σ F D) : Prop :=
  ∀ (plate : ImageView) (cropQuality : F) (context : OperationContext) (s s' : σ),
    Scalar.isFinite cropQuality = true →
    checkContext context "recognition ensemble cancelled" "recognition ensemble deadline exceeded" s
      = .ok () s' →
    ((ensemble.traced.recognize plate cropQuality context).after (s, [])).2 ≠ []

/-- Whatever the providers of these registrations do, a self-test that reports `ready` or `degraded`
means that the ensemble invokes a recognizer on every crop. -/
def ReadinessAgrees (F D : Type) [Scalar F] [Scalar D] (settings : List (RecognizerSettings F)) :
    Prop :=
  ∀ (σ : Type) [World σ] (ensemble : RecognitionEnsemble σ F D)
    (diagnostics : Option (ReadinessDiagnostics σ)) (detector : PlateDetector σ F),
    ensemble.recognizers.map RecognizerRegistration.settings = settings →
    ∀ s report s',
      LprPipeline.startupSelfTest diagnostics detector ensemble.recognizers s = .ok report s' →
      report.ready = true → InvokesOnEveryCrop ensemble

namespace RecognitionEnsemble

section

variable [World σ]

/-- Some recognizer has answered. -/
def Invoked (t : Traced σ F D) : Prop := t.2 ≠ []

omit [Scalar F] [Scalar D] [World σ] in
theorem triple_recorded_invoked {α : Type} (event : Except Exn α → σ → ProviderEvent F D)
    (x : Run σ α) {P : Traced σ F D → Prop} :
    Triple P (x.recorded event) (fun _ => Invoked) fun _ => Invoked := by
  rintro ⟨s, events⟩ -
  have hconcat : ∀ {s' : σ} {answer : ProviderEvent F D}, Invoked (s', events ++ [answer]) :=
    fun h => absurd h (List.concat_ne_nil _ _)
  cases hrun : x s with
  | ok a s' =>
    rw [recorded_run_ok hrun]
    refine ⟨fun b t h => ?_, fun e t h => nomatch h⟩
    cases h
    exact hconcat
  | error e s' =>
    rw [recorded_run_error hrun]
    refine ⟨(fun b t h => nomatch h), fun e' t h => ?_⟩
    cases h
    exact hconcat

/-- **An active recognizer** is invoked at its turn. -/
theorem triple_recognizerStep_active {registration : RecognizerRegistration σ F D}
    (hactive : isActive registration = true) (plate : ImageView) (cropQuality : F)
    (context : OperationContext) (result : RecognitionEnsembleResult F D) :
    Triple (fun _ => True) (recognizerStep plate cropQuality context result registration.traced)
      (fun _ => Invoked) fun _ => Invoked := by
  have hbody : ∀ childContext, Triple (fun _ => True)
      (evidenceOf registration.traced plate cropQuality childContext)
      (fun _ => Invoked) fun _ => Invoked := fun childContext => by
    refine (triple_now fun _ _ h => h).bind fun _ => ?_
    rw [recognize_traced]
    exact (triple_recorded_invoked _ _).bind fun _ => (triple_now fun _ _ h => h).bind fun _ =>
      triple_ofExcept (fun _ _ _ h => h) fun _ _ _ h => h
  have htraced : isActive registration.traced = true := hactive
  unfold recognizerStep
  rw [htraced, if_neg (by simp)]
  refine ((triple_now fun _ _ h => h).bind fun _ => triple_pure fun _ h => h :
    Triple (fun _ => True) (providerContext context registration.traced.timeout) (fun _ _ => True)
      fun _ => Invoked).bind fun childContext => ?_
  refine Triple.tryCatch ((hbody childContext).bind fun _ => triple_pure fun _ h => h) fun e => ?_
  split
  · exact triple_throw fun _ h => h
  · exact triple_pure fun _ h => h

/-- What was invoked stays invoked. -/
theorem triple_recognizerStep_invoked (registration : RecognizerRegistration σ F D)
    (plate : ImageView) (cropQuality : F) (context : OperationContext)
    (result : RecognitionEnsembleResult F D) :
    Triple Invoked (recognizerStep plate cropQuality context result registration.traced)
      (fun _ => Invoked) fun _ => Invoked := by
  cases hactive : isActive registration with
  | true =>
    exact (triple_recognizerStep_active hactive plate cropQuality context result).mono
      (fun _ _ => trivial) (fun _ _ h => h) fun _ _ h => h
  | false =>
    have htraced : isActive registration.traced = false := hactive
    unfold recognizerStep
    rw [htraced, if_pos (by simp)]
    exact triple_pure fun _ h => h

omit [World σ] in
/-- Recognizers that do not run change nothing. -/
theorem foldlM_inactive [World σ] {recognizers : List (RecognizerRegistration σ F D)}
    (h : ∀ registration ∈ recognizers, isActive registration = false) (plate : ImageView)
    (cropQuality : F) (context : OperationContext) (result : RecognitionEnsembleResult F D) :
    recognizers.foldlM (recognizerStep plate cropQuality context) result = pure result := by
  induction recognizers with
  | nil => rfl
  | cons registration recognizers ih =>
    obtain ⟨hregistration, hrest⟩ := List.forall_mem_cons.mp h
    rw [List.foldlM_cons, recognizerStep, hregistration, if_pos (by simp), pure_bind]
    exact ih hrest

theorem triple_foldlM_invoked (recognizers : List (RecognizerRegistration σ F D))
    (plate : ImageView) (cropQuality : F) (context : OperationContext)
    (result : RecognitionEnsembleResult F D) :
    Triple (fun _ => True) ((recognizers.map RecognizerRegistration.traced).foldlM
        (recognizerStep plate cropQuality context) result)
      (fun _ t => (∃ registration ∈ recognizers, isActive registration = true) → Invoked t)
      fun _ => Invoked := by
  induction recognizers generalizing result with
  | nil => exact triple_pure fun _ _ h => absurd h.choose_spec.1 List.not_mem_nil
  | cons registration recognizers ih =>
    rw [List.map_cons, List.foldlM_cons]
    cases hactive : isActive registration with
    | true =>
      refine (triple_recognizerStep_active hactive plate cropQuality context result).bind
        fun next => ?_
      refine (triple_foldlM (fun traced htraced result => ?_) next).mono (fun _ h => h)
        (fun _ _ h _ => h) fun _ _ h => h
      obtain ⟨source, -, rfl⟩ := List.mem_map.mp htraced
      exact triple_recognizerStep_invoked source plate cropQuality context result
    | false =>
      have htraced : isActive registration.traced = false := hactive
      rw [recognizerStep, htraced, if_pos (by simp), pure_bind]
      refine (ih result).mono (fun _ h => h) (fun _ _ h hexists => h ?_) fun _ _ h => h
      obtain ⟨other, hother, hactive'⟩ := hexists
      rcases List.mem_cons.mp hother with rfl | hother
      · exact absurd (hactive.symm.trans hactive') Bool.false_ne_true
      · exact ⟨other, hother, hactive'⟩

/-- **The ensemble invokes a recognizer** on every crop when one of its recognizers is active. -/
theorem invokesOnEveryCrop {ensemble : RecognitionEnsemble σ F D}
    (h : ∃ registration ∈ ensemble.recognizers, isActive registration = true) :
    InvokesOnEveryCrop ensemble := by
  intro plate cropQuality context s s' hfinite hcheck
  obtain ⟨events, hcheck⟩ := (lifts_checkContext (κ := List (ProviderEvent F D)) context _ _ s
    []).1 () s' hcheck
  unfold recognize
  rw [hfinite, if_neg (by simp), after_bind_ok hcheck]
  exact (((triple_foldlM_invoked ensemble.recognizers plate cropQuality context _).mono
    (fun _ h => h) (fun _ _ hinvoked => hinvoked h) fun _ _ hinvoked => hinvoked).bind
      fun _ => triple_pure fun _ hinvoked => hinvoked).after trivial

end

variable (D) in
omit [Scalar D] in
/-- The constructor and the skip rule read the settings only. -/
theorem check_settings [Zero D] (recognizers : List (RecognizerRegistration σ F D)) :
    check ((recognizers.map RecognizerRegistration.settings).map
      (RecognizerSettings.idle (D := D))) = check recognizers := by
  unfold check
  rw [List.map_map, List.isEmpty_map, List.foldlM_map]
  rfl

end RecognitionEnsemble

open RecognitionEnsemble

/-- Diagnostics with one verified model, which remember nothing. -/
def verifiedDiagnostics : ReadinessDiagnostics Frozen :=
  ⟨fun _ => [⟨ascii "lprnet", ascii "1", ascii "00", true⟩], fun _ _ s => s⟩

/-- A detector that detects nothing. -/
def idleDetector : PlateDetector Frozen F := ⟨ascii "detector", fun _ _ => pure []⟩

omit [Scalar D] in
/-- The self-test passes when its providers do nothing and some recognizer is enabled. -/
theorem returns_startupSelfTest_idle [Zero D] {settings : List (RecognizerSettings F)}
    (henabled : ∃ s ∈ settings, s.enabled = true) :
    ∃ report s', LprPipeline.startupSelfTest (some verifiedDiagnostics) idleDetector
      (settings.map (RecognizerSettings.idle (D := D))) .frozen = .ok report s' ∧
        report.ready = true := by
  obtain ⟨report, s', hrun⟩ := StartupSelfTestRunner.run_total verifiedDiagnostics
    (LprPipeline.selfTestChecks verifiedDiagnostics idleDetector
      (settings.map (RecognizerSettings.idle (D := D)))) .frozen
  refine ⟨report, s', hrun, ?_⟩
  have hready := StartupSelfTestRunner.returns_run_ready ?_ verifiedDiagnostics _ _ _ hrun
  · rw [StartupSelfTestReport.ready, hready]
    rfl
  intro c hcheck
  have hset : ((settings.map (RecognizerSettings.idle (D := D))).filter
      RecognizerRegistration.enabled).isEmpty = false := by
    obtain ⟨s, hs, henabled⟩ := henabled
    rw [List.isEmpty_eq_false_iff_exists_mem]
    exact ⟨_, List.mem_filter.mpr ⟨List.mem_map_of_mem hs, henabled⟩⟩
  rw [LprPipeline.selfTestChecks, hset, if_neg Bool.false_ne_true, List.append_nil] at hcheck
  rcases List.mem_append.mp hcheck with hcheck | hcheck
  · rcases List.mem_pair.mp hcheck with rfl | rfl
    · exact ⟨by decide, _, rfl, fun s e t h => nomatch h⟩
    · exact ⟨List.cons_ne_nil _ _, _, rfl, fun s e t h => nomatch h⟩
  · obtain ⟨registration, hregistration, rfl⟩ := List.mem_map.mp hcheck
    obtain ⟨s, -, rfl⟩ := List.mem_map.mp (List.mem_filter.mp hregistration).1
    exact ⟨List.cons_ne_nil _ _, _, rfl, fun s e t h => nomatch h⟩

/-- **The self-test misses a zero weight**: it passes, and no recognizer is invoked. -/
theorem not_readinessAgrees {settings : List (RecognizerSettings F)}
    (haccepted : check (settings.map (RecognizerSettings.idle (D := D))) = .ok ())
    (henabled : ∃ s ∈ settings, s.enabled = true)
    (hinactive : ∀ s ∈ settings, isActive (s.idle (D := D)) = false) (cropQuality : F)
    (hfinite : Scalar.isFinite cropQuality = true) :
    ¬ ReadinessAgrees F D settings := by
  intro hagrees
  obtain ⟨report, s', hrun, hready⟩ := returns_startupSelfTest_idle (D := D) henabled
  let ensemble : RecognitionEnsemble Frozen F D := ⟨_, haccepted⟩
  have hsettings : ensemble.recognizers.map RecognizerRegistration.settings = settings := by
    rw [List.map_map]
    exact List.map_id settings
  have hinvokes := hagrees Frozen ensemble _ _ hsettings _ report s' hrun hready
    ⟨[], 0, 0, 0, .bgr8⟩ cropQuality ⟨none⟩ .frozen .frozen hfinite rfl
  refine hinvokes ?_
  have htraced : ∀ registration ∈ ensemble.traced.recognizers, isActive registration = false := by
    intro registration hregistration
    obtain ⟨source, hsource, rfl⟩ := List.mem_map.mp hregistration
    obtain ⟨s, hs, rfl⟩ := List.mem_map.mp hsource
    exact hinactive s hs
  unfold recognize
  rw [hfinite, if_neg (by simp), foldlM_inactive htraced]
  rfl

omit [Scalar D] in
/-- What the settings decide is the same for two lists with the same settings. -/
theorem exists_of_settings {σ τ : Type} {recognizers : List (RecognizerRegistration σ F D)}
    {others : List (RecognizerRegistration τ F D)}
    (h : recognizers.map RecognizerRegistration.settings =
      others.map RecognizerRegistration.settings) {registration : RecognizerRegistration σ F D}
    (hregistration : registration ∈ recognizers) :
    ∃ other ∈ others, isActive other = isActive registration ∧
      other.enabled = registration.enabled := by
  have hmem := List.mem_map_of_mem (f := RecognizerRegistration.settings) hregistration
  rw [h] at hmem
  obtain ⟨other, hother, hsettings⟩ := List.mem_map.mp hmem
  refine ⟨other, hother, ?_, congrArg RecognizerSettings.enabled hsettings⟩
  exact congrArg (fun s : RecognizerSettings F => !(!s.enabled || decide (s.weight ≤ 0))) hsettings

omit [Scalar D] in
/-- The weights the constructor accepts are finite. -/
theorem isFinite_weight (ensemble : RecognitionEnsemble σ F D)
    {registration : RecognizerRegistration σ F D}
    (hregistration : registration ∈ ensemble.recognizers) :
    Scalar.isFinite registration.weight = true := by
  obtain ⟨_, -, haccepted⟩ := except_bind_eq_ok.mp ensemble.accepted
  obtain ⟨_, hfold, -⟩ := except_bind_eq_ok.mp haccepted
  obtain ⟨names, _, hcheck⟩ := except_foldlM_eq_ok hfold registration hregistration
  obtain ⟨_, -, hcheck⟩ := except_bind_eq_ok.mp hcheck
  obtain ⟨_, hweight, -⟩ := except_bind_eq_ok.mp hcheck
  rw [require_eq_ok, Bool.and_assoc, Bool.and_eq_true] at hweight
  exact hweight.1

omit [Scalar F] [Scalar D] in
/-- With no enabled recognizer the self-test fails. -/
theorem not_ready_of_disabled {recognizers : List (RecognizerRegistration σ F D)}
    (h : ∀ registration ∈ recognizers, registration.enabled = false)
    {diagnostics : Option (ReadinessDiagnostics σ)} {detector : PlateDetector σ F} {s s' : σ}
    {report : StartupSelfTestReport}
    (hrun : LprPipeline.startupSelfTest diagnostics detector recognizers s = .ok report s') :
    report.ready = false := by
  cases diagnostics with
  | none => exact nomatch hrun
  | some diagnostics =>
    have hset : recognizers.filter RecognizerRegistration.enabled = [] :=
      List.filter_eq_nil_iff.mpr fun registration hregistration => by
        rw [h registration hregistration]
        exact Bool.false_ne_true
    have hcheck : LprPipeline.recognizerSetCheck ∈
        LprPipeline.selfTestChecks diagnostics detector recognizers := by
      rw [LprPipeline.selfTestChecks, hset]
      exact List.mem_append_right _ List.mem_cons_self
    have hfailed := StartupSelfTestRunner.returns_run_failed hcheck rfl rfl (returns_throw _ _)
      diagnostics _ _ _ hrun
    rw [StartupSelfTestReport.ready, hfailed]
    rfl

/-- **Readiness agreement.**  The promise of the self-test holds, whatever the providers do, exactly
when some enabled recognizer has positive weight or none is enabled. -/
theorem readinessAgrees_iff (ensemble : RecognitionEnsemble σ F D) :
    ReadinessAgrees F D (ensemble.recognizers.map RecognizerRegistration.settings) ↔
      (∃ registration ∈ ensemble.recognizers, isActive registration = true) ∨
        ∀ registration ∈ ensemble.recognizers, registration.enabled = false := by
  constructor
  · intro hagrees
    by_contra h
    rw [not_or] at h
    obtain ⟨hinactive, henabled⟩ := h
    push Not at henabled
    obtain ⟨registration, hregistration, henabled⟩ := henabled
    refine not_readinessAgrees ((check_settings D _).trans ensemble.accepted)
      ⟨_, List.mem_map_of_mem hregistration, Bool.eq_true_of_not_eq_false henabled⟩ ?_
      registration.weight (isFinite_weight ensemble hregistration) hagrees
    intro s hs
    obtain ⟨source, hsource, rfl⟩ := List.mem_map.mp hs
    exact Bool.eq_false_of_not_eq_true fun hactive => hinactive ⟨source, hsource, hactive⟩
  · intro h τ _ other diagnostics detector hsettings s report s' hrun hready
    rcases h with ⟨registration, hregistration, hactive⟩ | hdisabled
    · obtain ⟨registration', hregistration', hactive', -⟩ :=
        exists_of_settings hsettings.symm hregistration
      exact invokesOnEveryCrop ⟨registration', hregistration', hactive'.trans hactive⟩
    · have hnone : ∀ registration ∈ other.recognizers, registration.enabled = false := by
        intro registration hregistration
        obtain ⟨source, hsource, -, henabled⟩ := exists_of_settings hsettings hregistration
        exact henabled ▸ hdisabled source hsource
      exact absurd (hready.symm.trans (not_ready_of_disabled hnone hrun)) (by decide)

/-- A required recognizer, enabled with weight zero: the engine reports ready and recognizes
nothing. -/
theorem not_readinessAgrees_zeroWeight :
    ¬ ReadinessAgrees ℚ ℚ [⟨ascii "ocr", 0, 1000, true, true⟩] :=
  not_readinessAgrees rfl ⟨_, List.mem_singleton_self _, rfl⟩
    (fun s hs => by rw [List.mem_singleton.mp hs]; rfl) 1 rfl

end FacLpr

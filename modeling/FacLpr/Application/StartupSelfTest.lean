import FacLpr.Application.EngineBuilder

/-!
# Application/StartupSelfTest — is the engine ready

The self-test makes a list of checks and runs them all: the integrity of the models, one inference
of the detector, one of each enabled recognizer.  A check that throws has failed, whatever it threw.
-/

namespace FacLpr

open Program

inductive ReadinessState where
  | ready
  | degraded
  | failed
  deriving DecidableEq, Repr

/-- What one check came to; the summary of an exception that is not the engine's is left open. -/
structure StartupCheckSnapshot where
  name : Text
  required : Bool
  passed : Bool
  summary : Option String
  deriving DecidableEq

structure DiagnosticModelInfo where
  name : Text
  version : Text
  sha256 : Text
  integrityVerified : Bool
  deriving DecidableEq

/-- `EngineDiagnostics`, by what the self-test calls of it; none of it throws. -/
structure ReadinessDiagnostics (σ : Type) where
  models : σ → List DiagnosticModelInfo
  setReadiness : ReadinessState → List StartupCheckSnapshot → σ → σ

structure StartupSelfTestCheck (σ : Type) where
  name : Text
  required : Bool
  execute : Option (Run σ Unit)

structure StartupSelfTestReport where
  readiness : ReadinessState
  checks : List StartupCheckSnapshot
  deriving DecidableEq

/-- `StartupSelfTestReport::ready`. -/
def StartupSelfTestReport.ready (report : StartupSelfTestReport) : Bool :=
  decide (report.readiness = .ready) || decide (report.readiness = .degraded)

variable {σ F D : Type}

namespace StartupSelfTestRunner

/-- The variables of the loop over the checks. -/
structure CheckLoop where
  checks : List StartupCheckSnapshot
  requiredFailed : Bool
  optionalFailed : Bool

def summaryOf : Exn → Option String
  | .engine error => some error.message
  | .foreign => none

/-- The body of the loop: what one check comes to. -/
def snapshotOf (check : StartupSelfTestCheck σ) : Run σ StartupCheckSnapshot :=
  let invalid := ⟨check.name, check.required, false, some "invalid startup self-test registration"⟩
  match check.execute with
  | none => pure invalid
  | some execute =>
      if check.name.isEmpty then pure invalid
      else
        tryCatch
          (do
            execute
            return ⟨check.name, check.required, true, some "ok"⟩)
          fun e => pure ⟨check.name, check.required, false, summaryOf e⟩

def checkStep (loop : CheckLoop) (check : StartupSelfTestCheck σ) : Run σ CheckLoop := do
  let snapshot ← snapshotOf check
  return {
    checks := loop.checks ++ [snapshot]
    requiredFailed := loop.requiredFailed || (!snapshot.passed && snapshot.required)
    optionalFailed := loop.optionalFailed || (!snapshot.passed && !snapshot.required) }

/-- `StartupSelfTestRunner::run`. -/
def run (diagnostics : ReadinessDiagnostics σ) (checks : List (StartupSelfTestCheck σ)) :
    Run σ StartupSelfTestReport := do
  let loop ← checks.foldlM checkStep ⟨[], false, false⟩
  let readiness :=
    if loop.requiredFailed then ReadinessState.failed
    else if loop.optionalFailed then .degraded
    else .ready
  modify (diagnostics.setReadiness readiness loop.checks)
  return ⟨readiness, loop.checks⟩

/-! ## What a report says -/

/-- The flags of the loop are those of the checks it has run, which came out as `R` allows. -/
structure LoopOf (R : StartupSelfTestCheck σ → StartupCheckSnapshot → Prop)
    (done : List (StartupSelfTestCheck σ)) (loop : CheckLoop) : Prop where
  checks : List.Forall₂ R done loop.checks
  required : loop.requiredFailed = loop.checks.any fun snapshot =>
    !snapshot.passed && snapshot.required
  optional : loop.optionalFailed = loop.checks.any fun snapshot =>
    !snapshot.passed && !snapshot.required

/-- **The readiness** is that of the checks: failed when a required one failed, degraded when only
others did. -/
theorem returns_run {R : StartupSelfTestCheck σ → StartupCheckSnapshot → Prop}
    {checks : List (StartupSelfTestCheck σ)}
    (h : ∀ check ∈ checks, Returns (snapshotOf check) (R check))
    (diagnostics : ReadinessDiagnostics σ) :
    Returns (run diagnostics checks) fun report =>
      List.Forall₂ R checks report.checks ∧
        report.readiness =
          if report.checks.any fun snapshot => !snapshot.passed && snapshot.required then .failed
          else if report.checks.any fun snapshot => !snapshot.passed && !snapshot.required then
            .degraded
          else .ready := by
  have hloop : Returns (checks.foldlM checkStep ⟨[], false, false⟩)
      (fun loop => LoopOf R checks loop) := by
    refine (Returns.foldlM_rest (I := fun rest loop => ∃ done, checks = done ++ rest ∧
      LoopOf R done loop) ?_ ⟨[], rfl, .nil, rfl, rfl⟩).mono ?_
    · rintro check rest loop ⟨done, hchecks, hloop⟩
      refine (h check (by simp [hchecks])).bind fun snapshot hsnapshot => returns_pure ?_
      refine ⟨done ++ [check], by simp [hchecks], ?_, ?_, ?_⟩
      · exact List.rel_append hloop.checks (.cons hsnapshot .nil)
      · simp [hloop.required, List.any_append]
      · simp [hloop.optional, List.any_append]
    · rintro loop ⟨done, hchecks, hloop⟩
      rw [List.append_nil] at hchecks
      exact hchecks ▸ hloop
  refine hloop.bind fun loop hloop => (returns_self _).bind fun _ _ => returns_pure ?_
  rw [← hloop.required, ← hloop.optional]
  exact ⟨hloop.checks, rfl⟩

theorem throws_snapshotOf (check : StartupSelfTestCheck σ) :
    Throws (snapshotOf check) fun _ => False := by
  unfold snapshotOf
  split
  · exact throws_pure
  · refine Throws.ite throws_pure fun s e s' h => ?_
    rename_i execute hexecute
    cases hrun : (do
        execute
        return ⟨check.name, check.required, true, some "ok"⟩ : Run σ StartupCheckSnapshot) s with
    | ok snapshot t => exact nomatch (tryCatch_run_ok hrun).symm.trans h
    | error e t => exact nomatch (tryCatch_run_error hrun).symm.trans h

/-- **The self-test always reports.** -/
theorem run_total (diagnostics : ReadinessDiagnostics σ) (checks : List (StartupSelfTestCheck σ))
    (s : σ) : ∃ report s', run diagnostics checks s = .ok report s' := by
  have hthrows : Throws (run diagnostics checks) fun _ => False :=
    (throws_foldlM (fun _ check => (throws_snapshotOf check).bind fun _ => throws_pure) _ _).bind
      fun loop => Throws.bind (fun _ _ _ h => nomatch h) fun _ => throws_pure
  cases hrun : run diagnostics checks s with
  | ok report s' => exact ⟨report, s', rfl⟩
  | error e s' => exact (hthrows s e s' hrun).elim

/-- A check that never throws passes. -/
theorem returns_snapshotOf_passed {check : StartupSelfTestCheck σ} {execute : Run σ Unit}
    (hname : check.name ≠ []) (hexecute : check.execute = some execute)
    (h : Throws execute fun _ => False) :
    Returns (snapshotOf check) fun snapshot => snapshot.passed = true := by
  unfold snapshotOf
  rw [hexecute]
  refine fun s snapshot s' hrun => ?_
  simp only at hrun
  split at hrun
  · rename_i hempty
    exact absurd (List.isEmpty_iff.mp hempty) hname
  · cases hexec : execute s with
    | ok a t =>
      have hbody : (do
          execute
          return ⟨check.name, check.required, true, some "ok"⟩ : Run σ StartupCheckSnapshot) s =
            .ok ⟨check.name, check.required, true, some "ok"⟩ t := bind_run_ok hexec
      rw [tryCatch_run_ok hbody] at hrun
      cases hrun
      rfl
    | error e t => exact (h s e t hexec).elim

/-- A check that never returns fails. -/
theorem returns_snapshotOf_failed {check : StartupSelfTestCheck σ} {execute : Run σ Unit}
    (hexecute : check.execute = some execute) (h : Returns execute fun _ => False) :
    Returns (snapshotOf check) fun snapshot =>
      snapshot.passed = false ∧ snapshot.required = check.required := by
  unfold snapshotOf
  rw [hexecute]
  refine fun s snapshot s' hrun => ?_
  simp only at hrun
  split at hrun
  · cases hrun
    exact ⟨rfl, rfl⟩
  · cases hexec : execute s with
    | ok a t => exact (h s a t hexec).elim
    | error e t =>
      have hbody : (do
          execute
          return ⟨check.name, check.required, true, some "ok"⟩ : Run σ StartupCheckSnapshot) s =
            .error e t := bind_run_error hexec
      rw [tryCatch_run_error hbody] at hrun
      cases hrun
      exact ⟨rfl, rfl⟩

/-- **Ready** when no check throws. -/
theorem returns_run_ready {checks : List (StartupSelfTestCheck σ)}
    (h : ∀ check ∈ checks, check.name ≠ [] ∧
      ∃ execute, check.execute = some execute ∧ Throws execute fun _ => False)
    (diagnostics : ReadinessDiagnostics σ) :
    Returns (run diagnostics checks) fun report => report.readiness = .ready := by
  refine (returns_run (R := fun _ snapshot => snapshot.passed = true) (fun check hcheck => ?_)
    diagnostics).mono ?_
  · obtain ⟨hname, execute, hexecute, hthrows⟩ := h check hcheck
    exact returns_snapshotOf_passed hname hexecute hthrows
  · rintro report ⟨hchecks, hreadiness⟩
    have hpassed : ∀ snapshot ∈ report.checks, snapshot.passed = true := fun snapshot hsnapshot =>
      (forall₂_exists_left hchecks hsnapshot).choose_spec.2
    have hnone : ∀ p : StartupCheckSnapshot → Bool,
        report.checks.any (fun snapshot => !snapshot.passed && p snapshot) = false := fun p => by
      rw [List.any_eq_false]
      intro snapshot hsnapshot
      simp [hpassed snapshot hsnapshot]
    rw [hreadiness, hnone, hnone fun snapshot => !snapshot.required]
    rfl

/-- **Failed** when a required check never returns. -/
theorem returns_run_failed {checks : List (StartupSelfTestCheck σ)}
    {check : StartupSelfTestCheck σ} (hcheck : check ∈ checks) (hrequired : check.required = true)
    {execute : Run σ Unit} (hexecute : check.execute = some execute)
    (h : Returns execute fun _ => False) (diagnostics : ReadinessDiagnostics σ) :
    Returns (run diagnostics checks) fun report => report.readiness = .failed := by
  refine (returns_run (R := fun c snapshot => c = check →
    snapshot.passed = false ∧ snapshot.required = check.required) (fun c _ => ?_)
    diagnostics).mono ?_
  · by_cases hc : c = check
    · subst hc
      exact (returns_snapshotOf_failed hexecute h).mono fun _ hsnapshot _ => hsnapshot
    · exact fun _ _ _ _ heq => absurd heq hc
  · rintro report ⟨hchecks, hreadiness⟩
    obtain ⟨snapshot, hsnapshot, hfailed⟩ := forall₂_exists_left hchecks.flip hcheck
    have hany : report.checks.any (fun snapshot => !snapshot.passed && snapshot.required) = true :=
      List.any_eq_true.mpr ⟨snapshot, hsnapshot, by simp [hfailed rfl, hrequired]⟩
    rw [hreadiness, hany, if_pos rfl]

end StartupSelfTestRunner

namespace LprPipeline

/-- `synthetic_bgr_image`: black. -/
def syntheticBgrImage (width height : ℕ) : ImageBuffer where
  bytes := List.replicate (width * 3 * height) 0
  width := width
  height := height
  strideBytes := width * 3
  format := .bgr8

/-- What `model_integrity` refuses in a model. -/
def isUnverified (model : DiagnosticModelInfo) : Bool :=
  model.name.isEmpty || model.sha256.isEmpty || !model.integrityVerified

def modelIntegrityCheck (diagnostics : ReadinessDiagnostics σ) : StartupSelfTestCheck σ where
  name := ascii "model_integrity"
  required := true
  execute := some do
    let models := diagnostics.models (← get)
    if models.isEmpty then
      Run.throw (modelLoadError "no active model integrity metadata registered")
    else if models.any isUnverified then
      Run.throw (modelLoadError "active model integrity verification is incomplete")
    else pure ()

def detectorCheck (detector : PlateDetector σ F) : StartupSelfTestCheck σ where
  name := ascii "detector:" ++ detector.name
  required := true
  execute := some do
    let _ ← detector.detect (syntheticBgrImage 64 64).view ⟨none⟩
    return

def recognizerCheck (registration : RecognizerRegistration σ F D) : StartupSelfTestCheck σ where
  name := ascii "recognizer:" ++ registration.provider.name
  required := registration.required
  execute := some do
    let _ ← registration.provider.recognize (syntheticBgrImage 160 40).view ⟨none⟩
    return

def recognizerSetCheck : StartupSelfTestCheck σ where
  name := ascii "recognizer_set"
  required := true
  execute := some (Run.throw (configurationError "no enabled recognizer provider is configured"))

/-- The checks of `startup_self_test`: a recognizer counts when it is enabled. -/
def selfTestChecks (diagnostics : ReadinessDiagnostics σ) (detector : PlateDetector σ F)
    (recognizers : List (RecognizerRegistration σ F D)) : List (StartupSelfTestCheck σ) :=
  let enabled := recognizers.filter RecognizerRegistration.enabled
  [modelIntegrityCheck diagnostics, detectorCheck detector] ++ enabled.map recognizerCheck ++
    if enabled.isEmpty then [recognizerSetCheck] else []

/-- `LprPipeline::startup_self_test`. -/
def startupSelfTest (diagnostics : Option (ReadinessDiagnostics σ)) (detector : PlateDetector σ F)
    (recognizers : List (RecognizerRegistration σ F D)) : Run σ StartupSelfTestReport :=
  match diagnostics with
  | none => Run.throw (configurationError "startup self-test requires diagnostics")
  | some diagnostics =>
      StartupSelfTestRunner.run diagnostics (selfTestChecks diagnostics detector recognizers)

end LprPipeline

end FacLpr

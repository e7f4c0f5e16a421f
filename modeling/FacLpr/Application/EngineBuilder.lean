import FacLpr.Application.LprPipeline

/-!
# Application/EngineBuilder — the composition root

A call of the builder checks its provider, registers it and fills a slot, in that order; what the
registry did before it throws is undone there.  Every call is a program over the builder that may
throw, so what a failed call leaves behind is a fact about its last state.
-/

namespace FacLpr

inductive ProviderRole where
  | detector
  | geometry
  | aligner
  | cropGenerator
  | recognizer
  | calibrator
  | layoutAnalyzer
  | candidateFusion
  | decisionPolicy
  deriving DecidableEq, Repr

/-- `role_name`. -/
def ProviderRole.roleName : ProviderRole → String
  | .detector => "detector"
  | .geometry => "geometry"
  | .aligner => "aligner"
  | .cropGenerator => "crop_generator"
  | .recognizer => "recognizer"
  | .calibrator => "calibrator"
  | .layoutAnalyzer => "layout_analyzer"
  | .candidateFusion => "candidate_fusion"
  | .decisionPolicy => "decision_policy"

structure ProviderRegistrationInfo where
  role : ProviderRole
  name : Text
  deriving DecidableEq

structure ProviderRegistry where
  keys : Finset Text
  singletonRoles : Finset Text
  registrations : List ProviderRegistrationInfo

namespace ProviderRegistry

open Program

/-- A default-constructed `ProviderRegistry`. -/
def empty : ProviderRegistry := ⟨∅, ∅, []⟩

def roleKey (role : ProviderRole) : Text := ascii role.roleName

/-- The key of a registration. -/
def keyOf (info : ProviderRegistrationInfo) : Text := roleKey info.role ++ ascii ":" ++ info.name

/-- `register_impl`: the key goes in first, and out again when the role is taken. -/
def registerImpl (role : ProviderRole) (name : Text) (singleton : Bool) :
    Program EngineError ProviderRegistry Unit := do
  Program.ofExcept (require (!name.isEmpty)
    (configurationError "provider registration name cannot be empty"))
  let roleText := roleKey role
  let key := keyOf ⟨role, name⟩
  if key ∈ (← get).keys then
    throw (configurationError ("duplicate provider name/type registration: " ++ messageOf key))
  else
    modify fun registry => { registry with keys := insert key registry.keys }
    if singleton && decide (roleText ∈ (← get).singletonRoles) then
      modify fun registry => { registry with keys := registry.keys.erase key }
      throw (configurationError
        ("duplicate singleton provider role registration: " ++ messageOf roleText))
    else
      modify fun registry =>
        { registry with
          singletonRoles := if singleton then insert roleText registry.singletonRoles
            else registry.singletonRoles
          registrations := registry.registrations ++ [⟨role, name⟩] }

def registerSingleton (role : ProviderRole) (name : Text) :
    Program EngineError ProviderRegistry Unit :=
  registerImpl role name true

def registerMulti (role : ProviderRole) (name : Text) :
    Program EngineError ProviderRegistry Unit :=
  registerImpl role name false

/-! ## What a registration does -/

/-- What `register_impl` makes of a registry it accepts the registration in. -/
structure Registered (registry : ProviderRegistry) (role : ProviderRole) (name : Text)
    (singleton : Bool) (next : ProviderRegistry) : Prop where
  fresh : keyOf ⟨role, name⟩ ∉ registry.keys
  free : singleton = true → roleKey role ∉ registry.singletonRoles
  next_eq : next =
    { keys := insert (keyOf ⟨role, name⟩) registry.keys
      singletonRoles := if singleton then insert (roleKey role) registry.singletonRoles
        else registry.singletonRoles
      registrations := registry.registrations ++ [⟨role, name⟩] }

/-- **A registration** goes in whole, or the registry is as it was. -/
theorem triple_registerImpl (registry : ProviderRegistry) (role : ProviderRole) (name : Text)
    (singleton : Bool) : Triple (· = registry) (registerImpl role name singleton)
      (fun _ next => Registered registry role name singleton next)
      (fun _ next => next = registry) := by
  refine (triple_ofExcept (Q := fun _ next => next = registry) (fun _ _ _ h => h)
    fun _ _ _ h => h).bind fun _ => triple_get.bind fun current => ?_
  split
  · exact triple_throw fun _ h => h.2
  · rename_i hkey
    refine triple_modify.bind fun _ => triple_get.bind fun inserted => ?_
    split
    · refine triple_modify.bind fun _ => triple_throw ?_
      rintro next ⟨_, ⟨rfl, _, ⟨rfl, rfl⟩, rfl⟩, rfl⟩
      rw [Finset.erase_insert hkey]
    · rename_i hrole
      refine triple_modify.mono (fun _ h => h) ?_ fun _ _ h => h
      rintro _ next ⟨_, ⟨rfl, _, ⟨rfl, rfl⟩, rfl⟩, rfl⟩
      exact ⟨hkey, fun hsingleton htaken => hrole (by simpa [hsingleton] using htaken), rfl⟩

/-! ## The registry's invariant -/

/-- The key set and the taken roles are those of the registrations, each key once, each role but
the recognizer's at most once. -/
structure Coherent (registry : ProviderRegistry) : Prop where
  keys_eq : registry.keys = (registry.registrations.map keyOf).toFinset
  keys_nodup : (registry.registrations.map keyOf).Nodup
  taken_iff : ∀ role, roleKey role ∈ registry.singletonRoles ↔
    role ≠ .recognizer ∧ ∃ info ∈ registry.registrations, info.role = role
  once : ∀ role, role ≠ .recognizer →
    registry.registrations.countP (fun info => info.role == role) ≤ 1

theorem coherent_empty : Coherent empty where
  keys_eq := rfl
  keys_nodup := List.nodup_nil
  taken_iff _ := by simp [empty]
  once _ _ := Nat.zero_le 1

theorem roleKey_injective : Function.Injective roleKey := by
  intro a b
  cases a <;> cases b <;> decide

/-- A role is registered in a list with one more registration. -/
theorem exists_role_append {registrations : List ProviderRegistrationInfo} {role : ProviderRole}
    {info : ProviderRegistrationInfo} : (∃ i ∈ registrations ++ [info], i.role = role) ↔
      (∃ i ∈ registrations, i.role = role) ∨ info.role = role := by
  simp only [List.mem_append, List.mem_singleton, or_and_right, exists_or, exists_eq_left]

/-- **A registration keeps the registry coherent.** -/
theorem Registered.coherent {registry next : ProviderRegistry} {role : ProviderRole} {name : Text}
    {singleton : Bool} (h : Registered registry role name singleton next)
    (hsingleton : singleton = true ↔ role ≠ .recognizer) (hregistry : Coherent registry) :
    Coherent next := by
  obtain ⟨hfresh, hfree, rfl⟩ := h
  rw [hregistry.keys_eq, List.mem_toFinset] at hfresh
  refine ⟨?_, ?_, fun other => ?_, fun other hother => ?_⟩
  · simp only [hregistry.keys_eq, List.map_append, List.map_singleton, List.toFinset_append,
      List.toFinset_cons, List.toFinset_nil]
    rw [Finset.union_insert, Finset.union_empty]
  · simp only [List.map_append, List.map_singleton]
    exact hregistry.keys_nodup.append (List.nodup_singleton _)
      (List.disjoint_singleton.mpr hfresh)
  · simp only [exists_role_append, and_or_left, ← hregistry.taken_iff other]
    cases hs : singleton with
    | false =>
      have hrole : role = .recognizer := by
        by_contra hrole
        exact Bool.false_ne_true (hs ▸ hsingleton.mpr hrole)
      refine ⟨Or.inl, fun h => h.resolve_right ?_⟩
      rintro ⟨hother, rfl⟩
      exact hother hrole
    | true =>
      rw [if_pos rfl, Finset.mem_insert, or_comm]
      refine or_congr_right ⟨fun h => ?_, fun ⟨_, h⟩ => h ▸ rfl⟩
      obtain rfl := roleKey_injective h
      exact ⟨hsingleton.mp hs, rfl⟩
  · rw [List.countP_append, List.countP_singleton]
    split
    · rename_i hrole
      obtain rfl : role = other := by simpa using hrole
      have hnone : registry.registrations.countP (fun info => info.role == role) = 0 := by
        rw [List.countP_eq_zero]
        intro info hinfo hrole
        exact hfree (hsingleton.mpr hother)
          ((hregistry.taken_iff role).mpr ⟨hother, info, hinfo, by simpa using hrole⟩)
      rw [hnone]
    · exact hregistry.once other hother

end ProviderRegistry

/-- The dependency slots of the builder; that of the ensemble, which only `build` fills, in its own
copy, is left out. -/
structure BuilderDependencies (σ F D : Type) where
  detector : Option (PlateDetector σ F)
  geometry : Option (Detection F → OperationContext → Run σ (GeometryEvidence F))
  aligner : Option (ImageView → Detection F → OperationContext → Run σ (Option ImageBuffer))
  cropGenerator : Option (CropGenerator σ F)
  calibrator : Option (Text → F → F → Text → Run σ F)
  layoutAnalyzer : Option (ImageView → List (PlateCandidate F) → OperationContext →
    Run σ (LayoutEvidence F))
  candidateFusion : Option (List (RecognitionEvidence F D) → List (LayoutEvidence F) →
    Run σ (List (PlateCandidate F)))
  decisionPolicy : Option (Detection F → List (RecognitionEvidence F D) →
    List (PlateCandidate F) → RecognitionDecisionContext → Run σ (PlateRecognitionResult F D))
  diagnostics : Option (EngineDiagnostics σ D)

/-- Whether the slot of a role is set; the recognizers have a list instead. -/
def BuilderDependencies.isSet {σ F D : Type} (dependencies : BuilderDependencies σ F D) :
    ProviderRole → Bool
  | .detector => dependencies.detector.isSome
  | .geometry => dependencies.geometry.isSome
  | .aligner => dependencies.aligner.isSome
  | .cropGenerator => dependencies.cropGenerator.isSome
  | .recognizer => false
  | .calibrator => dependencies.calibrator.isSome
  | .layoutAnalyzer => dependencies.layoutAnalyzer.isSome
  | .candidateFusion => dependencies.candidateFusion.isSome
  | .decisionPolicy => dependencies.decisionPolicy.isSome

structure LprEngineBuilder (σ F D : Type) where
  registry : ProviderRegistry
  dependencies : BuilderDependencies σ F D
  recognizers : List (RecognizerRegistration σ F D)

namespace LprEngineBuilder

open Program ProviderRegistry

variable {σ F D : Type}

/-- A default-constructed builder, with the diagnostics it makes for itself. -/
def empty (diagnostics : EngineDiagnostics σ D) : LprEngineBuilder σ F D :=
  ⟨.empty, ⟨none, none, none, none, none, none, none, none, some diagnostics⟩, []⟩

/-- A call of the builder. -/
abbrev Call (σ F D : Type) := Program EngineError (LprEngineBuilder σ F D) Unit

def requireProvider {α : Type} (provider : Option α) (role : ProviderRole) :
    Except EngineError α :=
  match provider with
  | some provider => .ok provider
  | none => .error (configurationError ("missing provider for role: " ++ role.roleName))

/-- A registration in the builder's registry. -/
def register (registration : Program EngineError ProviderRegistry Unit) : Call σ F D :=
  onPart registry (fun registry builder => { builder with registry }) registration

/-- The calls for the singleton roles: check the provider, register it, fill the slot. -/
def setSingleton {α : Type} (role : ProviderRole) (name : α → Text)
    (fill : α → BuilderDependencies σ F D → BuilderDependencies σ F D) (provider : Option α) :
    Program EngineError (LprEngineBuilder σ F D) Unit := do
  let provider ← Program.ofExcept (requireProvider provider role)
  register (registerSingleton role (name provider))
  modify fun builder => { builder with dependencies := fill provider builder.dependencies }

def detector (provider : Option (PlateDetector σ F)) : Call σ F D :=
  setSingleton .detector PlateDetector.name
    (fun provider slots => { slots with detector := some provider }) provider

def geometry (name : Text)
    (provider : Option (Detection F → OperationContext → Run σ (GeometryEvidence F))) :
    Call σ F D :=
  setSingleton .geometry (fun _ => name)
    (fun provider slots => { slots with geometry := some provider }) provider

def aligner (name : Text)
    (provider : Option (ImageView → Detection F → OperationContext → Run σ (Option ImageBuffer))) :
    Call σ F D :=
  setSingleton .aligner (fun _ => name)
    (fun provider slots => { slots with aligner := some provider }) provider

def cropGenerator (provider : Option (CropGenerator σ F)) : Call σ F D :=
  setSingleton .cropGenerator CropGenerator.name
    (fun provider slots => { slots with cropGenerator := some provider }) provider

/-- The call for the recognizers: a disabled one is refused. -/
def recognizer (provider : Option (PlateRecognizer σ F D)) (weight : F) (timeout : ℤ)
    (required enabled : Bool) : Program EngineError (LprEngineBuilder σ F D) Unit := do
  let provider ← Program.ofExcept (requireProvider provider .recognizer)
  Program.ofExcept (require enabled (configurationError
    "disabled recognizer cannot be registered in the active engine builder"))
  register (registerMulti .recognizer provider.name)
  modify fun builder =>
    { builder with
      recognizers := builder.recognizers ++ [⟨provider, weight, timeout, required, enabled⟩] }

def calibrator (name : Text) (provider : Option (Text → F → F → Text → Run σ F)) : Call σ F D :=
  setSingleton .calibrator (fun _ => name)
    (fun provider slots => { slots with calibrator := some provider }) provider

def layoutAnalyzer (name : Text)
    (provider : Option (ImageView → List (PlateCandidate F) → OperationContext →
      Run σ (LayoutEvidence F))) : Call σ F D :=
  setSingleton .layoutAnalyzer (fun _ => name)
    (fun provider slots => { slots with layoutAnalyzer := some provider }) provider

def candidateFusion (name : Text)
    (provider : Option (List (RecognitionEvidence F D) → List (LayoutEvidence F) →
      Run σ (List (PlateCandidate F)))) : Call σ F D :=
  setSingleton .candidateFusion (fun _ => name)
    (fun provider slots => { slots with candidateFusion := some provider }) provider

def decisionPolicy (name : Text)
    (provider : Option (Detection F → List (RecognitionEvidence F D) → List (PlateCandidate F) →
      RecognitionDecisionContext → Run σ (PlateRecognitionResult F D))) : Call σ F D :=
  setSingleton .decisionPolicy (fun _ => name)
    (fun provider slots => { slots with decisionPolicy := some provider }) provider

def diagnostics (diagnostics : Option (EngineDiagnostics σ D)) :
    Program EngineError (LprEngineBuilder σ F D) Unit :=
  match diagnostics with
  | none => throw (configurationError "engine diagnostics cannot be null")
  | some diagnostics =>
      modify fun builder =>
        { builder with
          dependencies := { builder.dependencies with diagnostics := some diagnostics } }

/-- `LprEngineBuilder::build`, which leaves the builder alone. -/
def build [Scalar F] (builder : LprEngineBuilder σ F D) :
    Except EngineError (LprPipelineDependencies σ F D) := do
  let slots := builder.dependencies
  let detector ← requireProvider slots.detector .detector
  let geometry ← requireProvider slots.geometry .geometry
  let aligner ← requireProvider slots.aligner .aligner
  let cropGenerator ← requireProvider slots.cropGenerator .cropGenerator
  let calibrator ← requireProvider slots.calibrator .calibrator
  let layoutAnalyzer ← requireProvider slots.layoutAnalyzer .layoutAnalyzer
  let candidateFusion ← requireProvider slots.candidateFusion .candidateFusion
  let decisionPolicy ← requireProvider slots.decisionPolicy .decisionPolicy
  require (!builder.recognizers.isEmpty)
    (configurationError "at least one recognizer must be registered")
  match h : RecognitionEnsemble.check builder.recognizers with
  | .error error => .error error
  | .ok () => .ok {
      detector := detector.detect
      geometry
      aligner
      cropGenerator := cropGenerator.generate
      recognitionEnsemble := ⟨builder.recognizers, h⟩
      calibrator
      layoutAnalyzer
      candidateFusion
      decisionPolicy
      diagnostics := slots.diagnostics }

/-- A call of `build`. -/
def buildCall [Scalar F] : Program EngineError (LprEngineBuilder σ F D) Unit := do
  let builder ← get
  let _ ← Program.ofExcept (build builder)
  return

/-! ## The builder's invariant -/

/-- The registry is coherent; a slot is set exactly when its role is registered; the recognizers
are those registered, in their order. -/
structure Coherent (builder : LprEngineBuilder σ F D) : Prop where
  registry : builder.registry.Coherent
  slots : ∀ role, role ≠ .recognizer → (builder.dependencies.isSet role = true ↔
    ∃ info ∈ builder.registry.registrations, info.role = role)
  recognizers : builder.recognizers.map (fun registration => registration.provider.name) =
    (builder.registry.registrations.filter fun info => info.role == .recognizer).map
      ProviderRegistrationInfo.name

theorem coherent_empty (diagnostics : EngineDiagnostics σ D) :
    Coherent (empty diagnostics : LprEngineBuilder σ F D) where
  registry := ProviderRegistry.coherent_empty
  slots role _ := by cases role <;> simp [empty, ProviderRegistry.empty, BuilderDependencies.isSet]
  recognizers := rfl

/-- The builder after a call that returned is coherent; one that threw left it alone. -/
def Keeps (builder : LprEngineBuilder σ F D) (call : Call σ F D) : Prop :=
  Triple (· = builder) call (fun _ next => next.Coherent) (fun _ next => next = builder)

theorem Keeps.coherent {builder : LprEngineBuilder σ F D} {call : Call σ F D}
    (h : Keeps builder call) (hbuilder : builder.Coherent) : (call.after builder).Coherent := by
  unfold Program.after
  cases hrun : call builder with
  | ok a next => exact (h builder rfl).1 a next hrun
  | error error next =>
    obtain rfl := (h builder rfl).2 error next hrun
    exact hbuilder

/-- A registration in the registry leaves the rest of the builder alone. -/
theorem triple_register (builder : LprEngineBuilder σ F D) (role : ProviderRole) (name : Text)
    (singleton : Bool) :
    Triple (· = builder) (register (registerImpl role name singleton))
      (fun _ next => ∃ registry, Registered builder.registry role name singleton registry ∧
        next = { builder with registry })
      (fun _ next => next = builder) := by
  refine (triple_registerImpl builder.registry role name singleton).onPart.mono (fun _ h => h)
    (fun _ _ h => h) fun _ next h => ?_
  obtain ⟨_, rfl, rfl⟩ := h
  rfl

/-- **The calls for the singleton roles.** -/
theorem keeps_setSingleton {α : Type} {role : ProviderRole} (hrole : role ≠ .recognizer)
    {name : α → Text} {fill : α → BuilderDependencies σ F D → BuilderDependencies σ F D}
    (hfill : ∀ provider slots other,
      (fill provider slots).isSet other = (role == other || slots.isSet other))
    (provider : Option α) {builder : LprEngineBuilder σ F D} (hbuilder : builder.Coherent) :
    Keeps builder (setSingleton role name fill provider) := by
  refine (triple_ofExcept (Q := fun _ next => next = builder) (fun _ _ _ h => h)
    fun _ _ _ h => h).bind fun provider =>
      (triple_register builder role (name provider) true).bind fun _ =>
        triple_modify.mono (fun _ h => h) ?_ fun _ _ h => h
  rintro _ _ ⟨_, ⟨registry, hregistered, rfl⟩, rfl⟩
  have hregistry := hregistered.coherent ⟨fun _ => hrole, fun _ => rfl⟩ hbuilder.registry
  obtain ⟨-, -, rfl⟩ := hregistered
  refine ⟨hregistry, fun other hother => ?_, ?_⟩
  · rw [hfill, Bool.or_eq_true, hbuilder.slots other hother, exists_role_append, or_comm,
      beq_iff_eq]
  · rw [hbuilder.recognizers, List.filter_append, List.filter_cons_of_neg (by simpa using hrole),
      List.filter_nil, List.append_nil]

/-- **The call for the recognizers.** -/
theorem keeps_recognizer (provider : Option (PlateRecognizer σ F D)) (weight : F) (timeout : ℤ)
    (required enabled : Bool) {builder : LprEngineBuilder σ F D} (hbuilder : builder.Coherent) :
    Keeps builder (recognizer provider weight timeout required enabled) := by
  refine (triple_ofExcept (Q := fun _ next => next = builder) (fun _ _ _ h => h)
    fun _ _ _ h => h).bind fun provider =>
      (triple_ofExcept (Q := fun _ next => next = builder) (fun _ _ _ h => h)
        fun _ _ _ h => h).bind fun _ =>
        (triple_register builder .recognizer provider.name false).bind fun _ =>
          triple_modify.mono (fun _ h => h) ?_ fun _ _ h => h
  rintro _ _ ⟨_, ⟨registry, hregistered, rfl⟩, rfl⟩
  have hregistry := hregistered.coherent ⟨fun h => (nomatch h), fun h => absurd rfl h⟩
    hbuilder.registry
  obtain ⟨-, -, rfl⟩ := hregistered
  refine ⟨hregistry, fun other hother => ?_, ?_⟩
  · rw [hbuilder.slots other hother, exists_role_append]
    exact (or_iff_left (Ne.symm hother)).symm
  · rw [List.map_append, hbuilder.recognizers, List.filter_append, List.map_append]
    rfl

theorem keeps_diagnostics (diagnostics : Option (EngineDiagnostics σ D))
    {builder : LprEngineBuilder σ F D} (hbuilder : builder.Coherent) :
    Keeps builder (LprEngineBuilder.diagnostics diagnostics) := by
  cases diagnostics with
  | none =>
    change Triple _ (throw _ : Program EngineError (LprEngineBuilder σ F D) Unit) _ _
    exact triple_throw fun _ h => h
  | some diagnostics =>
    refine triple_modify.mono (fun _ h => h) ?_ fun _ _ h => h
    rintro _ _ ⟨_, rfl, rfl⟩
    exact ⟨hbuilder.registry, fun role hrole => by
      rw [← hbuilder.slots role hrole]; cases role <;> rfl, hbuilder.recognizers⟩

theorem keeps_buildCall [Scalar F] {builder : LprEngineBuilder σ F D}
    (hbuilder : builder.Coherent) : Keeps builder buildCall := by
  refine triple_get.bind fun current => Triple.bind (Q := fun _ next => next = builder)
    (triple_ofExcept (fun _ _ _ h => h.2) fun _ _ _ h => h.2) fun _ => triple_pure ?_
  rintro _ rfl
  exact hbuilder

/-! ## Sequences of calls -/

/-- The calls a client can make. -/
inductive IsMethod [Scalar F] : Call σ F D → Prop where
  | detector (provider) : IsMethod (detector provider)
  | geometry (name provider) : IsMethod (geometry name provider)
  | aligner (name provider) : IsMethod (aligner name provider)
  | cropGenerator (provider) : IsMethod (cropGenerator provider)
  | recognizer (provider weight timeout required enabled) :
      IsMethod (recognizer provider weight timeout required enabled)
  | calibrator (name provider) : IsMethod (calibrator name provider)
  | layoutAnalyzer (name provider) : IsMethod (layoutAnalyzer name provider)
  | candidateFusion (name provider) : IsMethod (candidateFusion name provider)
  | decisionPolicy (name provider) : IsMethod (decisionPolicy name provider)
  | diagnostics (diagnostics) : IsMethod (LprEngineBuilder.diagnostics diagnostics)
  | build : IsMethod buildCall

/-- A call with its arguments. -/
structure MethodCall (σ F D : Type) [Scalar F] where
  run : Call σ F D
  isMethod : IsMethod run

/-- **Every call** keeps a coherent builder coherent, or leaves it alone and throws. -/
theorem MethodCall.keeps [Scalar F] (call : MethodCall σ F D) {builder : LprEngineBuilder σ F D}
    (hbuilder : builder.Coherent) : Keeps builder call.run := by
  obtain ⟨run, hrun⟩ := call
  cases hrun with
  | detector | geometry | aligner | cropGenerator | calibrator | layoutAnalyzer
  | candidateFusion | decisionPolicy =>
    simp only [detector, geometry, aligner, cropGenerator, calibrator, layoutAnalyzer,
      candidateFusion, decisionPolicy]
    refine keeps_setSingleton ?_ ?_ _ hbuilder
    · decide
    · intro _ _ other
      cases other <;> rfl
  | recognizer => exact keeps_recognizer _ _ _ _ _ hbuilder
  | diagnostics => exact keeps_diagnostics _ hbuilder
  | build => exact keeps_buildCall hbuilder

/-- The builder after some calls, those that threw included. -/
def runCalls [Scalar F] (calls : List (MethodCall σ F D)) (builder : LprEngineBuilder σ F D) :
    LprEngineBuilder σ F D :=
  calls.foldl (fun builder call => call.run.after builder) builder

theorem coherent_runCalls [Scalar F] (calls : List (MethodCall σ F D))
    {builder : LprEngineBuilder σ F D} (hbuilder : builder.Coherent) :
    (runCalls calls builder).Coherent := by
  induction calls generalizing builder with
  | nil => exact hbuilder
  | cons call calls ih => exact ih ((call.keeps hbuilder).coherent hbuilder)

/-- **Builder atomicity.**  After any calls, failed ones included, the registry, the slots and the
recognizers agree with each other; and a call that throws leaves all three as they were. -/
theorem coherent_of_calls [Scalar F] (diagnostics : EngineDiagnostics σ D)
    (calls : List (MethodCall σ F D)) :
    (runCalls calls (empty diagnostics)).Coherent ∧
      ∀ (call : MethodCall σ F D) (error : EngineError) (next : LprEngineBuilder σ F D),
        call.run (runCalls calls (empty diagnostics)) = .error error next →
          next = runCalls calls (empty diagnostics) := by
  have hcoherent := coherent_runCalls calls (coherent_empty diagnostics)
  exact ⟨hcoherent, fun call error next hrun => (call.keeps hcoherent _ rfl).2 error next hrun⟩

end LprEngineBuilder

end FacLpr

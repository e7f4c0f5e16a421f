import FacLpr.Application.Error
import FacLpr.Foundations.Run
import FacLpr.Foundations.Text
import Mathlib.Algebra.BigOperators.Group.List.Basic
import Mathlib.Algebra.Ring.Int.Defs

/-!
# Infrastructure/Onnx/ExecutionProvider — the provider a session is to run on

`configure` asks the runtime for its providers and appends the requested one to the session's
options, or falls back to the CPU.  Two of the providers take an options object of their own, which
has to be released on every path.

The runtime is a parameter: each of its calls may fail, for any reason (`OrtApi`).  The state is the
log of the calls.
-/

namespace FacLpr

inductive OnnxExecutionProvider where
  | cpu
  | cuda
  | directml
  | tensorrt
  deriving DecidableEq

inductive OnnxProviderFallbackPolicy where
  | failFast
  | fallbackToCpu
  deriving DecidableEq

structure OnnxExecutionProviderConfig where
  provider : OnnxExecutionProvider := .cpu
  fallbackPolicy : OnnxProviderFallbackPolicy := .failFast
  options : List (Text × Text) := []

structure OnnxExecutionProviderDiagnostics where
  requested : OnnxExecutionProvider := .cpu
  active : OnnxExecutionProvider := .cpu
  fallbackUsed : Bool := false
  availableProviders : List Text := []

/-- A call of the runtime's interface. -/
inductive OrtCall where
  | createOptions (provider : OnnxExecutionProvider)
  | updateOptions (provider : OnnxExecutionProvider) (options : List (Text × Text))
  /-- `SessionOptionsAppendExecutionProvider_CUDA_V2`, and of TensorRT. -/
  | appendOptions (provider : OnnxExecutionProvider)
  /-- `SessionOptionsAppendExecutionProvider`, of a provider by its name. -/
  | appendNamed (name : Text) (options : List (Text × Text))
  | releaseOptions (provider : OnnxExecutionProvider)
  deriving DecidableEq

structure OrtEvent where
  call : OrtCall
  succeeded : Bool
  deriving DecidableEq

structure OrtApi where
  /-- `Ort::GetAvailableProviders`, or the text of what it throws. -/
  availableProviders : Except String (List Text)
  /-- The text of the status a call returns after the calls before it, where it is not null. -/
  failure : List OrtEvent → OrtCall → Option String

namespace OnnxExecutionProvider

def runtimeProviderName : OnnxExecutionProvider → Text
  | .cpu => ascii "CPUExecutionProvider"
  | .cuda => ascii "CUDAExecutionProvider"
  | .directml => ascii "DmlExecutionProvider"
  | .tensorrt => ascii "TensorrtExecutionProvider"

/-- `to_string`. -/
def name : OnnxExecutionProvider → String
  | .cpu => "cpu"
  | .cuda => "cuda"
  | .directml => "directml"
  | .tensorrt => "tensorrt"

/-- `contains_provider`. -/
def isAmong (provider : OnnxExecutionProvider) (providers : List Text) : Bool :=
  providers.contains provider.runtimeProviderName

end OnnxExecutionProvider

namespace OnnxExecutionProviderStrategy

open Program

/-- What is thrown inside `configure`: an error of the engine, or an `Ort::Exception`. -/
inductive Thrown where
  | engine (error : EngineError)
  | ort (what : String)

/-- `Ort::ThrowOnError` of a call. -/
def call (api : OrtApi) (c : OrtCall) : Program Thrown (List OrtEvent) Unit := fun log =>
  match api.failure log c with
  | none => .ok () (log ++ [⟨c, true⟩])
  | some what => .error (.ort what) (log ++ [⟨c, false⟩])

/-- A release returns nothing. -/
def release (provider : OnnxExecutionProvider) : Program Thrown (List OrtEvent) Unit :=
  modify (· ++ [⟨.releaseOptions provider, true⟩])

/-- `option_pointers`. -/
def optionPointers (config : OnnxExecutionProviderConfig) :
    Program Thrown (List OrtEvent) (List (Text × Text)) :=
  if config.options.any fun option => option.1.isEmpty || option.2.isEmpty then
    throw (.engine
      (configurationError "ONNX execution provider option key/value cannot be empty"))
  else pure config.options

/-- The options object is updated only where there are options. -/
def update (api : OrtApi) (provider : OnnxExecutionProvider) (options : List (Text × Text)) :
    Program Thrown (List OrtEvent) Unit :=
  if options.isEmpty then pure () else call api (.updateOptions provider options)

/-- The handled part of `append_cuda` and of `append_tensorrt`. -/
def updateAndAppend (api : OrtApi) (provider : OnnxExecutionProvider)
    (options : List (Text × Text)) : Program Thrown (List OrtEvent) Unit := do
  update api provider options
  call api (.appendOptions provider)

/-- The form of `append_cuda` and of `append_tensorrt`. -/
def appendWithOptions (provider : OnnxExecutionProvider) (api : OrtApi)
    (options : List (Text × Text)) : Program Thrown (List OrtEvent) Unit := do
  call api (.createOptions provider)
  tryCatch (updateAndAppend api provider options) fun e => do
    release provider
    throw e
  release provider

def appendCuda := appendWithOptions .cuda

def appendTensorrt := appendWithOptions .tensorrt

def appendDirectml (api : OrtApi) (options : List (Text × Text)) :
    Program Thrown (List OrtEvent) Unit :=
  call api (.appendNamed (ascii "DML") options)

/-- The switch over the provider. -/
def append (api : OrtApi) (config : OnnxExecutionProviderConfig) :
    Program Thrown (List OrtEvent) Unit := do
  let pointers ← optionPointers config
  match config.provider with
  | .cpu => pure ()
  | .cuda => appendCuda api pointers
  | .directml => appendDirectml api pointers
  | .tensorrt => appendTensorrt api pointers

/-- What the handlers of `configure` make of what is thrown. -/
def handled (provider : OnnxExecutionProvider) : Thrown → EngineError
  | .engine error => error
  | .ort what => configurationError
      ("failed to configure ONNX execution provider '" ++ provider.name ++ "': " ++ what)

def availableProviders (api : OrtApi) : Except EngineError (List Text) :=
  api.availableProviders.mapError fun what =>
    configurationError ("failed to enumerate ONNX Runtime execution providers: " ++ what)

/-- `configure`, which appends to options that nothing is appended to. -/
def configure (api : OrtApi) (config : OnnxExecutionProviderConfig) :
    Except EngineError OnnxExecutionProviderDiagnostics × List OrtEvent :=
  match availableProviders api with
  | .error error => (.error error, [])
  | .ok available =>
      if config.provider = .cpu then
        (.ok ⟨config.provider, .cpu, false, available⟩, [])
      else if config.provider.isAmong available then
        match append api config [] with
        | .ok _ log => (.ok ⟨config.provider, config.provider, false, available⟩, log)
        | .error thrown log => (.error (handled config.provider thrown), log)
      else
        match config.fallbackPolicy with
        | .fallbackToCpu => (.ok ⟨config.provider, .cpu, true, available⟩, [])
        | .failFast => (.error (configurationError
            ("requested ONNX execution provider is unavailable: " ++ config.provider.name)), [])

/-! ## What is held, and what is appended -/

/-- How many options objects of a provider an event leaves held. -/
def delta (provider : OnnxExecutionProvider) (event : OrtEvent) : ℤ :=
  match event.call with
  | .createOptions p => if p = provider ∧ event.succeeded = true then 1 else 0
  | .releaseOptions p => if p = provider then -1 else 0
  | _ => 0

def held (provider : OnnxExecutionProvider) (log : List OrtEvent) : ℤ :=
  (log.map (delta provider)).sum

/-- Nothing is released that is not held, and at the end nothing is. -/
structure Released (log : List OrtEvent) : Prop where
  sane : ∀ provider before, before <+: log → 0 ≤ held provider before ∧ held provider before ≤ 1
  settled : ∀ provider, held provider log = 0

/-- The provider an event appends to the options. -/
def appends (event : OrtEvent) : Option OnnxExecutionProvider :=
  match event.call, event.succeeded with
  | .appendOptions provider, true => some provider
  | .appendNamed _ _, true => some .directml
  | _, _ => none

def appended (log : List OrtEvent) : List OnnxExecutionProvider := log.filterMap appends

@[simp] theorem held_append (provider : OnnxExecutionProvider) (log log' : List OrtEvent) :
    held provider (log ++ log') = held provider log + held provider log' := by
  rw [held, List.map_append, List.sum_append, held, held]

@[simp] theorem appended_append (log log' : List OrtEvent) :
    appended (log ++ log') = appended log ++ appended log' := List.filterMap_append

@[simp] theorem held_cons (provider : OnnxExecutionProvider) (event : OrtEvent)
    (log : List OrtEvent) :
    held provider (event :: log) = delta provider event + held provider log :=
  List.sum_cons

/-- Neither a creation nor a release. -/
def Neutral (event : OrtEvent) : Prop := ∀ provider, delta provider event = 0

theorem held_eq_zero {provider : OnnxExecutionProvider} {log : List OrtEvent}
    (h : ∀ event ∈ log, Neutral event) : held provider log = 0 := by
  refine List.sum_eq_zero fun x hx => ?_
  obtain ⟨event, hevent, rfl⟩ := List.mem_map.mp hx
  exact h event hevent provider

theorem released_of_neutral {log : List OrtEvent} (h : ∀ event ∈ log, Neutral event) :
    Released log where
  sane provider before hbefore := by
    rw [held_eq_zero fun event hevent => h event (hbefore.subset hevent)]
    exact ⟨le_refl 0, zero_le_one⟩
  settled _ := held_eq_zero h

/-- An options object that is created is released after what is done with it. -/
theorem released_bracket (provider : OnnxExecutionProvider) {log : List OrtEvent}
    (h : ∀ event ∈ log, Neutral event) :
    Released (⟨.createOptions provider, true⟩ :: log ++ [⟨.releaseOptions provider, true⟩]) := by
  have hcreated (p : OnnxExecutionProvider) :
      0 ≤ delta p ⟨.createOptions provider, true⟩ ∧
        delta p ⟨.createOptions provider, true⟩ ≤ 1 := by
    by_cases hp : provider = p <;> simp [delta, hp]
  have hwhole (p : OnnxExecutionProvider) :
      held p (⟨.createOptions provider, true⟩ :: log ++
        [⟨.releaseOptions provider, true⟩]) = 0 := by
    rw [List.cons_append, held_cons, held_append, held_eq_zero h, zero_add, held_cons]
    by_cases hp : provider = p <;> simp [delta, hp, held]
  refine ⟨fun p before hbefore => ?_, hwhole⟩
  rcases List.prefix_concat_iff.mp hbefore with rfl | hbefore
  · rw [hwhole]
    exact ⟨le_refl 0, zero_le_one⟩
  · rcases List.prefix_cons_iff.mp hbefore with rfl | ⟨rest, rfl, hrest⟩
    · exact ⟨le_refl 0, zero_le_one⟩
    · rw [held_cons, held_eq_zero fun event hevent => h event (hrest.subset hevent), add_zero]
      exact hcreated p

/-! ## What is left behind -/

/-- While an options object is held, these providers having been appended. -/
def Holding (provider : OnnxExecutionProvider) (providers : List OnnxExecutionProvider)
    (log : List OrtEvent) : Prop :=
  ∃ more, log = ⟨.createOptions provider, true⟩ :: more ∧ (∀ event ∈ more, Neutral event) ∧
    appended more = providers

/-- Once all is released, these providers having been appended. -/
def Left (providers : List OnnxExecutionProvider) (log : List OrtEvent) : Prop :=
  Released log ∧ appended log = providers

variable {provider : OnnxExecutionProvider} {providers : List OnnxExecutionProvider}

theorem left_nil : Left [] [] := ⟨released_of_neutral fun _ h => absurd h List.not_mem_nil, rfl⟩

theorem left_singleton {event : OrtEvent} (h : Neutral event) :
    Left (appends event).toList [event] := by
  refine ⟨released_of_neutral fun e he => List.mem_singleton.mp he ▸ h, ?_⟩
  unfold appended
  cases hevent : appends event with
  | none => rw [List.filterMap_cons_none hevent]; rfl
  | some p => rw [List.filterMap_cons_some hevent]; rfl

/-- An exception that leaves `configure` as an error of the configuration. -/
def Reported (thrown : Thrown) : Prop := ∀ provider, (handled provider thrown).code = .configuration

theorem triple_call {api : OrtApi} {c : OrtCall} {P : List OrtEvent → Prop}
    {Q : Unit → List OrtEvent → Prop} {E : List OrtEvent → Prop}
    (hok : ∀ log, P log → Q () (log ++ [⟨c, true⟩]))
    (herror : ∀ log, P log → E (log ++ [⟨c, false⟩])) :
    Triple P (call api c) Q fun thrown log => Reported thrown ∧ E log := by
  intro log hlog
  unfold call
  cases api.failure log c with
  | none =>
    refine ⟨fun _ log' h => ?_, fun _ _ h => by cases h⟩
    cases h
    exact hok log hlog
  | some what =>
    refine ⟨fun _ _ h => (by cases h), fun e log' h => ?_⟩
    cases h
    exact ⟨fun _ => rfl, herror log hlog⟩

theorem Holding.concat {log : List OrtEvent} {event : OrtEvent} (h : Holding provider providers log)
    (hevent : Neutral event) :
    Holding provider (providers ++ (appends event).toList) (log ++ [event]) := by
  obtain ⟨more, rfl, hneutral, rfl⟩ := h
  refine ⟨more ++ [event], rfl, fun e he => ?_, ?_⟩
  · rcases List.mem_append.mp he with he | he
    · exact hneutral e he
    · exact List.mem_singleton.mp he ▸ hevent
  · rw [appended_append, (left_singleton hevent).2]

theorem triple_updateAndAppend (api : OrtApi) (options : List (Text × Text)) :
    Triple (Holding provider []) (updateAndAppend api provider options)
      (fun _ => Holding provider [provider])
      fun thrown log => Reported thrown ∧ Holding provider [] log := by
  refine Triple.bind (Q := fun _ => Holding provider []) ?_ fun _ => ?_
  · unfold update
    split
    · exact triple_pure fun _ h => h
    · exact triple_call (fun _ h => h.concat fun _ => rfl) fun _ h => h.concat fun _ => rfl
  · exact triple_call (fun _ h => h.concat fun _ => rfl) fun _ h => h.concat fun _ => rfl

theorem triple_release {E : Thrown → List OrtEvent → Prop} :
    Triple (Holding provider providers) (release provider) (fun _ => Left providers) E := by
  rintro log ⟨more, rfl, hneutral, rfl⟩
  refine ⟨fun _ log' h => ?_, fun _ _ h => by cases h⟩
  cases h
  refine ⟨released_bracket provider hneutral, ?_⟩
  exact (appended_append (⟨.createOptions provider, true⟩ :: more) _).trans (List.append_nil _)

/-- **The options object is released, whatever fails**, and the provider is appended unless
something did. -/
theorem triple_appendWithOptions (provider : OnnxExecutionProvider) (api : OrtApi)
    (options : List (Text × Text)) :
    Triple (· = []) (appendWithOptions provider api options) (fun _ => Left [provider])
      fun thrown log => Reported thrown ∧ Left [] log := by
  unfold appendWithOptions
  refine Triple.bind (Q := fun _ => Holding provider []) (triple_call ?_ ?_) fun _ => ?_
  · rintro log rfl
    exact ⟨[], rfl, fun _ h => absurd h List.not_mem_nil, rfl⟩
  · rintro log rfl
    exact left_singleton fun p => if_neg (by simp)
  refine Triple.bind (Q := fun _ => Holding provider [provider]) ?_ fun _ => triple_release
  refine (triple_updateAndAppend api options).tryCatch fun thrown => ?_
  -- the handler releases and throws the same again
  intro log hlog
  exact (triple_release.bind fun _ => triple_throw fun _ h => ⟨hlog.1, h⟩ :
    Triple (Holding provider []) _ _ _) log hlog.2

theorem triple_append {config : OnnxExecutionProviderConfig} (hcpu : config.provider ≠ .cpu)
    (api : OrtApi) :
    Triple (· = []) (append api config) (fun _ => Left [config.provider])
      fun thrown log => Reported thrown ∧ Left [] log := by
  have hpointers : Triple (· = []) (optionPointers config) (fun _ log => log = [])
      fun thrown log => Reported thrown ∧ Left [] log := by
    unfold optionPointers
    split
    · exact triple_throw fun log hlog => ⟨fun _ => rfl, hlog ▸ left_nil⟩
    · exact triple_pure fun log hlog => hlog
  unfold append
  refine hpointers.bind fun pointers => ?_
  cases hprovider : config.provider with
  | cpu => exact absurd hprovider hcpu
  | cuda => exact triple_appendWithOptions .cuda api pointers
  | tensorrt => exact triple_appendWithOptions .tensorrt api pointers
  | directml =>
    refine triple_call ?_ ?_
    · rintro log rfl
      exact left_singleton fun _ => rfl
    · rintro log rfl
      exact left_singleton fun _ => rfl

/-- **What `configure` reports is what it did.**  Whatever the runtime answers, each options object
it creates it releases once; when it returns, the session's options have the provider it reports as
active and no other; when it throws, they have none. -/
theorem configure_reports (api : OrtApi) (config : OnnxExecutionProviderConfig) :
    Released (configure api config).2 ∧
      match (configure api config).1 with
      | .ok diagnostics => diagnostics.requested = config.provider ∧
          (diagnostics.fallbackUsed = true ↔ diagnostics.active ≠ config.provider) ∧
          appended (configure api config).2 =
            if diagnostics.active = .cpu then [] else [diagnostics.active]
      | .error error => error.code = .configuration ∧ appended (configure api config).2 = [] := by
  unfold configure availableProviders
  cases api.availableProviders with
  | error what => exact ⟨left_nil.1, rfl, rfl⟩
  | ok available =>
    simp only [Except.mapError]
    split
    · rename_i hcpu
      exact ⟨left_nil.1, rfl, by simp [hcpu], rfl⟩
    rename_i hcpu
    split
    · have hrun := triple_append hcpu api [] rfl
      cases happend : append api config [] with
      | ok u log =>
        obtain ⟨hreleased, happended⟩ := hrun.1 u log happend
        exact ⟨hreleased, rfl, by simp, by rw [happended]; exact (if_neg hcpu).symm⟩
      | error thrown log =>
        obtain ⟨hreported, hreleased, happended⟩ := hrun.2 thrown log happend
        exact ⟨hreleased, hreported _, happended⟩
    · cases config.fallbackPolicy with
      | fallbackToCpu => exact ⟨left_nil.1, rfl, by simp [Ne.symm hcpu], rfl⟩
      | failFast => exact ⟨left_nil.1, rfl, rfl⟩

end OnnxExecutionProviderStrategy

end FacLpr

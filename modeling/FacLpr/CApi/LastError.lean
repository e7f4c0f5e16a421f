import FacLpr.CApi.EngineHandle
import FacLpr.CApi.TwoPass

/-!
# CApi/LastError — the thread-local error text

`invoke_c_api` clears the text of its thread, runs the call, and stores the text of an exception it
catches.  A thread runs one call at a time, and the parts of its call interleave with those of every
other thread; the text is its own.

A status the serializer returns is no exception, so nothing is stored for it.  The law of the
documentation holds of every run in which the serializer has nothing to refuse
(`lastError_of_reported`), and fails on a buffer that is not aligned (`lastError_misaligned`).
-/

namespace FacLpr

open EngineApi

/-! ## The version call -/

structure VersionInfoV1 where
  structSize : UInt32
  abiVersion : UInt32
  semanticMajor : UInt32
  semanticMinor : UInt32
  semanticPatch : UInt32
  abiMajor : UInt32

/-- `sizeof(fac_lpr_version_info_v1)`. -/
def sizeOfVersionInfoV1 : UInt32 := 24

/-- `fac_lpr_get_version_v1` of version 0.1.0; a null pointer is `none`. -/
def getVersion : Option VersionInfoV1 → Except EngineError VersionInfoV1
  | none => .error (configurationError "C ABI version output pointer is null")
  | some info => do
      require (!decide (info.structSize < sizeOfVersionInfoV1))
        (configurationError "C ABI version info struct is too small")
      require (info.abiVersion == abiVersion) (configurationError "unsupported version query ABI")
      return { info with
        semanticMajor := 0
        semanticMinor := 1
        semanticPatch := 0
        abiMajor := abiVersion }

/-! ## Threads -/

/-- A call of the interface, with its arguments. -/
inductive ApiCall where
  | version (out : Option VersionInfoV1)
  | create (function : CreateFunction) (config : Option EngineConfigV1)
      (out : Option (Option Address))
  | destroy (pointer : Option (Option Address))
  | recognize (handle : Option Address) (image : Option ImageViewV1) (buffer : OutputBuffer)
      (requiredIsNull : Bool)

/-- What a thread is in: a version call, which touches nothing shared, or a call of the engine, with
its output buffer. -/
inductive Invocation where
  | version (result : Except ApiException FacLprStatus)
  | engine (call : ℕ) (buffer : Option OutputBuffer)

/-- `g_last_error` of a thread and the call it is in.  How many calls it began, the one that stored
the text and the status returned last are a record. -/
structure ApiThread where
  lastError : String := ""
  running : Option Invocation := none
  begun : ℕ := 0
  storedBy : Option ℕ := none
  returned : Option FacLprStatus := none

/-- The engine and the threads that call it. -/
structure ThreadedApi where
  api : EngineApi
  threads : ℕ → ApiThread

/-- `store_last_error`, whose copy of the message may fail to allocate. -/
def storeLastError (assigned : Bool) (message : String) : String := if assigned then message else ""

namespace ApiThread

/-- `invoke_c_api` before the call. -/
def enter (t : ApiThread) (invocation : Invocation) : ApiThread :=
  { t with lastError := "", running := some invocation, begun := t.begun + 1, storedBy := none }

/-- `invoke_c_api` after the call. -/
def leave (t : ApiThread) (assigned : Bool) (result : Except ApiException FacLprStatus) :
    ApiThread :=
  match result with
  | .ok _ => { t with running := none, returned := some (invokeCApi result) }
  | .error _ =>
      { t with
        running := none
        returned := some (invokeCApi result)
        lastError := storeLastError assigned (FacLpr.lastError result)
        storedBy := some t.begun }

end ApiThread

/-- The end of `fac_lpr_engine_recognize_v1`: what the pipeline returns is serialized.  No size
computation wraps (`serializeResultV1_total`), so the last branch is never taken. -/
def recognizeOutcome (outcome : Except ApiException (LprPipelineResult Binary32 Binary64))
    (buffer : OutputBuffer) : Except ApiException FacLprStatus :=
  match outcome with
  | .error e => .error e
  | .ok result =>
      match serializeResultV1 result buffer false with
      | some outcome => .ok outcome.status
      | none => .error .other

namespace ThreadedApi

def initial : ThreadedApi := ⟨EngineApi.initial, fun _ => {}⟩

/-- The result of a call that is done. -/
def resultOf (api : EngineApi) : Invocation → Option (Except ApiException FacLprStatus)
  | .version result => some result
  | .engine call _ =>
      match api.calls[call]? with
      | some (.created _ result) => some result
      | some (.recognized result) => some result
      | some (.destroyed _) => some (.ok .ok)
      | _ => none

inductive Action where
  | enter (thread : ℕ) (call : ApiCall)
  | advance (action : EngineApi.Action)
  | run (thread : ℕ) (outcome : Except ApiException (LprPipelineResult Binary32 Binary64))
  | leave (thread : ℕ) (assigned : Bool)

/-- A step of the engine between the start and the end of its calls. -/
def isInner : EngineApi.Action → Bool
  | .callCreate _ _ _ | .callDestroy _ | .callRecognize _ _ _ | .finish _ _ => false
  | _ => true

/-- The step of the engine a call starts with. -/
def startOf : ApiCall → Option (EngineApi.Action × Option OutputBuffer)
  | .version _ => none
  | .create function config out => some (.callCreate function config out, none)
  | .destroy pointer => some (.callDestroy pointer, none)
  | .recognize handle image buffer requiredIsNull =>
      some (.callRecognize handle image requiredIsNull, some buffer)

def setThread (thread : ℕ) (t : ApiThread) (s : ThreadedApi) : ThreadedApi :=
  { s with threads := Function.update s.threads thread t }

/-- One step, if it is possible. -/
def step (s : ThreadedApi) : Action → Option ThreadedApi
  | .enter thread call =>
      if (s.threads thread).running.isSome then none
      else
        match call, startOf call with
        | .version out, _ => some (s.setThread thread ((s.threads thread).enter
            (.version (((getVersion out).map fun _ => .ok).mapError .engine))))
        | _, some (start, buffer) => (s.api.step start).map fun api =>
            { s with api := api }.setThread thread
              ((s.threads thread).enter (.engine s.api.calls.length buffer))
        | _, none => none
  | .advance action =>
      if isInner action then (s.api.step action).map fun api => { s with api := api } else none
  | .run thread outcome =>
      match (s.threads thread).running with
      | some (.engine call (some buffer)) =>
          (s.api.step (.finish call (recognizeOutcome outcome buffer))).map fun api =>
            { s with api := api }
      | _ => none
  | .leave thread assigned =>
      match (s.threads thread).running.bind (resultOf s.api) with
      | some result => some (s.setThread thread ((s.threads thread).leave assigned result))
      | none => none

end ThreadedApi

/-! ## Every exception of the interface has a text -/

/-- An error of a function of its arguments has a text. -/
def Speaks {α : Type} (v : Except EngineError α) : Prop := ∀ e, v = .error e → e.message ≠ ""

theorem speaks_ok {α : Type} (a : α) : Speaks (.ok a) := nofun

theorem speaks_error {α : Type} {e : EngineError} (h : e.message ≠ "") :
    Speaks (.error e : Except EngineError α) := by
  rintro _ ⟨⟩
  exact h

theorem speaks_require {check : Bool} {e : EngineError} (h : e.message ≠ "") :
    Speaks (require check e) := by
  cases check
  · exact speaks_error h
  · exact speaks_ok ()

theorem Speaks.bind {α β : Type} {v : Except EngineError α} {f : α → Except EngineError β}
    (hv : Speaks v) (hf : ∀ a, Speaks (f a)) : Speaks (v >>= f) := by
  cases v with
  | error e => exact speaks_error (hv e rfl)
  | ok a => exact hf a

theorem append_ne_empty (field : String) {text : String} (h : text ≠ "") : field ++ text ≠ "" := by
  simp [h]

theorem speaks_getVersion (out : Option VersionInfoV1) : Speaks (getVersion out) := by
  cases out with
  | none => exact speaks_error (by decide)
  | some info =>
    exact (speaks_require (by decide)).bind fun _ => (speaks_require (by decide)).bind fun _ =>
      speaks_ok _

theorem speaks_validateConfig (config : Option EngineConfigV1) :
    Speaks (validateConfig config) := by
  cases config with
  | none => exact speaks_ok ()
  | some config =>
    exact (speaks_require (by decide)).bind fun _ => (speaks_require (by decide)).bind fun _ =>
      speaks_require (by decide)

theorem speaks_validateRequiredUtf8Path (value : Option Text) (field : String) :
    Speaks (validateRequiredUtf8Path value field) :=
  speaks_require (append_ne_empty field (by decide))

theorem speaks_validate (function : CreateFunction) (config : Option EngineConfigV1) :
    Speaks (function.validate config) := by
  refine (speaks_validateConfig config).bind fun _ => ?_
  cases function with
  | createV1 => exact speaks_ok ()
  | createFromContractV1 contractPath modelDirectory =>
    exact (speaks_validateRequiredUtf8Path _ _).bind fun _ => speaks_validateRequiredUtf8Path _ _

theorem speaks_checkedMultiply (left right : ℕ) (field : String) :
    Speaks (checkedMultiply left right field) :=
  (speaks_require (append_ne_empty field (by decide))).bind fun _ => speaks_ok _

theorem speaks_checkedAdd (left right : ℕ) (field : String) :
    Speaks (checkedAdd left right field) :=
  (speaks_require (append_ne_empty field (by decide))).bind fun _ => speaks_ok _

theorem speaks_toPixelFormat (format : UInt32) : Speaks (toPixelFormat format) := by
  unfold toPixelFormat
  split
  · exact speaks_ok _
  split
  · exact speaks_ok _
  split
  · exact speaks_ok _
  · exact speaks_error (by decide)

theorem speaks_validateImageV1 (image : Option ImageViewV1) : Speaks (validateImageV1 image) := by
  cases image with
  | none => exact speaks_error (by decide)
  | some image =>
    refine (speaks_require (by decide)).bind fun _ => (speaks_require (by decide)).bind fun _ => ?_
    refine (speaks_toPixelFormat _).bind fun format => ?_
    refine (speaks_checkedMultiply _ _ _).bind fun packedRow => ?_
    refine (speaks_require (by decide)).bind fun _ => ?_
    refine (speaks_checkedMultiply _ _ _).bind fun _ => ?_
    exact (speaks_checkedAdd _ _ _).bind fun _ => (speaks_require (by decide)).bind fun _ =>
      speaks_ok _

/-! ## What a call leaves -/

/-- A result the text can report: an exception with a text, or a status that needs none. -/
def Reportable (result : Except ApiException FacLprStatus) : Prop :=
  match result with
  | .ok status => status = .ok ∨ status = .bufferTooSmall
  | .error e => FacLpr.lastError (.error e) ≠ ""

/-- The results of the calls that are done can be reported. -/
def CallPhase.Reportable : CallPhase → Prop
  | .created _ result | .recognized result => FacLpr.Reportable result
  | _ => True

theorem reportable_ok : Reportable (.ok .ok) := Or.inl rfl

theorem reportable_engine {error : EngineError} (h : error.message ≠ "") :
    Reportable (.error (.engine error)) := h

theorem reportable_other : Reportable (.error .other) := by
  rw [Reportable]
  decide

theorem reportable_badAlloc : Reportable (.error .badAlloc) := by
  rw [Reportable]
  decide

theorem Speaks.reportable {α : Type} {v : Except EngineError α} (h : Speaks v) {e : EngineError}
    (he : v = .error e) : Reportable (.error (.engine e)) := h e he

namespace EngineApi

/-- Every call that is done has a result that can be reported. -/
def Reports (api : EngineApi) : Prop := ∀ phase ∈ api.calls, phase.Reportable

theorem Reports.begin {api : EngineApi} (h : api.Reports) {phase : CallPhase}
    (hphase : phase.Reportable) : Reports { api with calls := api.calls ++ [phase] } := by
  intro p hp
  rcases List.mem_append.mp hp with hp | hp
  · exact h p hp
  · rw [List.mem_singleton.mp hp]
    exact hphase

theorem Reports.setCall {api api' : EngineApi} (h : api.Reports) (hcalls : api'.calls = api.calls)
    {call : ℕ} {phase : CallPhase} (hphase : phase.Reportable) :
    Reports (EngineApi.setCall call phase api') := by
  intro p hp
  rcases List.mem_or_eq_of_mem_set hp with hp | rfl
  · exact h p (hcalls ▸ hp)
  · exact hphase

/-- What comes from outside a step can be reported: the exception of the factory, and the outcome of
the pipeline and the serializer. -/
def Action.Reportable : Action → Prop
  | .build _ (.error e) => FacLpr.Reportable (.error e)
  | .finish _ outcome => FacLpr.Reportable outcome
  | _ => True

theorem reportable_enterCreate (function : CreateFunction) (config : Option EngineConfigV1)
    (out : Option (Option Address)) : (enterCreate function config out).Reportable := by
  unfold enterCreate
  split
  · exact reportable_engine (by decide)
  · split
    · rename_i error herror
      exact (speaks_validate function config).reportable herror
    · split <;> exact trivial

theorem reportable_enterDestroy (pointer : Option (Option Address)) :
    (enterDestroy pointer).Reportable := by
  unfold enterDestroy
  split <;> exact trivial

theorem reportable_enterRecognize (handle : Option Address) (image : Option ImageViewV1)
    (requiredIsNull : Bool) : (enterRecognize handle image requiredIsNull).Reportable := by
  unfold enterRecognize
  split
  · exact reportable_engine (by decide)
  · exact trivial

/-- **A step leaves results that can be reported**, when what comes from outside can. -/
theorem Reports.step {api api' : EngineApi} {action : Action} (h : api.Reports)
    (hstep : api.step action = some api') (haction : action.Reportable) : api'.Reports := by
  cases step_cases hstep with
  | callCreate function config out => exact h.begin (reportable_enterCreate function config out)
  | callDestroy pointer => exact h.begin (reportable_enterDestroy pointer)
  | callRecognize handle image requiredIsNull =>
    exact h.begin (reportable_enterRecognize handle image requiredIsNull)
  | buildFailed e => exact h.setCall rfl haction
  | built => exact h.setCall rfl trivial
  | allocateFailed => exact h.setCall rfl reportable_badAlloc
  | allocated => exact h.setCall rfl trivial
  | @published call id o =>
    have hphase : (CallPhase.releasing id).Reportable := trivial
    exact h.setCall (setStage_calls id .published
      { api with registry := List.insert o.address api.registry }) hphase
  | publishFailed => exact h.setCall rfl trivial
  | discarded => exact h.setCall (deleteAt_calls _ _ _) reportable_badAlloc
  | released => exact h.setCall rfl reportable_ok
  | deleted => exact h.setCall (deleteAt_calls _ _ _) trivial
  | finished outcome => exact h.setCall rfl haction
  | @erased call handle =>
    have hphase : (CallPhase.deleting handle).Reportable := trivial
    unfold eraseHandle
    split
    · split
      · exact h.setCall rfl hphase
      · rename_i id _
        exact h.setCall (setStage_calls id (.withdrawn call)
          { api with registry := api.registry.filter (· ≠ handle) }) hphase
    · exact h.setCall rfl trivial
  | resolved =>
    unfold resolveHandle
    split
    · exact h.setCall rfl (reportable_engine (by decide))
    · split
      · split
        · exact h.setCall rfl reportable_other
        · exact h.setCall rfl trivial
      · exact h.setCall rfl (reportable_engine (by decide))
  | validated =>
    rename_i image
    unfold validateCall
    split
    · rename_i error herror
      exact h.setCall rfl ((speaks_validateImageV1 _).reportable herror)
    · split
      · exact h.setCall rfl (reportable_engine (by decide))
      · exact h.setCall rfl trivial

end EngineApi

/-! ## The law -/

/-- The serializer has nothing to refuse: the result can be measured, and a buffer with room for it
is aligned. -/
def Delivers (result : LprPipelineResult Binary32 Binary64) (buffer : OutputBuffer) : Prop :=
  ∃ required writer, Wire.serializeImpl result (.fresh none 0) = .ok required writer ∧
    (buffer.address = 0 ∨ buffer.capacity < required ∨ buffer.address % wireAlignment = 0)

/-- What the serializer returns needs no text exactly when it has nothing to refuse. -/
theorem reportable_recognizeOutcome_iff (result : LprPipelineResult Binary32 Binary64)
    (buffer : OutputBuffer) :
    Reportable (recognizeOutcome (.ok result) buffer) ↔ Delivers result buffer := by
  rw [recognizeOutcome]
  rcases serialize_outcomes result with ⟨error, ⟨w, hw⟩, hall⟩ | ⟨l, -, -, -, -, hpass, hall⟩
  · simp only [hall]
    constructor
    · rintro (hok | hsmall)
      · exact absurd hok (toCStatus_ne error.code).1
      · exact absurd hsmall (toCStatus_ne error.code).2
    · rintro ⟨required, writer, hmeasured, -⟩
      exact nomatch hmeasured.symm.trans hw
  · have hmeasured := hpass none 0 (Or.inl rfl)
    have hdelivers : Delivers result buffer ↔ buffer.address = 0 ∨ buffer.capacity < l.finish ∨
        buffer.address % wireAlignment = 0 := by
      constructor
      · rintro ⟨required, writer, h, hbuffer⟩
        cases hmeasured.symm.trans h
        exact hbuffer
      · exact fun hbuffer => ⟨_, _, hmeasured, hbuffer⟩
    simp only [hall, hdelivers, outcomeOf]
    split
    · rename_i hroom
      exact ⟨fun _ => hroom.elim Or.inl fun h => Or.inr (Or.inl h), fun _ => Or.inr rfl⟩
    · rename_i hroom
      obtain ⟨haddress, hcapacity⟩ := not_or.mp hroom
      split
      · rename_i haligned
        constructor
        · rintro (hok | hsmall)
          · cases hok
          · cases hsmall
        · rintro (h | h | h)
          · exact absurd h haddress
          · exact absurd h hcapacity
          · exact absurd h haligned
      · rename_i haligned
        exact ⟨fun _ => Or.inr (Or.inr (not_not.mp haligned)), fun _ => Or.inl rfl⟩

namespace ApiThread

/-- The law of the documentation for a thread between its calls: the text is empty after OK, and
after a failure it is there and was stored by the call that failed. -/
def Law (t : ApiThread) : Prop :=
  t.running = none →
    match t.returned with
    | none | some .ok => t.lastError = ""
    | some .bufferTooSmall => True
    | some _ => t.lastError ≠ "" ∧ t.storedBy = some t.begun

/-- A thread in a call has no text yet, and a version call has a result that can be reported. -/
structure Inv (t : ApiThread) : Prop where
  law : t.Law
  cleared : t.running ≠ none → t.lastError = ""
  version : ∀ result, t.running = some (.version result) → Reportable result

theorem inv_initial : Inv {} := ⟨fun _ => rfl, fun h => absurd rfl h, nofun⟩

theorem Inv.enter (t : ApiThread) {invocation : Invocation}
    (h : ∀ result, invocation = .version result → Reportable result) :
    (t.enter invocation).Inv :=
  ⟨nofun, fun _ => rfl, fun result hresult => h result (Option.some.inj hresult)⟩

/-- **A call that leaves with a result that can be reported obeys the law.** -/
theorem Inv.leave {t : ApiThread} (h : t.Inv) (hrunning : t.running ≠ none)
    {result : Except ApiException FacLprStatus} (hresult : Reportable result) :
    (t.leave true result).Inv := by
  cases result with
  | ok status =>
    refine ⟨fun _ => ?_, fun hno => absurd rfl hno, nofun⟩
    rcases hresult with rfl | rfl
    · exact h.cleared hrunning
    · exact trivial
  | error e =>
    refine ⟨fun _ => ?_, fun hno => absurd rfl hno, nofun⟩
    have hlaw : FacLpr.lastError (.error e) ≠ "" ∧ some t.begun = some t.begun := ⟨hresult, rfl⟩
    change match some (invokeCApi (.error e)) with
      | none | some .ok => FacLpr.lastError (.error e) = ""
      | some .bufferTooSmall => True
      | some _ => FacLpr.lastError (.error e) ≠ "" ∧ some t.begun = some t.begun
    cases e with
    | engine error =>
      have hstatus := toCStatus_ne error.code
      rw [invokeCApi]
      cases hcode : toCStatus error.code with
      | ok => exact absurd hcode hstatus.1
      | bufferTooSmall => exact trivial
      | _ => exact hlaw
    | badAlloc | other => exact hlaw

end ApiThread

namespace ThreadedApi

/-- What comes from outside a step can be reported, and there is memory to store it. -/
def Reported (s : ThreadedApi) : Action → Prop
  | .enter _ _ => True
  | .advance action => action.Reportable
  | .run thread (.ok result) => ∀ call buffer,
      (s.threads thread).running = some (.engine call (some buffer)) → Delivers result buffer
  | .run _ (.error e) => Reportable (.error e)
  | .leave _ assigned => assigned = true

/-- What holds of every thread and of the results of the calls. -/
structure Inv (s : ThreadedApi) : Prop where
  threads : ∀ thread, (s.threads thread).Inv
  reports : s.api.Reports

theorem inv_initial : Inv initial := ⟨fun _ => ApiThread.inv_initial, nofun⟩

theorem Inv.setThread {s : ThreadedApi} (h : s.Inv) {api : EngineApi} (hapi : api.Reports)
    {thread : ℕ} {t : ApiThread} (ht : t.Inv) : (setThread thread t { s with api := api }).Inv := by
  refine ⟨fun other => ?_, hapi⟩
  change (Function.update s.threads thread t other).Inv
  by_cases hother : other = thread
  · rw [hother, Function.update_self]
    exact ht
  · rw [Function.update_of_ne hother]
    exact h.threads other

/-- The result of a call that is done can be reported. -/
theorem Inv.reportable_resultOf {s : ThreadedApi} (h : s.Inv) {thread : ℕ}
    {result : Except ApiException FacLprStatus}
    (hresult : (s.threads thread).running.bind (resultOf s.api) = some result) :
    Reportable result := by
  obtain ⟨invocation, hrunning, hresult⟩ := Option.bind_eq_some_iff.mp hresult
  cases invocation with
  | version result' =>
    obtain rfl := Option.some.inj hresult
    exact (h.threads thread).version _ hrunning
  | engine call buffer =>
    rw [resultOf] at hresult
    split at hresult
    · rename_i hphase
      obtain rfl := Option.some.inj hresult
      exact h.reports _ (List.mem_of_getElem? hphase)
    · rename_i hphase
      obtain rfl := Option.some.inj hresult
      exact h.reports _ (List.mem_of_getElem? hphase)
    · obtain rfl := Option.some.inj hresult
      exact reportable_ok
    · cases hresult

/-- A call begins on an idle thread. -/
theorem step_enter {s s' : ThreadedApi} {thread : ℕ} {call : ApiCall}
    (h : s.step (.enter thread call) = some s') :
    (∃ out, call = .version out ∧ s' = s.setThread thread ((s.threads thread).enter
      (.version (((getVersion out).map fun _ => .ok).mapError .engine)))) ∨
    ∃ start buffer api, s.api.step start = some api ∧ start.Reportable ∧
      s' = setThread thread ((s.threads thread).enter (.engine s.api.calls.length buffer))
        { s with api := api } := by
  replace h := (Option.ite_none_left_eq_some.mp h).2
  cases call with
  | version out => exact .inl ⟨out, rfl, (Option.some.inj h).symm⟩
  | create | destroy | recognize =>
    obtain ⟨api, hapi, hs'⟩ := Option.map_eq_some_iff.mp h
    exact .inr ⟨_, _, api, hapi, trivial, hs'.symm⟩

theorem inv_step {s s' : ThreadedApi} {action : Action} (h : s.Inv) (hreported : s.Reported action)
    (hstep : s.step action = some s') : s'.Inv := by
  cases action with
  | enter thread call =>
    obtain ⟨out, rfl, rfl⟩ | ⟨start, buffer, api, hapi, hstart, rfl⟩ := step_enter hstep
    · refine h.setThread h.reports (ApiThread.Inv.enter _ fun result hresult => ?_)
      obtain rfl := Invocation.version.inj hresult
      cases hversion : getVersion out with
      | ok info => exact reportable_ok
      | error e => exact (speaks_getVersion out).reportable hversion
    · exact h.setThread (h.reports.step hapi hstart) (ApiThread.Inv.enter _ nofun)
  | advance action =>
    rw [step, Option.ite_none_right_eq_some] at hstep
    obtain ⟨api, hapi, rfl⟩ := Option.map_eq_some_iff.mp hstep.2
    exact ⟨h.threads, h.reports.step hapi hreported⟩
  | run thread outcome =>
    rw [step] at hstep
    split at hstep
    · rename_i call buffer hrunning
      obtain ⟨api, hapi, rfl⟩ := Option.map_eq_some_iff.mp hstep
      refine ⟨h.threads, h.reports.step hapi ?_⟩
      cases outcome with
      | error e => exact hreported
      | ok result =>
        exact (reportable_recognizeOutcome_iff result buffer).mpr (hreported call buffer hrunning)
    · cases hstep
  | leave thread assigned =>
    rw [step] at hstep
    split at hstep
    · rename_i result hresult
      obtain rfl := Option.some.inj hstep
      obtain rfl : assigned = true := hreported
      obtain ⟨invocation, hrunning, -⟩ := Option.bind_eq_some_iff.mp hresult
      have hin : (s.threads thread).running ≠ none := hrunning ▸ nofun
      exact h.setThread h.reports
        ((h.threads thread).leave hin (h.reportable_resultOf hresult))
    · cases hstep

/-- **The law of the last error**: in every run in which the serializer has nothing to refuse, what
the pipeline and the factory throw has a text and there is memory to store it, every thread between
its calls has the text its last call left, whatever the other threads do. -/
theorem lastError_of_reported {actions : List Action} {s : ThreadedApi}
    (hreported : EveryStep step initial actions fun s action _ => s.Reported action)
    (hrun : runSteps step initial actions = some s) (thread : ℕ) : (s.threads thread).Law := by
  have hpreserved : ∀ (s : ThreadedApi) (action : Action) (s' : ThreadedApi), s.Inv →
      s.Reported action → step s action = some s' → s'.Inv :=
    fun _ _ _ hs hreported hstep => inv_step hs hreported hstep
  have hinv : s.Inv :=
    runSteps_invariant_of_everyStep hpreserved inv_initial hreported hrun
  exact (hinv.threads thread).law

/-- A version query without its pointer, while another thread has a call that is not done. -/
theorem lastError_of_reported_version :
    ∃ s, runSteps step initial [.enter 1 (.destroy (some (some 8))), .enter 0 (.version none),
        .leave 0 true] = some s ∧
      (s.threads 0).returned = some .configurationError ∧ (s.threads 0).Law := by
  have hruns : (runSteps step initial [.enter 1 (.destroy (some (some 8))),
      .enter 0 (.version none), .leave 0 true]).map (fun s => (s.threads 0).returned) =
      some (some .configurationError) := by decide
  obtain ⟨s, hrun, hreturned⟩ := Option.map_eq_some_iff.mp hruns
  refine ⟨s, hrun, hreturned, lastError_of_reported ?_ hrun 0⟩
  exact EveryStep.cons trivial rfl (EveryStep.cons trivial rfl
    (EveryStep.cons rfl rfl (everyStep_nil _ _ _)))

/-- An image of one gray pixel. -/
def sampleImageV1 : ImageViewV1 where
  structSize := sizeOfImageViewV1
  abiVersion := FacLpr.abiVersion
  data := some [⟨0⟩]
  width := 1
  height := 1
  strideBytes := 1
  pixelFormat := 0

/-- A handle is made, and a recognition writes to a buffer that is not aligned. -/
def misalignedCalls : List Action := [
  .enter 0 (.create (.createFromContractV1 (some (ascii "c")) (some (ascii "m"))) none (some none)),
  .advance (.build 0 (.ok ())),
  .advance (.allocate 0 (some 8)),
  .advance (.publish 0 true),
  .advance (.releaseOut 0),
  .leave 0 true,
  .enter 0 (.recognize (some 8) (some sampleImageV1) ⟨4097, 4096, fun _ => 0⟩ false),
  .advance (.resolve 1),
  .advance (.validate 1),
  .run 0 (.ok sampleResult),
  .leave 0 true]

/-- **A failure without a text**: the last call of that run fails, and the text of its thread is
empty. -/
theorem lastError_misaligned :
    ∃ s, runSteps step initial misalignedCalls = some s ∧
      (s.threads 0).running = none ∧ (s.threads 0).returned = some .configurationError ∧
      (s.threads 0).lastError = "" ∧ ¬ (s.threads 0).Law := by
  have hruns : (runSteps step initial misalignedCalls).map (fun s =>
      ((s.threads 0).running.isNone, (s.threads 0).returned, (s.threads 0).lastError)) =
      some (true, some .configurationError, "") := by
    decide +kernel
  obtain ⟨s, hrun, hs⟩ := Option.map_eq_some_iff.mp hruns
  obtain ⟨hidle, hrest⟩ := Prod.mk.inj hs
  obtain ⟨hreturned, htext⟩ := Prod.mk.inj hrest
  have hrunning : (s.threads 0).running = none := Option.isNone_iff_eq_none.mp hidle
  refine ⟨s, hrun, hrunning, hreturned, htext, fun hlaw => ?_⟩
  have hfailed := hlaw hrunning
  rw [hreturned] at hfailed
  exact hfailed.1 htext

end ThreadedApi

end FacLpr

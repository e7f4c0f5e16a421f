import FacLpr.Application.Image
import FacLpr.CApi.Wire
import FacLpr.Foundations.Threads
import FacLpr.Foundations.Transition
import Mathlib.Logic.Function.Basic

/-!
# CApi/EngineHandle — the handles of the C interface

A handle is the address of an object on the heap, and the registry of live handles is a set of
addresses.  A step is one critical section of the registry, one allocation or deletion, or one part
of a call between them, so a list of actions is an interleaving of any number of calls.  A caller
may pass any address; the allocator hands out any that is not allocated.

A handle object is known by its place among all ever made.  Its stage and its creator are not
members of it, and neither are the lists of what was freed and of what went wrong: they record what
happened to each object.
-/

namespace FacLpr

/-! ## The arguments -/

structure EngineConfigV1 where
  structSize : UInt32
  abiVersion : UInt32
  reservedFlags : UInt32
  reservedZero : UInt32

/-- `sizeof(fac_lpr_engine_config_v1)`. -/
def sizeOfEngineConfigV1 : UInt32 := 16

/-- `validate_config`. -/
def validateConfig : Option EngineConfigV1 → Except EngineError Unit
  | none => .ok ()
  | some config => do
      require (!decide (config.structSize < sizeOfEngineConfigV1))
        (configurationError "C ABI v1 config struct is too small")
      require (config.abiVersion == abiVersion) (configurationError "unsupported C ABI version")
      require (config.reservedFlags == 0 && config.reservedZero == 0)
        (configurationError "C ABI v1 reserved config fields must be zero")

/-- `validate_required_utf8_path`, of a string without its terminator. -/
def validateRequiredUtf8Path (value : Option Text) (field : String) : Except EngineError Unit :=
  require (!(value.getD []).isEmpty) (configurationError (field ++ " is required"))

/-- An image of the caller; a null pointer to its bytes is `none`. -/
structure ImageViewV1 where
  structSize : UInt32
  abiVersion : UInt32
  data : Option (List Byte)
  width : UInt32
  height : UInt32
  strideBytes : UInt32
  pixelFormat : UInt32

/-- `sizeof(fac_lpr_image_view_v1)`. -/
def sizeOfImageViewV1 : UInt32 := 40

/-- `to_pixel_format`. -/
def toPixelFormat (format : UInt32) : Except EngineError PixelFormat :=
  if format = 0 then .ok .gray8
  else if format = 1 then .ok .bgr8
  else if format = 2 then .ok .rgb8
  else .error (invalidImageError "unsupported C ABI pixel format")

/-- `validate_image` of the C interface. -/
def validateImageV1 : Option ImageViewV1 → Except EngineError ImageView
  | none => .error (invalidImageError "C ABI image is null")
  | some image => do
      require (!decide (image.structSize < sizeOfImageViewV1) && image.abiVersion == abiVersion)
        (invalidImageError "C ABI image struct/version is invalid")
      let bytes := image.data.getD []
      require (!bytes.isEmpty && image.width != 0 && image.height != 0 && image.strideBytes != 0)
        (invalidImageError "C ABI image fields are incomplete")
      let format ← toPixelFormat image.pixelFormat
      let packedRow ←
        checkedMultiply image.width.toNat (pixelFormatChannels format) "C ABI packed row"
      require (packedRow ≤ image.strideBytes.toNat)
        (invalidImageError "C ABI image stride is too small")
      let tail ← checkedMultiply (image.height.toNat - 1) image.strideBytes.toNat "C ABI image tail"
      let required ← checkedAdd tail packedRow "C ABI image extent"
      require (required ≤ bytes.length) (invalidImageError "C ABI image buffer is too small")
      return ⟨bytes, image.width.toNat, image.height.toNat, image.strideBytes.toNat, format⟩

/-! ## Results -/

/-- What `invoke_c_api` catches. -/
inductive ApiException where
  | engine (error : EngineError)
  | badAlloc
  | other

/-- The status `invoke_c_api` returns. -/
def invokeCApi : Except ApiException FacLprStatus → FacLprStatus
  | .ok status => status
  | .error (.engine error) => toCStatus error.code
  | .error .badAlloc => .resourceExhausted
  | .error .other => .internalError

/-- The text `fac_lpr_get_last_error_v1` gives after the call. -/
def lastError : Except ApiException FacLprStatus → String
  | .ok _ => ""
  | .error (.engine error) => error.message
  | .error .badAlloc => "C ABI allocation failed"
  | .error .other => "C ABI internal error"

/-- The exception of a handle that is not live. -/
def invalidHandle : ApiException :=
  .engine (configurationError "C ABI engine handle is null or invalid")

/-! ## The state -/

abbrev Address := ℕ

/-- Where a handle object is in its life; a withdrawn one is erased from the registry by a call that
is about to delete it. -/
inductive HandleStage where
  | allocated
  | published
  | withdrawn (call : ℕ)
  | deleted
  | discarded
  deriving DecidableEq

/-- The object is on the heap. -/
def HandleStage.isAllocated : HandleStage → Bool
  | .allocated => true
  | .published => true
  | .withdrawn _ => true
  | _ => false

/-- A `fac_lpr_engine_handle`: its address, the pipeline it shares, and the call that made it. -/
structure HandleObject where
  address : Address
  pipeline : Option ℕ
  creator : ℕ
  stage : HandleStage

/-- A call, between its steps.  A pointer to a handle variable is `none` when it is null, and else
the value of the variable. -/
inductive CallPhase where
  | building
  | making (pipeline : Option ℕ)
  | publishing (object : ℕ)
  | discarding (object : ℕ)
  | releasing (object : ℕ)
  | created (out : Option (Option Address)) (result : Except ApiException FacLprStatus)
  | erasing (handle : Address)
  | deleting (handle : Address)
  | destroyed (pointer : Option (Option Address))
  | resolving (handle : Option Address) (image : Option ImageViewV1)
  | resolved (pipeline : Option ℕ) (image : Option ImageViewV1)
  | running (pipeline : ℕ) (image : ImageView)
  | recognized (result : Except ApiException FacLprStatus)

/-- The share of a pipeline a call holds. -/
def CallPhase.pipeline? : CallPhase → Option ℕ
  | .making pipeline => pipeline
  | .resolved pipeline _ => pipeline
  | .running pipeline _ => some pipeline
  | _ => none

/-- An access to memory that is gone. -/
inductive MemoryFault where
  | read (address : Address)
  | freed (address : Address)
  | pipeline (pipeline : ℕ)

/-- The heap as far as it holds handles, `g_live_handles`, every handle object ever made, the use
count of every pipeline ever built, the calls, the objects freed, in order, and the faults. -/
structure EngineApi where
  heap : Address → Option ℕ
  registry : List Address
  objects : List HandleObject
  owners : List ℕ
  calls : List CallPhase
  freed : List ℕ
  faults : List MemoryFault

namespace EngineApi

def initial : EngineApi := ⟨fun _ => none, [], [], [], [], [], []⟩

/-! ## The parts of a call -/

/-- The two functions that make a handle. -/
inductive CreateFunction where
  | createV1
  | createFromContractV1 (contractPath modelDirectory : Option Text)

/-- The checks of the arguments. -/
def CreateFunction.validate (function : CreateFunction) (config : Option EngineConfigV1) :
    Except EngineError Unit := do
  validateConfig config
  match function with
  | .createV1 => return
  | .createFromContractV1 contractPath modelDirectory =>
      validateRequiredUtf8Path contractPath "C ABI production contract path"
      validateRequiredUtf8Path modelDirectory "C ABI model directory"

/-- A call of a create function, up to its first allocation. -/
def enterCreate (function : CreateFunction) (config : Option EngineConfigV1)
    (out : Option (Option Address)) : CallPhase :=
  match out with
  | none => .created none
      (.error (.engine (configurationError "C ABI output handle pointer is null")))
  | some _ =>
      match function.validate config with
      | .error error => .created (some none) (.error (.engine error))
      | .ok () =>
          match function with
          | .createV1 => .making none
          | .createFromContractV1 _ _ => .building

/-- `fac_lpr_engine_destroy_v1`, up to the lock. -/
def enterDestroy : Option (Option Address) → CallPhase
  | some (some handle) => .erasing handle
  | pointer => .destroyed pointer

/-- `fac_lpr_engine_recognize_v1`, up to the lock. -/
def enterRecognize (handle : Option Address) (image : Option ImageViewV1) (requiredIsNull : Bool) :
    CallPhase :=
  if requiredIsNull then
    .recognized (.error (.engine (configurationError "C ABI required output size pointer is null")))
  else .resolving handle image

/-- A copy of a shared pointer. -/
def retain : Option ℕ → List ℕ → List ℕ
  | none, owners => owners
  | some pipeline, owners => owners.modify pipeline (· + 1)

/-- The end of a shared pointer. -/
def release : Option ℕ → List ℕ → List ℕ
  | none, owners => owners
  | some pipeline, owners => owners.modify pipeline (· - 1)

/-- Let a call go on. -/
def setCall (call : ℕ) (phase : CallPhase) (api : EngineApi) : EngineApi :=
  { api with calls := api.calls.set call phase }

/-- Move an object to another stage of its life. -/
def setStage (id : ℕ) (stage : HandleStage) (api : EngineApi) : EngineApi :=
  match api.objects[id]? with
  | none => api
  | some object => { api with objects := api.objects.set id { object with stage } }

/-- `delete`: the object at an address, and the share of the pipeline in it. -/
def deleteAt (handle : Address) (stage : HandleStage) (api : EngineApi) : EngineApi :=
  match api.heap handle with
  | none => { api with faults := api.faults ++ [.freed handle] }
  | some id =>
      setStage id stage { api with
        heap := Function.update api.heap handle none
        owners := release ((api.objects[id]?).bind HandleObject.pipeline) api.owners
        freed := api.freed ++ [id] }

@[simp] theorem setStage_calls (id : ℕ) (stage : HandleStage) (api : EngineApi) :
    (setStage id stage api).calls = api.calls := by
  unfold setStage
  split <;> rfl

@[simp] theorem deleteAt_calls (handle : Address) (stage : HandleStage) (api : EngineApi) :
    (deleteAt handle stage api).calls = api.calls := by
  unfold deleteAt
  split
  · rfl
  · exact setStage_calls _ _ _

/-- The critical section of `fac_lpr_engine_destroy_v1`. -/
def eraseHandle (call : ℕ) (handle : Address) (api : EngineApi) : EngineApi :=
  if handle ∈ api.registry then
    let erased := { api with registry := api.registry.filter (· ≠ handle) }
    match api.heap handle with
    | none => setCall call (.deleting handle) erased
    | some id => setCall call (.deleting handle) (setStage id (.withdrawn call) erased)
  else setCall call (.destroyed (some none)) api

/-- `pipeline_for_live_handle`. -/
def resolveHandle (call : ℕ) (handle : Option Address) (image : Option ImageViewV1)
    (api : EngineApi) : EngineApi :=
  match handle with
  | none => setCall call (.recognized (.error invalidHandle)) api
  | some address =>
      if address ∈ api.registry then
        match (api.heap address).bind (api.objects[·]?) with
        | none => setCall call (.recognized (.error .other))
            { api with faults := api.faults ++ [.read address] }
        | some object => setCall call (.resolved object.pipeline image)
            { api with owners := retain object.pipeline api.owners }
      else setCall call (.recognized (.error invalidHandle)) api

/-- The part of `fac_lpr_engine_recognize_v1` between the lock and the pipeline. -/
def validateCall (call : ℕ) (pipeline : Option ℕ) (image : Option ImageViewV1) (api : EngineApi) :
    EngineApi :=
  match validateImageV1 image with
  | .error error => setCall call (.recognized (.error (.engine error)))
      { api with owners := release pipeline api.owners }
  | .ok view =>
      match pipeline with
      | none => setCall call (.recognized (.error (.engine
          (configurationError "C ABI engine handle has no configured pipeline")))) api
      | some pipeline => setCall call (.running pipeline view) api

/-- The end of `fac_lpr_engine_recognize_v1`, for what the pipeline and the encoder do. -/
def finishCall (call pipeline : ℕ) (outcome : Except ApiException FacLprStatus) (api : EngineApi) :
    EngineApi :=
  let faults := if api.owners[pipeline]?.getD 0 = 0 then api.faults ++ [.pipeline pipeline]
    else api.faults
  setCall call (.recognized outcome)
    { api with owners := release (some pipeline) api.owners, faults }

/-! ## Steps -/

inductive Action where
  | callCreate (function : CreateFunction) (config : Option EngineConfigV1)
      (out : Option (Option Address))
  | build (call : ℕ) (outcome : Except ApiException Unit)
  | allocate (call : ℕ) (choice : Option Address)
  | publish (call : ℕ) (inserted : Bool)
  | discard (call : ℕ)
  | releaseOut (call : ℕ)
  | callDestroy (pointer : Option (Option Address))
  | erase (call : ℕ)
  | delete (call : ℕ)
  | callRecognize (handle : Option Address) (image : Option ImageViewV1) (requiredIsNull : Bool)
  | resolve (call : ℕ)
  | validate (call : ℕ)
  | finish (call : ℕ) (outcome : Except ApiException FacLprStatus)

/-- One step, if it is possible.  An allocation or an insertion may fail, and an address that is
allocated is not handed out. -/
def step (api : EngineApi) : Action → Option EngineApi
  | .callCreate function config out =>
      some { api with calls := api.calls ++ [enterCreate function config out] }
  | .build call outcome =>
      match api.calls[call]? with
      | some .building =>
          match outcome with
          | .error e => some (setCall call (.created (some none) (.error e)) api)
          | .ok () => some (setCall call (.making (some api.owners.length))
              { api with owners := api.owners ++ [1] })
      | _ => none
  | .allocate call choice =>
      match api.calls[call]? with
      | some (.making pipeline) =>
          match choice with
          | none => some (setCall call (.created (some none) (.error .badAlloc))
              { api with owners := release pipeline api.owners })
          | some address =>
              if api.heap address = none then
                some (setCall call (.publishing api.objects.length)
                  { api with
                    heap := Function.update api.heap address (some api.objects.length)
                    objects := api.objects ++ [⟨address, pipeline, call, .allocated⟩] })
              else none
      | _ => none
  | .publish call inserted =>
      match api.calls[call]? with
      | some (.publishing id) =>
          match api.objects[id]? with
          | none => none
          | some object =>
              if inserted then
                some (setCall call (.releasing id) (setStage id .published
                  { api with registry := List.insert object.address api.registry }))
              else some (setCall call (.discarding id) api)
      | _ => none
  | .discard call =>
      match api.calls[call]? with
      | some (.discarding id) =>
          match api.objects[id]? with
          | none => none
          | some object => some (setCall call (.created (some none) (.error .badAlloc))
              (deleteAt object.address .discarded api))
      | _ => none
  | .releaseOut call =>
      match api.calls[call]? with
      | some (.releasing id) =>
          match api.objects[id]? with
          | none => none
          | some object => some (setCall call (.created (some (some object.address)) (.ok .ok)) api)
      | _ => none
  | .callDestroy pointer => some { api with calls := api.calls ++ [enterDestroy pointer] }
  | .erase call =>
      match api.calls[call]? with
      | some (.erasing handle) => some (eraseHandle call handle api)
      | _ => none
  | .delete call =>
      match api.calls[call]? with
      | some (.deleting handle) => some (setCall call (.destroyed (some none))
          (deleteAt handle .deleted api))
      | _ => none
  | .callRecognize handle image requiredIsNull =>
      some { api with calls := api.calls ++ [enterRecognize handle image requiredIsNull] }
  | .resolve call =>
      match api.calls[call]? with
      | some (.resolving handle image) => some (resolveHandle call handle image api)
      | _ => none
  | .validate call =>
      match api.calls[call]? with
      | some (.resolved pipeline image) => some (validateCall call pipeline image api)
      | _ => none
  | .finish call outcome =>
      match api.calls[call]? with
      | some (.running pipeline _) => some (finishCall call pipeline outcome api)
      | _ => none

/-! ## The steps by their branches -/

/-- What a step can do. -/
inductive Step (api : EngineApi) : Action → EngineApi → Prop
  | callCreate (function : CreateFunction) (config : Option EngineConfigV1)
      (out : Option (Option Address)) : Step api (.callCreate function config out)
        { api with calls := api.calls ++ [enterCreate function config out] }
  | buildFailed {call : ℕ} (e : ApiException) (hat : api.calls[call]? = some .building) :
      Step api (.build call (.error e)) (setCall call (.created (some none) (.error e)) api)
  | built {call : ℕ} (hat : api.calls[call]? = some .building) :
      Step api (.build call (.ok ())) (setCall call (.making (some api.owners.length))
        { api with owners := api.owners ++ [1] })
  | allocateFailed {call : ℕ} {pipeline : Option ℕ}
      (hat : api.calls[call]? = some (.making pipeline)) :
      Step api (.allocate call none) (setCall call (.created (some none) (.error .badAlloc))
        { api with owners := release pipeline api.owners })
  | allocated {call : ℕ} {pipeline : Option ℕ} {address : Address}
      (hat : api.calls[call]? = some (.making pipeline)) (hfree : api.heap address = none) :
      Step api (.allocate call (some address)) (setCall call (.publishing api.objects.length)
        { api with
          heap := Function.update api.heap address (some api.objects.length)
          objects := api.objects ++ [⟨address, pipeline, call, .allocated⟩] })
  | published {call id : ℕ} {o : HandleObject} (hat : api.calls[call]? = some (.publishing id))
      (hobject : api.objects[id]? = some o) :
      Step api (.publish call true) (setCall call (.releasing id) (setStage id .published
        { api with registry := List.insert o.address api.registry }))
  | publishFailed {call id : ℕ} (hat : api.calls[call]? = some (.publishing id)) :
      Step api (.publish call false) (setCall call (.discarding id) api)
  | discarded {call id : ℕ} {o : HandleObject} (hat : api.calls[call]? = some (.discarding id))
      (hobject : api.objects[id]? = some o) :
      Step api (.discard call) (setCall call (.created (some none) (.error .badAlloc))
        (deleteAt o.address .discarded api))
  | released {call id : ℕ} {o : HandleObject} (hat : api.calls[call]? = some (.releasing id))
      (hobject : api.objects[id]? = some o) :
      Step api (.releaseOut call)
        (setCall call (.created (some (some o.address)) (.ok .ok)) api)
  | callDestroy (pointer : Option (Option Address)) :
      Step api (.callDestroy pointer) { api with calls := api.calls ++ [enterDestroy pointer] }
  | erased {call : ℕ} {handle : Address} (hat : api.calls[call]? = some (.erasing handle)) :
      Step api (.erase call) (eraseHandle call handle api)
  | deleted {call : ℕ} {handle : Address} (hat : api.calls[call]? = some (.deleting handle)) :
      Step api (.delete call)
        (setCall call (.destroyed (some none)) (deleteAt handle .deleted api))
  | callRecognize (handle : Option Address) (image : Option ImageViewV1) (requiredIsNull : Bool) :
      Step api (.callRecognize handle image requiredIsNull)
        { api with calls := api.calls ++ [enterRecognize handle image requiredIsNull] }
  | resolved {call : ℕ} {handle : Option Address} {image : Option ImageViewV1}
      (hat : api.calls[call]? = some (.resolving handle image)) :
      Step api (.resolve call) (resolveHandle call handle image api)
  | validated {call : ℕ} {pipeline : Option ℕ} {image : Option ImageViewV1}
      (hat : api.calls[call]? = some (.resolved pipeline image)) :
      Step api (.validate call) (validateCall call pipeline image api)
  | finished {call pipeline : ℕ} {image : ImageView}
      (outcome : Except ApiException FacLprStatus)
      (hat : api.calls[call]? = some (.running pipeline image)) :
      Step api (.finish call outcome) (finishCall call pipeline outcome api)

/-- **Every step takes one of its branches.** -/
theorem step_cases {api api' : EngineApi} {action : Action} (h : step api action = some api') :
    Step api action api' := by
  cases action with
  | callCreate function config out => exact Option.some.inj h ▸ .callCreate function config out
  | callDestroy pointer => exact Option.some.inj h ▸ .callDestroy pointer
  | callRecognize handle image requiredIsNull =>
    exact Option.some.inj h ▸ .callRecognize handle image requiredIsNull
  | build call outcome =>
    simp only [step] at h
    split at h
    · rename_i hat
      cases outcome with
      | error e => exact Option.some.inj h ▸ .buildFailed e hat
      | ok u => exact Option.some.inj h ▸ .built hat
    · cases h
  | allocate call choice =>
    simp only [step] at h
    split at h
    · rename_i pipeline hat
      cases choice with
      | none => exact Option.some.inj h ▸ .allocateFailed hat
      | some address =>
        obtain ⟨hfree, happly⟩ := Option.ite_none_right_eq_some.mp h
        exact Option.some.inj happly ▸ .allocated hat hfree
    · cases h
  | publish call inserted =>
    simp only [step] at h
    split at h
    · rename_i id hat
      split at h
      · cases h
      · rename_i o hobject
        cases inserted with
        | true => exact Option.some.inj h ▸ .published hat hobject
        | false => exact Option.some.inj h ▸ .publishFailed hat
    · cases h
  | discard call =>
    simp only [step] at h
    split at h
    · rename_i id hat
      split at h
      · cases h
      · rename_i o hobject
        exact Option.some.inj h ▸ .discarded hat hobject
    · cases h
  | releaseOut call =>
    simp only [step] at h
    split at h
    · rename_i id hat
      split at h
      · cases h
      · rename_i o hobject
        exact Option.some.inj h ▸ .released hat hobject
    · cases h
  | erase call =>
    simp only [step] at h
    split at h
    · rename_i handle hat
      exact Option.some.inj h ▸ .erased hat
    · cases h
  | delete call =>
    simp only [step] at h
    split at h
    · rename_i handle hat
      exact Option.some.inj h ▸ .deleted hat
    · cases h
  | resolve call =>
    simp only [step] at h
    split at h
    · rename_i handle image hat
      exact Option.some.inj h ▸ .resolved hat
    · cases h
  | validate call =>
    simp only [step] at h
    split at h
    · rename_i pipeline image hat
      exact Option.some.inj h ▸ .validated hat
    · cases h
  | finish call outcome =>
    simp only [step] at h
    split at h
    · rename_i pipeline image hat
      exact Option.some.inj h ▸ .finished outcome hat
    · cases h

end EngineApi

end FacLpr

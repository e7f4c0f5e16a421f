import FacLpr.CApi.HandleLifecycle

/-!
# CApi/StaleHandle — a handle used after its engine was destroyed

The registry knows an engine by its address, and the allocator may hand out the address of an engine
that is gone.  A stale copy of a handle is refused exactly while no engine is live at its address
(`stale_refused_iff`), and always if no address is handed out twice (`stale_refused_of_fresh`).
-/

namespace FacLpr

namespace EngineApi

/-! ## Uses of a handle -/

/-- The engine was destroyed. -/
def IsDestroyed (o : HandleObject) : Prop := o.stage = .deleted ∨ ∃ call, o.stage = .withdrawn call

/-- An engine is live at an address. -/
def LiveAt (api : EngineApi) (a : Address) : Prop :=
  ∃ (id : ℕ) (o : HandleObject), api.objects[id]? = some o ∧ o.address = a ∧ o.stage = .published

/-- The critical section in which a call looks up the handle it was given. -/
inductive LooksUp (api : EngineApi) (call : ℕ) (a : Address) : Action → Prop
  | resolve {image : Option ImageViewV1}
      (hat : api.calls[call]? = some (.resolving (some a) image)) :
      LooksUp api call a (.resolve call)
  | erase (hat : api.calls[call]? = some (.erasing a)) : LooksUp api call a (.erase call)

/-- **A stale use**: the handle is a copy of what one create gave, and that engine was destroyed.
The code cannot see where a copy is from; `copyOf` says it for each call. -/
structure StaleUse (copyOf : ℕ → Option ℕ) (api : EngineApi) (action : Action) (call : ℕ)
    (o : HandleObject) : Prop where
  copied : ∃ id, copyOf call = some id ∧ api.objects[id]? = some o
  destroyed : IsDestroyed o
  looksUp : LooksUp api call o.address action

/-- **The handle is refused**: a recognition gets the configuration error, a destruction ends with
nothing to delete, and every engine is as it was. -/
structure Refused (api api' : EngineApi) (call : ℕ) : Prop where
  ended : api'.calls[call]? = some (.recognized (.error invalidHandle)) ∨
    api'.calls[call]? = some (.destroyed (some none))
  engines : api'.heap = api.heap ∧ api'.registry = api.registry ∧ api'.objects = api.objects

/-! ## One use -/

section Use

variable {api api' : EngineApi} {call : ℕ} {a : Address} {action : Action}

theorem mem_registry_iff (hinv : Inv api) : a ∈ api.registry ↔ LiveAt api a := hinv.heap.live a

/-- A call that looks up an address with no live engine is refused. -/
theorem refused_of_not_live (hinv : Inv api) (hstep : step api action = some api')
    (hlooks : LooksUp api call a action) (hlive : ¬ LiveAt api a) : Refused api api' call := by
  have hregistry : a ∉ api.registry := fun hmem => hlive ((mem_registry_iff hinv).mp hmem)
  cases hlooks with
  | resolve hat =>
    simp only [step, hat, resolveHandle, if_neg hregistry] at hstep
    obtain rfl := Option.some.inj hstep
    exact ⟨Or.inl (List.getElem?_set_self (List.getElem?_eq_some_iff.mp hat).1), rfl, rfl, rfl⟩
  | erase hat =>
    simp only [step, hat, eraseHandle, if_neg hregistry] at hstep
    obtain rfl := Option.some.inj hstep
    exact ⟨Or.inr (List.getElem?_set_self (List.getElem?_eq_some_iff.mp hat).1), rfl, rfl, rfl⟩

/-- **A call that looks up the address of a live engine gets that engine**: a recognition its
pipeline, a destruction its removal. -/
theorem not_refused_of_live (hinv : Inv api) (hstep : step api action = some api')
    (hlooks : LooksUp api call a action) (hlive : LiveAt api a) : ¬ Refused api api' call := by
  have hregistry : a ∈ api.registry := (mem_registry_iff hinv).mpr hlive
  obtain ⟨id, o, hobject, rfl, hstage⟩ := hlive
  have hheap : api.heap o.address = some id :=
    (hinv.heap.held _ _).mpr ⟨o, hobject, rfl, hstage ▸ rfl⟩
  intro hrefused
  cases hlooks with
  | resolve hat =>
    have hread : (api.heap o.address).bind (api.objects[·]?) = some o := by
      rw [hheap]
      exact hobject
    simp only [step, hat, resolveHandle, if_pos hregistry, hread] at hstep
    obtain rfl := Option.some.inj hstep
    have hself := hrefused.ended
    rw [setCall_calls, List.getElem?_set_self (List.getElem?_eq_some_iff.mp hat).1] at hself
    rcases hself with hself | hself
    · cases hself
    · cases hself
  | erase hat =>
    simp only [step, hat, eraseHandle, if_pos hregistry, hheap] at hstep
    obtain rfl := Option.some.inj hstep
    have hkept := hrefused.engines.2.1
    rw [setCall_registry, setStage_registry] at hkept
    rw [← hkept] at hregistry
    exact absurd rfl (of_decide_eq_true (List.mem_filter.mp hregistry).2)

end Use

/-! ## Whole runs -/

/-- **When stale handles are refused.**  Along every run, whatever copies its calls use: every stale
use is refused exactly if at none of them an engine is live at the address. -/
theorem stale_refused_iff (copyOf : ℕ → Option ℕ) (actions : List Action) :
    EveryStep step initial actions (fun api action api' => ∀ (call : ℕ) (o : HandleObject),
      StaleUse copyOf api action call o → Refused api api' call) ↔
    EveryStep step initial actions (fun api action _ => ∀ (call : ℕ) (o : HandleObject),
      StaleUse copyOf api action call o → ¬ LiveAt api o.address) := by
  refine everyStep_congr (fun _ _ _ hinv hstep => inv_step hinv hstep) ?_ inv_initial actions
  intro api action api' hinv hstep
  constructor
  · intro h call o hstale hlive
    exact not_refused_of_live hinv hstep hstale.looksUp hlive (h call o hstale)
  · intro h call o hstale
    exact refused_of_not_live hinv hstep hstale.looksUp (h call o hstale)

/-- An engine is destroyed, its address is handed out again, and a copy of its handle destroys the
engine that is there now. -/
def addressReused : List Action :=
  [.callCreate .createV1 none (some none), .allocate 0 (some 1), .publish 0 true, .releaseOut 0,
    .callDestroy (some (some 1)), .erase 1, .delete 1,
    .callCreate .createV1 none (some none), .allocate 2 (some 1), .publish 2 true, .releaseOut 2,
    .callDestroy (some (some 1)), .erase 3]

theorem not_stale_refused_addressReused : ¬ ∀ (copyOf : ℕ → Option ℕ) (actions : List Action),
    EveryStep step initial actions fun api action api' => ∀ (call : ℕ) (o : HandleObject),
      StaleUse copyOf api action call o → Refused api api' call := by
  intro h
  have hrefused := h (fun _ => some 0) addressReused (addressReused.take 12) [] (.erase 3)
    _ _ rfl rfl
    rfl 3 ⟨1, none, 0, .deleted⟩ ⟨⟨0, rfl, rfl⟩, Or.inl rfl, .erase rfl⟩
  exact absurd hrefused.engines.2.1 (by decide)

/-! ## An allocator that hands out no address twice -/

/-- The addresses handed out so far. -/
def addresses (api : EngineApi) : List Address := api.objects.map HandleObject.address

/-- An allocation of an address that no engine had. -/
def IsFresh (api : EngineApi) (action : Action) : Prop :=
  ∀ (call : ℕ) (a : Address), action = .allocate call (some a) → a ∉ addresses api

section Fresh

variable {api api' : EngineApi}

@[simp] theorem addresses_setCall (call : ℕ) (phase : CallPhase) (api : EngineApi) :
    addresses (setCall call phase api) = addresses api := rfl

@[simp] theorem addresses_setStage (id : ℕ) (stage : HandleStage) (api : EngineApi) :
    addresses (setStage id stage api) = addresses api := by
  unfold setStage
  split
  · rfl
  · rename_i o hobject
    obtain ⟨hlt, rfl⟩ := List.getElem?_eq_some_iff.mp hobject
    simp only [addresses, List.map_set]
    rw [← List.getElem_map HandleObject.address (h := by simpa using hlt)]
    exact List.set_getElem_self _

@[simp] theorem addresses_deleteAt (handle : Address) (stage : HandleStage) (api : EngineApi) :
    addresses (deleteAt handle stage api) = addresses api := by
  unfold deleteAt
  split
  · rfl
  · exact addresses_setStage _ _ _

theorem addresses_eraseHandle (call : ℕ) (handle : Address) (api : EngineApi) :
    addresses (eraseHandle call handle api) = addresses api := by
  unfold eraseHandle
  split
  · split
    · rfl
    · exact addresses_setStage _ _ _
  · rfl

theorem addresses_resolveHandle (call : ℕ) (handle : Option Address) (image : Option ImageViewV1)
    (api : EngineApi) : addresses (resolveHandle call handle image api) = addresses api := by
  cases handle with
  | none => rfl
  | some address =>
    simp only [resolveHandle]
    split
    · split <;> rfl
    · rfl

theorem addresses_validateCall (call : ℕ) (pipeline : Option ℕ) (image : Option ImageViewV1)
    (api : EngineApi) : addresses (validateCall call pipeline image api) = addresses api := by
  unfold validateCall
  split
  · rfl
  · split <;> rfl

/-- **Fresh allocations keep the addresses apart.** -/
theorem nodup_addresses_step {action : Action} (h : (addresses api).Nodup)
    (hfresh : IsFresh api action) (hstep : step api action = some api') :
    (addresses api').Nodup := by
  cases step_cases hstep with
  | @allocated call pipeline address hat hfree =>
    have hnew : addresses (setCall call (.publishing api.objects.length) { api with
        heap := Function.update api.heap address (some api.objects.length)
        objects := api.objects ++ [⟨address, pipeline, call, .allocated⟩] }) =
        addresses api ++ [address] := List.map_append
    rw [hnew]
    exact List.nodup_append.mpr ⟨h, List.nodup_singleton _, fun b hb c hc hbc =>
      hfresh call address rfl (List.mem_singleton.mp hc ▸ hbc ▸ hb)⟩
  | published => rwa [addresses_setCall, addresses_setStage]
  | discarded => rwa [addresses_setCall, addresses_deleteAt]
  | deleted => rwa [addresses_setCall, addresses_deleteAt]
  | erased => rwa [addresses_eraseHandle]
  | resolved => rwa [addresses_resolveHandle]
  | validated => rwa [addresses_validateCall]
  | _ => exact h

/-- **If no address is handed out twice**, every stale use is refused. -/
theorem stale_refused_of_fresh (copyOf : ℕ → Option ℕ) {actions : List Action}
    (hfresh : EveryStep step initial actions fun api action _ => IsFresh api action) :
    EveryStep step initial actions fun api action api' => ∀ (call : ℕ) (o : HandleObject),
      StaleUse copyOf api action call o → Refused api api' call := by
  rintro before after action api api' rfl hbefore hstep call o hstale
  have hinv : Inv api := inv_run hbefore
  have hpreserved : ∀ (s : EngineApi) (a : Action) (s' : EngineApi), (addresses s).Nodup →
      IsFresh s a → step s a = some s' → (addresses s').Nodup :=
    fun _ _ _ hs ha hstep => nodup_addresses_step hs ha hstep
  have hempty : (addresses initial).Nodup := List.nodup_nil
  have hnodup : (addresses api).Nodup :=
    runSteps_invariant_of_everyStep hpreserved hempty hfresh.of_append hbefore
  refine refused_of_not_live hinv hstep hstale.looksUp ?_
  rintro ⟨id, x, hx, haddress, hlive⟩
  obtain ⟨k, -, ho⟩ := hstale.copied
  -- one object per address, so the live engine would be the destroyed one
  have hlt : id < (addresses api).length := by
    rw [addresses, List.length_map]
    exact (List.getElem?_eq_some_iff.mp hx).1
  have hid : id = k := by
    refine (List.getElem?_inj hlt hnodup).mp ?_
    simp only [addresses, List.getElem?_map, hx, ho, Option.map_some, haddress]
  subst hid
  obtain rfl : x = o := Option.some.inj (hx.symm.trans ho)
  rcases hstale.destroyed with h | ⟨c, h⟩
  · cases hlive.symm.trans h
  · cases hlive.symm.trans h

end Fresh

end EngineApi

end FacLpr

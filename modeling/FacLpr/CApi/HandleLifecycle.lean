import FacLpr.CApi.EngineHandle

/-!
# CApi/HandleLifecycle — what a handle and a pipeline live through

Three invariants, each about one part of the state.  The heap and the registry hold the objects
their stages say (`HeapInv`); a call owns the object it is making or deleting (`CallInv`); and a use
count is the number of shares objects and calls hold (`OwnerInv`).  Together they exclude every
access to memory that is gone (`handle_lifecycle`).
-/

namespace FacLpr

namespace EngineApi

/-! ## The heap and the registry -/

/-- The heap holds the allocated objects, the registry the addresses of the published ones, and what
was freed was freed once. -/
structure HeapInv (heap : Address → Option ℕ) (registry : List Address)
    (objects : List HandleObject) (freed : List ℕ) : Prop where
  held : ∀ (a : Address) (id : ℕ), heap a = some id ↔
    ∃ o : HandleObject, objects[id]? = some o ∧ o.address = a ∧ o.stage.isAllocated = true
  live : ∀ a : Address, a ∈ registry ↔
    ∃ (id : ℕ) (o : HandleObject), objects[id]? = some o ∧ o.address = a ∧ o.stage = .published
  nodup : freed.Nodup
  gone : ∀ id ∈ freed, ∃ o : HandleObject, objects[id]? = some o ∧ o.stage.isAllocated = false

/-- The objects, when one of them moves to another stage. -/
theorem getElem?_restage {objects : List HandleObject} {id : ℕ} {o : HandleObject}
    (hobject : objects[id]? = some o) (stage : HandleStage) {k : ℕ} {x : HandleObject} :
    (objects.set id { o with stage })[k]? = some x ↔
      (k = id ∧ x = { o with stage }) ∨ (k ≠ id ∧ objects[k]? = some x) := by
  have hlt := (List.getElem?_eq_some_iff.mp hobject).1
  rcases eq_or_ne k id with rfl | hne
  · rw [List.getElem?_set_self hlt]
    constructor
    · exact fun h => Or.inl ⟨rfl, (Option.some.inj h).symm⟩
    · rintro (⟨-, rfl⟩ | ⟨hne, -⟩)
      · rfl
      · exact absurd rfl hne
  · rw [List.getElem?_set_ne hne.symm]
    constructor
    · exact fun h => Or.inr ⟨hne, h⟩
    · rintro (⟨rfl, -⟩ | ⟨-, h⟩)
      · exact absurd rfl hne
      · exact h

section Heap

variable {heap : Address → Option ℕ} {registry : List Address} {objects : List HandleObject}
  {freed : List ℕ} {id : ℕ} {o : HandleObject}

/-- Two allocated objects do not share an address. -/
theorem HeapInv.eq_of_address (h : HeapInv heap registry objects freed) {k : ℕ} {x : HandleObject}
    (hobject : objects[id]? = some o) (hstage : o.stage.isAllocated = true)
    (hx : objects[k]? = some x) (hxstage : x.stage.isAllocated = true)
    (haddress : x.address = o.address) : k = id :=
  Option.some.inj (((h.held o.address k).mpr ⟨x, hx, haddress, hxstage⟩).symm.trans
    ((h.held o.address id).mpr ⟨o, hobject, rfl, hstage⟩))

/-- What was freed keeps being freed. -/
theorem HeapInv.gone_restage (h : HeapInv heap registry objects freed)
    (hobject : objects[id]? = some o) (hstage : o.stage.isAllocated = true) (stage : HandleStage) :
    ∀ k ∈ freed, ∃ x, (objects.set id { o with stage })[k]? = some x ∧
      x.stage.isAllocated = false := by
  intro k hk
  obtain ⟨x, hx, hxstage⟩ := h.gone k hk
  refine ⟨x, (getElem?_restage hobject stage).mpr (Or.inr ⟨?_, hx⟩), hxstage⟩
  rintro rfl
  rw [hobject] at hx
  cases hx
  cases hstage.symm.trans hxstage

/-- The heap holds what it held when an allocated object moves to an allocated stage. -/
theorem HeapInv.held_restage (h : HeapInv heap registry objects freed)
    (hobject : objects[id]? = some o) (hstage : o.stage.isAllocated = true) {stage : HandleStage}
    (hnext : stage.isAllocated = true) (a : Address) (k : ℕ) :
    heap a = some k ↔ ∃ x, (objects.set id { o with stage })[k]? = some x ∧ x.address = a ∧
      x.stage.isAllocated = true := by
  rw [h.held]
  simp only [getElem?_restage hobject]
  constructor
  · rintro ⟨x, hx, haddress, hxstage⟩
    rcases eq_or_ne k id with rfl | hne
    · rw [hobject] at hx
      cases hx
      exact ⟨_, Or.inl ⟨rfl, rfl⟩, haddress, hnext⟩
    · exact ⟨x, Or.inr ⟨hne, hx⟩, haddress, hxstage⟩
  · rintro ⟨x, ⟨rfl, rfl⟩ | ⟨-, hx⟩, haddress, hxstage⟩
    · exact ⟨o, hobject, haddress, hstage⟩
    · exact ⟨x, hx, haddress, hxstage⟩

/-- **An object is allocated.** -/
theorem HeapInv.allocate (h : HeapInv heap registry objects freed) {a : Address}
    (hfree : heap a = none) (pipeline : Option ℕ) (call : ℕ) :
    HeapInv (Function.update heap a (some objects.length)) registry
      (objects ++ [⟨a, pipeline, call, .allocated⟩]) freed where
  held b k := by
    rw [List.getElem?_append]
    rcases eq_or_ne b a with rfl | hne
    · rw [Function.update_self]
      constructor
      · intro hk
        obtain rfl := Option.some.inj hk
        exact ⟨⟨b, pipeline, call, .allocated⟩, by simp, rfl, rfl⟩
      · rintro ⟨x, hx, haddress, hxstage⟩
        split at hx
        · have hheap := (h.held b k).mpr ⟨x, hx, haddress, hxstage⟩
          rw [hfree] at hheap
          cases hheap
        · have hlast := (List.getElem?_eq_some_iff.mp hx).1
          rw [List.length_singleton] at hlast
          congr 1
          omega
    · rw [Function.update_of_ne hne, h.held]
      constructor
      · rintro ⟨x, hx, hrest⟩
        exact ⟨x, by rw [if_pos (List.getElem?_eq_some_iff.mp hx).1]; exact hx, hrest⟩
      · rintro ⟨x, hx, haddress, hxstage⟩
        split at hx
        · exact ⟨x, hx, haddress, hxstage⟩
        · obtain rfl := List.mem_singleton.mp (List.mem_of_getElem? hx)
          exact absurd haddress.symm hne
  live b := by
    rw [h.live]
    constructor
    · rintro ⟨k, x, hx, hrest⟩
      exact ⟨k, x, List.getElem?_append_left (List.getElem?_eq_some_iff.mp hx).1 ▸ hx, hrest⟩
    · rintro ⟨k, x, hx, haddress, hxstage⟩
      rw [List.getElem?_append] at hx
      split at hx
      · exact ⟨k, x, hx, haddress, hxstage⟩
      · obtain rfl := List.mem_singleton.mp (List.mem_of_getElem? hx)
        cases hxstage
  nodup := h.nodup
  gone k hk := by
    obtain ⟨x, hx, hxstage⟩ := h.gone k hk
    exact ⟨x, List.getElem?_append_left (List.getElem?_eq_some_iff.mp hx).1 ▸ hx, hxstage⟩

/-- **An object is published.** -/
theorem HeapInv.publish (h : HeapInv heap registry objects freed) (hobject : objects[id]? = some o)
    (hstage : o.stage = .allocated) :
    HeapInv heap (List.insert o.address registry)
      (objects.set id { o with stage := .published }) freed where
  held := h.held_restage hobject (hstage ▸ rfl) rfl
  live a := by
    simp only [List.mem_insert_iff, h.live, getElem?_restage hobject]
    constructor
    · rintro (rfl | ⟨k, x, hx, haddress, hxstage⟩)
      · exact ⟨id, _, Or.inl ⟨rfl, rfl⟩, rfl, rfl⟩
      · refine ⟨k, x, Or.inr ⟨?_, hx⟩, haddress, hxstage⟩
        rintro rfl
        rw [hobject] at hx
        cases hx
        cases hstage.symm.trans hxstage
    · rintro ⟨k, x, ⟨rfl, rfl⟩ | ⟨-, hx⟩, haddress, hxstage⟩
      · exact Or.inl haddress.symm
      · exact Or.inr ⟨k, x, hx, haddress, hxstage⟩
  nodup := h.nodup
  gone := h.gone_restage hobject (hstage ▸ rfl) _

/-- **An object is withdrawn.** -/
theorem HeapInv.withdraw (h : HeapInv heap registry objects freed) (hobject : objects[id]? = some o)
    (hstage : o.stage = .published) (call : ℕ) :
    HeapInv heap (registry.filter (· ≠ o.address))
      (objects.set id { o with stage := .withdrawn call }) freed where
  held := h.held_restage hobject (hstage ▸ rfl) rfl
  live a := by
    simp only [List.mem_filter, decide_eq_true_eq, h.live, getElem?_restage hobject]
    constructor
    · rintro ⟨⟨k, x, hx, haddress, hxstage⟩, hne⟩
      refine ⟨k, x, Or.inr ⟨?_, hx⟩, haddress, hxstage⟩
      rintro rfl
      rw [hobject] at hx
      cases hx
      exact hne haddress.symm
    · rintro ⟨k, x, ⟨rfl, rfl⟩ | ⟨hne, hx⟩, haddress, hxstage⟩
      · cases hxstage
      · refine ⟨⟨k, x, hx, haddress, hxstage⟩, ?_⟩
        rintro rfl
        exact hne (h.eq_of_address hobject (hstage ▸ rfl) hx (hxstage ▸ rfl) haddress)
  nodup := h.nodup
  gone := h.gone_restage hobject (hstage ▸ rfl) _

/-- **An object is freed.** -/
theorem HeapInv.free (h : HeapInv heap registry objects freed) (hobject : objects[id]? = some o)
    (hstage : o.stage.isAllocated = true) (hunpublished : o.stage ≠ .published)
    {stage : HandleStage} (hnext : stage.isAllocated = false) :
    HeapInv (Function.update heap o.address none) registry (objects.set id { o with stage })
      (freed ++ [id]) where
  held a k := by
    simp only [getElem?_restage hobject]
    rcases eq_or_ne a o.address with rfl | hne
    · rw [Function.update_self]
      refine iff_of_false nofun ?_
      rintro ⟨x, ⟨rfl, rfl⟩ | ⟨hne, hx⟩, haddress, hxstage⟩
      · cases hnext.symm.trans hxstage
      · exact hne (h.eq_of_address hobject hstage hx hxstage haddress)
    · rw [Function.update_of_ne hne, h.held]
      constructor
      · rintro ⟨x, hx, haddress, hxstage⟩
        refine ⟨x, Or.inr ⟨?_, hx⟩, haddress, hxstage⟩
        rintro rfl
        rw [hobject] at hx
        cases hx
        exact hne haddress.symm
      · rintro ⟨x, ⟨rfl, rfl⟩ | ⟨-, hx⟩, haddress, hxstage⟩
        · cases hnext.symm.trans hxstage
        · exact ⟨x, hx, haddress, hxstage⟩
  live a := by
    simp only [h.live, getElem?_restage hobject]
    constructor
    · rintro ⟨k, x, hx, haddress, hxstage⟩
      refine ⟨k, x, Or.inr ⟨?_, hx⟩, haddress, hxstage⟩
      rintro rfl
      rw [hobject] at hx
      cases hx
      exact hunpublished hxstage
    · rintro ⟨k, x, ⟨rfl, rfl⟩ | ⟨-, hx⟩, haddress, hxstage⟩
      · rw [show stage = .published from hxstage] at hnext
        cases hnext
      · exact ⟨k, x, hx, haddress, hxstage⟩
  nodup := by
    refine List.nodup_append.mpr ⟨h.nodup, List.nodup_singleton _, fun k hk k' hk' => ?_⟩
    obtain rfl := List.mem_singleton.mp hk'
    rintro rfl
    obtain ⟨x, hx, hxstage⟩ := h.gone k hk
    rw [hobject] at hx
    cases hx
    cases hstage.symm.trans hxstage
  gone k hk := by
    rcases List.mem_append.mp hk with hk | hk
    · exact h.gone_restage hobject hstage stage k hk
    · obtain rfl := List.mem_singleton.mp hk
      exact ⟨_, (getElem?_restage hobject stage).mpr (Or.inl ⟨rfl, rfl⟩), hnext⟩

end Heap

/-! ## The calls -/

/-- No object was made by the call. -/
def NoObject (objects : List HandleObject) (call : ℕ) : Prop :=
  ∀ (id : ℕ) (o : HandleObject), objects[id]? = some o → o.creator ≠ call

/-- The call has one object, which nobody else has seen. -/
def Owns (objects : List HandleObject) (call id : ℕ) : Prop :=
  (∃ o : HandleObject, objects[id]? = some o ∧ o.creator = call ∧ o.stage = .allocated) ∧
    ∀ (k : ℕ) (x : HandleObject), objects[k]? = some x → x.creator = call → k = id

/-- What a call knows of the objects at each of its phases. -/
def PhaseInv (objects : List HandleObject) (call : ℕ) : CallPhase → Prop
  | .building => NoObject objects call
  | .making _ => NoObject objects call
  | .publishing id => Owns objects call id
  | .discarding id => Owns objects call id
  | .created out (.error _) => (∀ v, out = some v → v = none) ∧
      ∀ (id : ℕ) (o : HandleObject), objects[id]? = some o → o.creator = call → o.stage = .discarded
  | .deleting a => ∃ (id : ℕ) (o : HandleObject), objects[id]? = some o ∧ o.address = a ∧
      o.stage = .withdrawn call
  | _ => True

structure CallInv (objects : List HandleObject) (calls : List CallPhase) : Prop where
  phases : ∀ (call : ℕ) (phase : CallPhase), calls[call]? = some phase →
    PhaseInv objects call phase
  creators : ∀ (id : ℕ) (o : HandleObject), objects[id]? = some o → o.creator < calls.length

section Calls

variable {objects : List HandleObject} {calls : List CallPhase} {call id : ℕ} {o : HandleObject}

/-- A call without an object is at no phase that needs one. -/
theorem phaseInv_created (e : ApiException) (h : NoObject objects call) :
    PhaseInv objects call (.created (some none) (.error e)) :=
  ⟨fun _ hv => (Option.some.inj hv).symm, fun id o ho hcreator => absurd hcreator (h id o ho)⟩

/-- **An object that another call moves** changes nothing for this one. -/
theorem PhaseInv.restage {phase : CallPhase} (h : PhaseInv objects call phase)
    (hobject : objects[id]? = some o) (hallocated : o.stage = .allocated → o.creator ≠ call)
    (hwithdrawn : o.stage ≠ .withdrawn call) (hdiscarded : o.stage ≠ .discarded)
    (stage : HandleStage) : PhaseInv (objects.set id { o with stage }) call phase := by
  have hcreator : ∀ (k : ℕ) (x : HandleObject),
      (objects.set id { o with stage })[k]? = some x → x.creator = call →
        ∃ y : HandleObject, objects[k]? = some y ∧ y.creator = call := by
    intro k x hx hcall
    rcases (getElem?_restage hobject stage).mp hx with ⟨rfl, rfl⟩ | ⟨-, hx⟩
    · exact ⟨o, hobject, hcall⟩
    · exact ⟨x, hx, hcall⟩
  have hnone : NoObject objects call → NoObject (objects.set id { o with stage }) call := by
    intro hnone k x hx hcall
    obtain ⟨y, hy, hycall⟩ := hcreator k x hx hcall
    exact hnone k y hy hycall
  have howns : ∀ k, Owns objects call k → Owns (objects.set id { o with stage }) call k := by
    rintro k ⟨⟨x, hx, hxcreator, hxstage⟩, hunique⟩
    refine ⟨⟨x, (getElem?_restage hobject stage).mpr (Or.inr ⟨?_, hx⟩), hxcreator, hxstage⟩,
      fun l y hy hycall => ?_⟩
    · rintro rfl
      rw [hobject] at hx
      cases hx
      exact hallocated hxstage hxcreator
    · obtain ⟨z, hz, hzcall⟩ := hcreator l y hy hycall
      exact hunique l z hz hzcall
  cases phase with
  | building => exact hnone h
  | making => exact hnone h
  | publishing => exact howns _ h
  | discarding => exact howns _ h
  | created out result =>
    cases result with
    | ok => trivial
    | error =>
      refine ⟨h.1, fun k x hx hcall => ?_⟩
      rcases (getElem?_restage hobject stage).mp hx with ⟨rfl, rfl⟩ | ⟨-, hx⟩
      · exact absurd (h.2 k o hobject hcall) hdiscarded
      · exact h.2 k x hx hcall
  | deleting =>
    obtain ⟨k, x, hx, haddress, hxstage⟩ := h
    refine ⟨k, x, (getElem?_restage hobject stage).mpr (Or.inr ⟨?_, hx⟩), haddress, hxstage⟩
    rintro rfl
    rw [hobject] at hx
    cases hx
    exact hwithdrawn hxstage
  | _ => trivial

/-- An object that another call makes changes nothing for this one. -/
theorem PhaseInv.allocate {phase : CallPhase} (h : PhaseInv objects call phase)
    {new : HandleObject} (hnew : new.creator ≠ call) : PhaseInv (objects ++ [new]) call phase := by
  have hold : ∀ (k : ℕ) (x : HandleObject), (objects ++ [new])[k]? = some x → x.creator = call →
      objects[k]? = some x := by
    intro k x hx hcall
    rw [List.getElem?_append] at hx
    split at hx
    · exact hx
    · obtain rfl := List.mem_singleton.mp (List.mem_of_getElem? hx)
      exact absurd hcall hnew
  have hkeep : ∀ {k : ℕ} {x : HandleObject}, objects[k]? = some x →
      (objects ++ [new])[k]? = some x := by
    intro k x hx
    rw [List.getElem?_append_left (List.getElem?_eq_some_iff.mp hx).1, hx]
  have hnone : NoObject objects call → NoObject (objects ++ [new]) call :=
    fun hnone k x hx hcall => hnone k x (hold k x hx hcall) hcall
  have howns : ∀ k, Owns objects call k → Owns (objects ++ [new]) call k := by
    rintro k ⟨⟨x, hx, hrest⟩, hunique⟩
    exact ⟨⟨x, hkeep hx, hrest⟩, fun l y hy hcall => hunique l y (hold l y hy hcall) hcall⟩
  cases phase with
  | building => exact hnone h
  | making => exact hnone h
  | publishing => exact howns _ h
  | discarding => exact howns _ h
  | created out result =>
    cases result with
    | ok => trivial
    | error => exact ⟨h.1, fun k x hx hcall => h.2 k x (hold k x hx hcall) hcall⟩
  | deleting =>
    obtain ⟨k, x, hx, hrest⟩ := h
    exact ⟨k, x, hkeep hx, hrest⟩
  | _ => trivial

/-- **A call moves**, and the objects may change for the others too. -/
theorem CallInv.setCall (h : CallInv objects calls) {objects' : List HandleObject}
    {phase phase' : CallPhase} (hat : calls[call]? = some phase)
    (hphase : PhaseInv objects' call phase')
    (hothers : ∀ (other : ℕ) (x : CallPhase), other ≠ call → PhaseInv objects other x →
      PhaseInv objects' other x)
    (hcreators : ∀ (id : ℕ) (o : HandleObject), objects'[id]? = some o → o.creator < calls.length) :
    CallInv objects' (calls.set call phase') where
  phases other x hx := by
    rcases eq_or_ne other call with rfl | hne
    · rw [List.getElem?_set_self (List.getElem?_eq_some_iff.mp hat).1] at hx
      obtain rfl := Option.some.inj hx
      exact hphase
    · rw [List.getElem?_set_ne hne.symm] at hx
      exact hothers other x hne (h.phases other x hx)
  creators id o ho := by
    rw [List.length_set]
    exact hcreators id o ho

/-- A call arrives. -/
theorem CallInv.arrive (h : CallInv objects calls) {phase : CallPhase}
    (hphase : ∀ call, NoObject objects call → PhaseInv objects call phase) :
    CallInv objects (calls ++ [phase]) where
  phases call x hx := by
    rw [List.getElem?_append] at hx
    split at hx
    · exact h.phases call x hx
    · rename_i hnew
      obtain rfl := List.mem_singleton.mp (List.mem_of_getElem? hx)
      refine hphase call fun id o ho hcreator => ?_
      have := h.creators id o ho
      omega
  creators id o ho := by
    have := h.creators id o ho
    rw [List.length_append]
    omega

theorem CallInv.creators_restage (h : CallInv objects calls) (hobject : objects[id]? = some o)
    (stage : HandleStage) : ∀ (k : ℕ) (x : HandleObject),
      (objects.set id { o with stage })[k]? = some x → x.creator < calls.length := by
  intro k x hx
  rcases (getElem?_restage hobject stage).mp hx with ⟨rfl, rfl⟩ | ⟨-, hx⟩
  · exact h.creators k o hobject
  · exact h.creators k x hx

end Calls

/-! ## The shares of a pipeline -/

/-- The share of a pipeline an object holds. -/
def sharedBy (o : HandleObject) : Option ℕ := if o.stage.isAllocated then o.pipeline else none

/-- The shares of a pipeline. -/
def shares (objects : List HandleObject) (calls : List CallPhase) (pipeline : ℕ) : ℕ :=
  objects.countP (fun o => sharedBy o == some pipeline) +
    calls.countP fun phase => phase.pipeline? == some pipeline

/-- **A use count is the number of shares**, and every share is of a pipeline that was built. -/
structure OwnerInv (owners : List ℕ) (objects : List HandleObject) (calls : List CallPhase) :
    Prop where
  counted : ∀ (p n : ℕ), owners[p]? = some n → n = shares objects calls p
  built : ∀ p, shares objects calls p ≠ 0 → p < owners.length

theorem getElem?_release (share : Option ℕ) (owners : List ℕ) (p : ℕ) :
    (release share owners)[p]? = (owners[p]?).map (· - (share == some p).toNat) := by
  cases share with
  | none => simp [release]
  | some q =>
    simp only [release, List.getElem?_modify]
    by_cases h : q = p
    · subst h
      cases owners[q]? <;> simp
    · have hbeq : (q == p) = false := beq_false_of_ne h
      cases owners[p]? <;> simp [h, hbeq]

theorem getElem?_retain (share : Option ℕ) (owners : List ℕ) (p : ℕ) :
    (retain share owners)[p]? = (owners[p]?).map (· + (share == some p).toNat) := by
  cases share with
  | none => simp [retain]
  | some q =>
    simp only [retain, List.getElem?_modify]
    by_cases h : q = p
    · subst h
      cases owners[q]? <;> simp
    · cases owners[p]? <;> simp [h]

theorem length_release (share : Option ℕ) (owners : List ℕ) :
    (release share owners).length = owners.length := by
  cases share with
  | none => rfl
  | some q => exact List.length_modify _ _ _

theorem length_retain (share : Option ℕ) (owners : List ℕ) :
    (retain share owners).length = owners.length := by
  cases share with
  | none => rfl
  | some q => exact List.length_modify _ _ _

section Owners

variable {owners : List ℕ} {objects objects' : List HandleObject} {calls calls' : List CallPhase}

/-- **A share ends.** -/
theorem OwnerInv.release (h : OwnerInv owners objects calls) (share : Option ℕ)
    (hshares : ∀ p, shares objects' calls' p + (share == some p).toNat = shares objects calls p) :
    OwnerInv (EngineApi.release share owners) objects' calls' where
  counted p n hn := by
    rw [getElem?_release] at hn
    obtain ⟨m, hm, rfl⟩ := Option.map_eq_some_iff.mp hn
    have := h.counted p m hm
    have := hshares p
    omega
  built p hp := by
    have := hshares p
    rw [length_release]
    exact h.built p (by omega)

/-- A share is copied. -/
theorem OwnerInv.retain (h : OwnerInv owners objects calls) (share : Option ℕ)
    (hshares : ∀ p, shares objects' calls' p = shares objects calls p + (share == some p).toNat)
    (hshare : ∀ p, share = some p → p < owners.length) :
    OwnerInv (EngineApi.retain share owners) objects' calls' where
  counted p n hn := by
    rw [getElem?_retain] at hn
    obtain ⟨m, hm, rfl⟩ := Option.map_eq_some_iff.mp hn
    have := h.counted p m hm
    have := hshares p
    omega
  built p hp := by
    rw [length_retain]
    rw [hshares] at hp
    cases hbeq : share == some p with
    | false =>
      rw [hbeq] at hp
      exact h.built p hp
    | true => exact hshare p (eq_of_beq hbeq)

/-- A pipeline is built, with one share. -/
theorem OwnerInv.build (h : OwnerInv owners objects calls)
    (hshares : ∀ p, shares objects' calls' p =
      shares objects calls p + (some owners.length == some p).toNat) :
    OwnerInv (owners ++ [1]) objects' calls' where
  counted p n hn := by
    rw [hshares]
    have hlt : p < owners.length + 1 := by simpa using (List.getElem?_eq_some_iff.mp hn).1
    rcases Nat.lt_succ_iff_lt_or_eq.mp hlt with hlt | rfl
    · rw [List.getElem?_append_left hlt] at hn
      have hne : (some owners.length == some p) = false := by simpa using hlt.ne'
      rw [hne, h.counted p n hn]
      rfl
    · have hnone : shares objects calls owners.length = 0 := by
        by_contra hne
        exact absurd (h.built _ hne) (Nat.lt_irrefl _)
      rw [List.getElem?_concat_length] at hn
      rw [hnone, beq_self_eq_true]
      exact (Option.some.inj hn).symm
  built p hp := by
    rw [hshares] at hp
    rw [List.length_append, List.length_singleton]
    rcases eq_or_ne owners.length p with rfl | hne
    · exact Nat.lt_succ_self _
    · have hbeq : (some owners.length == some p) = false := by simpa using hne
      rw [hbeq] at hp
      exact Nat.lt_succ_of_lt (h.built p hp)

/-- Shares only change hands. -/
theorem OwnerInv.move (h : OwnerInv owners objects calls)
    (hshares : ∀ p, shares objects' calls' p = shares objects calls p) :
    OwnerInv owners objects' calls' :=
  h.release none hshares

theorem shares_setCall (objects : List HandleObject) {call : ℕ} {phase : CallPhase}
    (hat : calls[call]? = some phase) (phase' : CallPhase) (p : ℕ) :
    shares objects (calls.set call phase') p + (phase.pipeline? == some p).toNat =
      shares objects calls p + (phase'.pipeline? == some p).toNat := by
  have hcount := countP_set_add hat phase' fun phase => phase.pipeline? == some p
  simp only [shares]
  omega

theorem shares_restage (calls : List CallPhase) {id : ℕ} {o : HandleObject}
    (hobject : objects[id]? = some o) (stage : HandleStage) (p : ℕ) :
    shares (objects.set id { o with stage }) calls p + (sharedBy o == some p).toNat =
      shares objects calls p + (sharedBy { o with stage } == some p).toNat := by
  have hcount := countP_set_add hobject { o with stage } fun o => sharedBy o == some p
  simp only [shares]
  omega

/-- An object that stays allocated keeps its share, and the call that moves it keeps its own. -/
theorem OwnerInv.restage (h : OwnerInv owners objects calls) {call id : ℕ} {before : CallPhase}
    {o : HandleObject} (hat : calls[call]? = some before) (after : CallPhase)
    (hshare : after.pipeline? = before.pipeline?) (hobject : objects[id]? = some o)
    (stage : HandleStage) (hstage : stage.isAllocated = o.stage.isAllocated) :
    OwnerInv owners (objects.set id { o with stage }) (calls.set call after) :=
  h.move fun p => by
    have hcall := shares_setCall (objects.set id { o with stage }) hat after p
    have hcount := shares_restage calls hobject stage p
    have hshared : sharedBy { o with stage } = sharedBy o := by simp only [sharedBy, hstage]
    rw [hshared] at hcount
    rw [hshare] at hcall
    omega

/-- Somebody who holds a share keeps the pipeline. -/
theorem OwnerInv.pos_of_call (h : OwnerInv owners objects calls) {call p : ℕ} {phase : CallPhase}
    (hat : calls[call]? = some phase) (hphase : phase.pipeline? = some p) :
    ∃ n, owners[p]? = some n ∧ 0 < n := by
  have hshares : 0 < shares objects calls p := by
    have hpos : 0 < calls.countP fun phase => phase.pipeline? == some p :=
      List.countP_pos_iff.mpr ⟨phase, List.mem_of_getElem? hat,
        by rw [hphase]; exact beq_self_eq_true _⟩
    exact Nat.lt_of_lt_of_le hpos (Nat.le_add_left _ _)
  have hlt := h.built p (Nat.pos_iff_ne_zero.mp hshares)
  exact ⟨owners[p], List.getElem?_eq_getElem hlt,
    (h.counted p _ (List.getElem?_eq_getElem hlt)).symm ▸ hshares⟩

theorem OwnerInv.built_of_object (h : OwnerInv owners objects calls) {id p : ℕ} {o : HandleObject}
    (hobject : objects[id]? = some o) (hshare : sharedBy o = some p) : p < owners.length := by
  have hpos : 0 < objects.countP fun o => sharedBy o == some p :=
    List.countP_pos_iff.mpr ⟨o, List.mem_of_getElem? hobject,
      by rw [hshare]; exact beq_self_eq_true _⟩
  refine h.built p ?_
  simp only [shares]
  omega

end Owners

/-! ## Every step -/

/-- **The invariant of the handles.** -/
structure Inv (api : EngineApi) : Prop where
  heap : HeapInv api.heap api.registry api.objects api.freed
  calls : CallInv api.objects api.calls
  owners : OwnerInv api.owners api.objects api.calls
  faults : api.faults = []

theorem inv_initial : Inv initial where
  heap := ⟨fun _ _ => by simp [initial], fun _ => by simp [initial], List.nodup_nil, nofun⟩
  calls := ⟨fun _ _ h => by simp [initial] at h, fun _ _ h => by simp [initial] at h⟩
  owners := ⟨fun _ _ h => by simp [initial] at h, fun _ h => absurd rfl h⟩
  faults := rfl

section Steps

variable {api : EngineApi} {call id : ℕ} {o : HandleObject}

theorem setStage_eq (api : EngineApi) (hobject : api.objects[id]? = some o) (stage : HandleStage) :
    setStage id stage api = { api with objects := api.objects.set id { o with stage } } := by
  rw [setStage, hobject]

theorem deleteAt_eq (hobject : api.objects[id]? = some o) (hheap : api.heap o.address = some id)
    (stage : HandleStage) :
    deleteAt o.address stage api = { api with
      heap := Function.update api.heap o.address none
      objects := api.objects.set id { o with stage }
      owners := release o.pipeline api.owners
      freed := api.freed ++ [id] } := by
  simp only [deleteAt, hheap, setStage, hobject]
  rfl

/-- A call arrives with no share and no object. -/
theorem Inv.arrive (h : Inv api) {phase : CallPhase} (hshare : phase.pipeline? = none)
    (hphase : ∀ call, NoObject api.objects call → PhaseInv api.objects call phase) :
    Inv { api with calls := api.calls ++ [phase] } where
  heap := h.heap
  calls := h.calls.arrive hphase
  owners := h.owners.move fun p => by
    simp only [shares, List.countP_append, List.countP_singleton, hshare]
    rfl
  faults := h.faults

/-- **A call goes on**, and gives up the share it had if it has none afterwards. -/
theorem Inv.setCall (h : Inv api) {phase phase' : CallPhase} (hat : api.calls[call]? = some phase)
    (hphase : PhaseInv api.objects call phase') (share : Option ℕ)
    (hshare : ∀ p, (phase'.pipeline? == some p).toNat + (share == some p).toNat =
      (phase.pipeline? == some p).toNat) :
    Inv (setCall call phase' { api with owners := release share api.owners }) where
  heap := h.heap
  calls := h.calls.setCall hat hphase (fun _ _ _ hother => hother) h.calls.creators
  owners := h.owners.release share fun p => by
    have hcount := shares_setCall api.objects hat phase' p
    have := hshare p
    change shares api.objects (api.calls.set call phase') p + _ = _
    omega
  faults := h.faults

/-- **An object is freed** by the one call that has it. -/
theorem Inv.free (h : Inv api) {before after : CallPhase} (hat : api.calls[call]? = some before)
    (hbefore : before.pipeline? = none) (hafter : after.pipeline? = none)
    (hobject : api.objects[id]? = some o) (hstage : o.stage.isAllocated = true)
    (hunpublished : o.stage ≠ .published) {stage : HandleStage} (hnext : stage.isAllocated = false)
    (hphase : PhaseInv (api.objects.set id { o with stage }) call after)
    (hallocated : ∀ other, other ≠ call → o.stage = .allocated → o.creator ≠ other)
    (hwithdrawn : ∀ other, other ≠ call → o.stage ≠ .withdrawn other) :
    Inv (EngineApi.setCall call after (deleteAt o.address stage api)) := by
  have hheap : api.heap o.address = some id := (h.heap.held _ _).mpr ⟨o, hobject, rfl, hstage⟩
  have hdiscarded : o.stage ≠ .discarded := by
    intro hdiscarded
    rw [hdiscarded] at hstage
    cases hstage
  rw [deleteAt_eq hobject hheap]
  exact {
    heap := h.heap.free hobject hstage hunpublished hnext
    calls := h.calls.setCall hat hphase
      (fun other _ hne hother => hother.restage hobject (hallocated other hne)
        (hwithdrawn other hne) hdiscarded stage) (h.calls.creators_restage hobject stage)
    owners := h.owners.release o.pipeline fun p => by
      have hcall := shares_setCall (api.objects.set id { o with stage }) hat after p
      have hcount := shares_restage api.calls hobject stage p
      rw [hbefore, hafter] at hcall
      simp only [sharedBy, hstage, hnext, if_true, Bool.false_eq_true, if_false] at hcount
      have hnone : ((none : Option ℕ) == some p).toNat = 0 := rfl
      change shares (api.objects.set id { o with stage }) (api.calls.set call after) p + _ = _
      omega
    faults := h.faults }

theorem inv_enterCreate (h : Inv api) (function : CreateFunction) (config : Option EngineConfigV1)
    (out : Option (Option Address)) :
    Inv { api with calls := api.calls ++ [enterCreate function config out] } := by
  have hspec : (enterCreate function config out).pipeline? = none ∧
      ∀ call, NoObject api.objects call →
        PhaseInv api.objects call (enterCreate function config out) := by
    unfold enterCreate
    cases out with
    | none => exact ⟨rfl, fun call hnone => ⟨nofun, fun id o ho hcreator =>
        absurd hcreator (hnone id o ho)⟩⟩
    | some v =>
      cases function.validate config with
      | error error => exact ⟨rfl, fun call hnone => phaseInv_created _ hnone⟩
      | ok u =>
        cases function with
        | createV1 => exact ⟨rfl, fun call hnone => hnone⟩
        | createFromContractV1 => exact ⟨rfl, fun call hnone => hnone⟩
  exact h.arrive hspec.1 hspec.2

theorem inv_enterDestroy (h : Inv api) (pointer : Option (Option Address)) :
    Inv { api with calls := api.calls ++ [enterDestroy pointer] } := by
  have hspec : (enterDestroy pointer).pipeline? = none ∧
      ∀ call, PhaseInv api.objects call (enterDestroy pointer) := by
    unfold enterDestroy
    split <;> exact ⟨rfl, fun _ => trivial⟩
  exact h.arrive hspec.1 fun call _ => hspec.2 call

theorem inv_enterRecognize (h : Inv api) (handle : Option Address) (image : Option ImageViewV1)
    (requiredIsNull : Bool) :
    Inv { api with calls := api.calls ++ [enterRecognize handle image requiredIsNull] } := by
  have hspec : (enterRecognize handle image requiredIsNull).pipeline? = none ∧
      ∀ call, PhaseInv api.objects call (enterRecognize handle image requiredIsNull) := by
    unfold enterRecognize
    split <;> exact ⟨rfl, fun _ => trivial⟩
  exact h.arrive hspec.1 fun call _ => hspec.2 call

/-- **A pipeline is built**, with the one share of the call. -/
theorem inv_built (h : Inv api) (hat : api.calls[call]? = some .building) :
    Inv (setCall call (.making (some api.owners.length))
      { api with owners := api.owners ++ [1] }) where
  heap := h.heap
  calls := by
    have hnone : NoObject api.objects call := h.calls.phases call _ hat
    exact h.calls.setCall hat hnone (fun _ _ _ hother => hother) h.calls.creators
  owners := h.owners.build fun p => by
    have hcount := shares_setCall api.objects hat (.making (some api.owners.length)) p
    exact hcount
  faults := h.faults

/-- **An object is made**, and takes the share of the call. -/
theorem inv_allocated (h : Inv api) {pipeline : Option ℕ}
    (hat : api.calls[call]? = some (.making pipeline)) {address : Address}
    (hfree : api.heap address = none) :
    Inv (setCall call (.publishing api.objects.length) { api with
      heap := Function.update api.heap address (some api.objects.length)
      objects := api.objects ++ [⟨address, pipeline, call, .allocated⟩] }) where
  heap := h.heap.allocate hfree pipeline call
  calls := by
    have hnone : NoObject api.objects call := h.calls.phases call _ hat
    have hlast : (api.objects ++ [⟨address, pipeline, call, .allocated⟩])[api.objects.length]? =
        some ⟨address, pipeline, call, .allocated⟩ := List.getElem?_concat_length
    have hcases : ∀ (k : ℕ) (x : HandleObject),
        (api.objects ++ [⟨address, pipeline, call, .allocated⟩])[k]? = some x →
          api.objects[k]? = some x ∨ k = api.objects.length ∧ x.creator = call := by
      intro k x hx
      rw [List.getElem?_append] at hx
      split at hx
      · exact Or.inl hx
      · have hlt := (List.getElem?_eq_some_iff.mp hx).1
        rw [List.length_singleton] at hlt
        obtain rfl := List.mem_singleton.mp (List.mem_of_getElem? hx)
        exact Or.inr ⟨by omega, rfl⟩
    have howns : Owns (api.objects ++ [⟨address, pipeline, call, .allocated⟩]) call
        api.objects.length := by
      refine ⟨⟨_, hlast, rfl, rfl⟩, fun k x hx hcreator => ?_⟩
      rcases hcases k x hx with hx | ⟨hk, -⟩
      · exact absurd hcreator (hnone k x hx)
      · exact hk
    refine h.calls.setCall hat howns (fun other x hne hother => hother.allocate hne.symm) ?_
    intro k x hx
    rcases hcases k x hx with hx | ⟨-, hcreator⟩
    · exact h.calls.creators k x hx
    · rw [hcreator]
      exact (List.getElem?_eq_some_iff.mp hat).1
  owners := h.owners.move fun p => by
    have hcount := shares_setCall
      (api.objects ++ [⟨address, pipeline, call, .allocated⟩]) hat
      (.publishing api.objects.length) p
    have hpublishing : ((CallPhase.publishing api.objects.length).pipeline? == some p).toNat = 0 :=
      rfl
    have hobjects : shares (api.objects ++ [⟨address, pipeline, call, .allocated⟩]) api.calls p =
        shares api.objects api.calls p + (pipeline == some p).toNat := by
      simp only [shares, List.countP_append, List.countP_singleton, sharedBy,
        HandleStage.isAllocated, if_true]
      cases pipeline == some p <;> simp [Nat.add_right_comm]
    change shares (api.objects ++ _) (api.calls.set call _) p = _
    change _ + (pipeline == some p).toNat = _ at hcount
    omega
  faults := h.faults

/-- **An object is published** by the call that made it. -/
theorem inv_published (h : Inv api) (hat : api.calls[call]? = some (.publishing id))
    (hobject : api.objects[id]? = some o) :
    Inv (setCall call (.releasing id) (setStage id .published
      { api with registry := List.insert o.address api.registry })) := by
  obtain ⟨⟨x, hx, hcreator, hstage⟩, -⟩ : Owns api.objects call id := h.calls.phases call _ hat
  obtain rfl : o = x := Option.some.inj (hobject.symm.trans hx)
  rw [setStage_eq { api with registry := List.insert o.address api.registry } hobject]
  exact {
    heap := h.heap.publish hobject hstage
    calls := h.calls.setCall hat trivial
      (fun other x hne hother => hother.restage hobject
        (fun _ hother => hne (hother.symm.trans hcreator)) (by rw [hstage]; nofun)
        (by rw [hstage]; nofun) _)
      (h.calls.creators_restage hobject _)
    owners := h.owners.restage hat (.releasing id) rfl hobject .published (by rw [hstage]; rfl)
    faults := h.faults }

/-- An object that could not be published is freed by the call that made it. -/
theorem inv_discarded (h : Inv api) (hat : api.calls[call]? = some (.discarding id))
    (hobject : api.objects[id]? = some o) :
    Inv (setCall call (.created (some none) (.error .badAlloc))
      (deleteAt o.address .discarded api)) := by
  obtain ⟨⟨x, hx, hcreator, hstage⟩, hunique⟩ : Owns api.objects call id :=
    h.calls.phases call _ hat
  obtain rfl : o = x := Option.some.inj (hobject.symm.trans hx)
  refine h.free hat rfl rfl hobject (hstage ▸ rfl) (by rw [hstage]; nofun) rfl
    ⟨fun v hv => (Option.some.inj hv).symm, fun k y hy hycreator => ?_⟩
    (fun other hne _ hother => hne (hother.symm.trans hcreator)) (fun _ _ => by rw [hstage]; nofun)
  rcases (getElem?_restage hobject .discarded).mp hy with ⟨-, rfl⟩ | ⟨hne, hy⟩
  · rfl
  · exact absurd (hunique k y hy hycreator) hne

/-- An object is freed by the call that withdrew it. -/
theorem inv_deleted (h : Inv api) {handle : Address}
    (hat : api.calls[call]? = some (.deleting handle)) :
    Inv (setCall call (.destroyed (some none)) (deleteAt handle .deleted api)) := by
  obtain ⟨id, o, hobject, rfl, hstage⟩ := h.calls.phases call _ hat
  refine h.free hat rfl rfl hobject (hstage ▸ rfl) (by rw [hstage]; nofun) rfl trivial
    (fun _ _ hallocated => nomatch hstage.symm.trans hallocated) fun other hne hother => hne ?_
  exact (HandleStage.withdrawn.inj (hstage.symm.trans hother)).symm

/-- **The critical section of a destruction** withdraws the object at the address, if there is
one. -/
theorem inv_erased (h : Inv api) {handle : Address}
    (hat : api.calls[call]? = some (.erasing handle)) : Inv (eraseHandle call handle api) := by
  unfold eraseHandle
  split
  · rename_i hlive
    obtain ⟨id, o, hobject, rfl, hstage⟩ := (h.heap.live handle).mp hlive
    have hheap : api.heap o.address = some id :=
      (h.heap.held _ _).mpr ⟨o, hobject, rfl, hstage ▸ rfl⟩
    simp only [hheap]
    rw [setStage_eq { api with registry := api.registry.filter (· ≠ o.address) } hobject]
    exact {
      heap := h.heap.withdraw hobject hstage call
      calls := h.calls.setCall hat
        ⟨id, _, (getElem?_restage hobject _).mpr (Or.inl ⟨rfl, rfl⟩), rfl, rfl⟩
        (fun other x hne hother => hother.restage hobject
          (fun hallocated => nomatch hstage.symm.trans hallocated) (by rw [hstage]; nofun)
          (by rw [hstage]; nofun) _)
        (h.calls.creators_restage hobject _)
      owners := h.owners.restage hat (.deleting o.address) rfl hobject (.withdrawn call)
        (by rw [hstage]; rfl)
      faults := h.faults }
  · have hphase : PhaseInv api.objects call (.destroyed (some none)) := trivial
    exact h.setCall hat hphase none fun _ => rfl

/-- **The critical section of a recognition** reads an object that is there, and takes a share of
its pipeline. -/
theorem inv_resolved (h : Inv api) {handle : Option Address} {image : Option ImageViewV1}
    (hat : api.calls[call]? = some (.resolving handle image)) :
    Inv (resolveHandle call handle image api) := by
  have hrefused : PhaseInv api.objects call (.recognized (.error invalidHandle)) := trivial
  cases handle with
  | none => exact h.setCall hat hrefused none fun _ => rfl
  | some address =>
    by_cases hlive : address ∈ api.registry
    · obtain ⟨id, o, hobject, rfl, hstage⟩ := (h.heap.live address).mp hlive
      have hallocated : o.stage.isAllocated = true := hstage ▸ rfl
      have hheap : api.heap o.address = some id :=
        (h.heap.held _ _).mpr ⟨o, hobject, rfl, hallocated⟩
      have hread : (api.heap o.address).bind (api.objects[·]?) = some o := by
        rw [hheap]
        exact hobject
      have hshared : sharedBy o = o.pipeline := by rw [sharedBy, if_pos hallocated]
      simp only [resolveHandle, if_pos hlive, hread]
      exact {
        heap := h.heap
        calls := h.calls.setCall hat trivial (fun _ _ _ hother => hother) h.calls.creators
        owners := h.owners.retain o.pipeline
          (fun p => by
            have hcall := shares_setCall api.objects hat (.resolved o.pipeline image) p
            exact hcall)
          fun p hp => h.owners.built_of_object hobject (hshared.trans hp)
        faults := h.faults }
    · simp only [resolveHandle, if_neg hlive]
      exact h.setCall hat hrefused none fun _ => rfl

theorem inv_validated (h : Inv api) {pipeline : Option ℕ} {image : Option ImageViewV1}
    (hat : api.calls[call]? = some (.resolved pipeline image)) :
    Inv (validateCall call pipeline image api) := by
  unfold validateCall
  split
  · rename_i error _
    have hphase : PhaseInv api.objects call (.recognized (.error (.engine error))) := trivial
    exact h.setCall hat hphase pipeline fun p => Nat.zero_add _
  · rename_i view _
    cases pipeline with
    | none =>
      have hphase : PhaseInv api.objects call (.recognized (.error (.engine
        (configurationError "C ABI engine handle has no configured pipeline")))) := trivial
      exact h.setCall hat hphase none fun _ => rfl
    | some p =>
      have hphase : PhaseInv api.objects call (.running p view) := trivial
      exact h.setCall hat hphase none fun _ => rfl

/-- **A recognition ends** with a pipeline that is still there. -/
theorem inv_finished (h : Inv api) {p : ℕ} {image : ImageView}
    (hat : api.calls[call]? = some (.running p image))
    (outcome : Except ApiException FacLprStatus) : Inv (finishCall call p outcome api) := by
  obtain ⟨n, hn, hpos⟩ := h.owners.pos_of_call hat rfl
  have hkept : ¬ api.owners[p]?.getD 0 = 0 := by
    rw [hn, Option.getD_some]
    omega
  have hphase : PhaseInv api.objects call (.recognized outcome) := trivial
  unfold finishCall
  simp only [if_neg hkept]
  exact h.setCall hat hphase (some p) fun q => Nat.zero_add _

/-- **Every step preserves the invariant.** -/
theorem inv_step {api' : EngineApi} {action : Action} (h : Inv api)
    (hstep : step api action = some api') : Inv api' := by
  cases step_cases hstep with
  | callCreate function config out => exact inv_enterCreate h function config out
  | callDestroy pointer => exact inv_enterDestroy h pointer
  | callRecognize handle image requiredIsNull => exact inv_enterRecognize h handle image _
  | @buildFailed call e hat =>
    have hnone : NoObject api.objects call := h.calls.phases call _ hat
    exact h.setCall hat (phaseInv_created e hnone) none fun _ => rfl
  | built hat => exact inv_built h hat
  | @allocateFailed call pipeline hat =>
    have hnone : NoObject api.objects call := h.calls.phases call _ hat
    exact h.setCall hat (phaseInv_created _ hnone) pipeline fun p => Nat.zero_add _
  | allocated hat hfree => exact inv_allocated h hat hfree
  | published hat hobject => exact inv_published h hat hobject
  | @publishFailed call id hat =>
    have howns : Owns api.objects call id := h.calls.phases call _ hat
    have hphase : PhaseInv api.objects call (.discarding id) := howns
    exact h.setCall hat hphase none fun _ => rfl
  | discarded hat hobject => exact inv_discarded h hat hobject
  | @released call id o hat hobject =>
    have hphase : PhaseInv api.objects call (.created (some (some o.address)) (.ok .ok)) := trivial
    exact h.setCall hat hphase none fun _ => rfl
  | erased hat => exact inv_erased h hat
  | deleted hat => exact inv_deleted h hat
  | resolved hat => exact inv_resolved h hat
  | validated hat => exact inv_validated h hat
  | finished outcome hat => exact inv_finished h hat outcome

end Steps

/-- **Every state a run reaches keeps the invariant.** -/
theorem inv_run {actions : List Action} {api : EngineApi}
    (h : runSteps step initial actions = some api) : Inv api :=
  runSteps_invariant (fun _ _ _ hinv hstep => inv_step hinv hstep) inv_initial h

/-! ## Who changes the registry -/

/-- The call a step is part of; a call that arrives has no number yet. -/
def Action.call? : Action → Option ℕ
  | .callCreate _ _ _ => none
  | .build call _ => some call
  | .allocate call _ => some call
  | .publish call _ => some call
  | .discard call => some call
  | .releaseOut call => some call
  | .callDestroy _ => none
  | .erase call => some call
  | .delete call => some call
  | .callRecognize _ _ _ => none
  | .resolve call => some call
  | .validate call => some call
  | .finish call _ => some call

/-- The call may have changed the registry. -/
def MayHaveChanged : CallPhase → Prop
  | .releasing _ => True
  | .created _ (.ok _) => True
  | .deleting _ => True
  | .destroyed _ => True
  | _ => False

@[simp] theorem setStage_registry (id : ℕ) (stage : HandleStage) (api : EngineApi) :
    (setStage id stage api).registry = api.registry := by
  unfold setStage
  split <;> rfl

@[simp] theorem deleteAt_registry (handle : Address) (stage : HandleStage) (api : EngineApi) :
    (deleteAt handle stage api).registry = api.registry := by
  unfold deleteAt
  split
  · rfl
  · exact setStage_registry _ _ _

@[simp] theorem setCall_calls (call : ℕ) (phase : CallPhase) (api : EngineApi) :
    (setCall call phase api).calls = api.calls.set call phase := rfl

@[simp] theorem setCall_registry (call : ℕ) (phase : CallPhase) (api : EngineApi) :
    (setCall call phase api).registry = api.registry := rfl

/-- One call moves, and is one that may have changed the registry if the registry changes. -/
def Moves (call : ℕ) (api api' : EngineApi) : Prop :=
  ∃ phase phase' : CallPhase, api.calls[call]? = some phase ∧
    api'.calls = api.calls.set call phase' ∧ (MayHaveChanged phase → MayHaveChanged phase') ∧
      (api'.registry ≠ api.registry → MayHaveChanged phase')

section Moves

variable {api api' : EngineApi} {call : ℕ} {phase : CallPhase}

/-- A call that goes on and leaves the registry alone. -/
theorem moves_setCall (hat : api.calls[call]? = some phase) {phase' : CallPhase}
    (hcalls : api'.calls = api.calls) (hregistry : api'.registry = api.registry)
    (hchanged : MayHaveChanged phase → MayHaveChanged phase') :
    Moves call api (setCall call phase' api') :=
  ⟨phase, phase', hat, by rw [setCall_calls, hcalls], hchanged, fun hne => absurd hregistry hne⟩

/-- A call that may now have changed the registry. -/
theorem moves_changed (hat : api.calls[call]? = some phase) {phase' : CallPhase}
    (hcalls : api'.calls = api.calls) (hchanged : MayHaveChanged phase') :
    Moves call api (setCall call phase' api') :=
  ⟨phase, phase', hat, by rw [setCall_calls, hcalls], fun _ => hchanged, fun _ => hchanged⟩

theorem moves_eraseHandle {handle : Address} (hat : api.calls[call]? = some (.erasing handle)) :
    Moves call api (eraseHandle call handle api) := by
  unfold eraseHandle
  split
  · split
    · exact moves_changed hat rfl trivial
    · exact moves_changed hat (setStage_calls _ _ _) trivial
  · exact moves_changed hat rfl trivial

theorem moves_resolveHandle {handle : Option Address} {image : Option ImageViewV1}
    (hat : api.calls[call]? = some (.resolving handle image)) :
    Moves call api (resolveHandle call handle image api) := by
  cases handle with
  | none => exact moves_setCall hat rfl rfl False.elim
  | some address =>
    simp only [resolveHandle]
    split
    · split
      · exact moves_setCall hat rfl rfl False.elim
      · exact moves_setCall hat rfl rfl False.elim
    · exact moves_setCall hat rfl rfl False.elim

theorem moves_validateCall {pipeline : Option ℕ} {image : Option ImageViewV1}
    (hat : api.calls[call]? = some (.resolved pipeline image)) :
    Moves call api (validateCall call pipeline image api) := by
  unfold validateCall
  split
  · exact moves_setCall hat rfl rfl False.elim
  · split
    · exact moves_setCall hat rfl rfl False.elim
    · exact moves_setCall hat rfl rfl False.elim

/-- **A step of a call moves that call.** -/
theorem step_moves {action : Action} (hstep : step api action = some api')
    (hcall : action.call? = some call) : Moves call api api' := by
  cases step_cases hstep with
  | callCreate => cases hcall
  | callDestroy => cases hcall
  | callRecognize => cases hcall
  | buildFailed e hat => cases hcall; exact moves_setCall hat rfl rfl False.elim
  | built hat => cases hcall; exact moves_setCall hat rfl rfl False.elim
  | allocateFailed hat => cases hcall; exact moves_setCall hat rfl rfl False.elim
  | allocated hat => cases hcall; exact moves_setCall hat rfl rfl False.elim
  | published hat => cases hcall; exact moves_changed hat (setStage_calls _ _ _) trivial
  | publishFailed hat => cases hcall; exact moves_setCall hat rfl rfl False.elim
  | discarded hat =>
    cases hcall
    exact moves_setCall hat (deleteAt_calls _ _ _) (deleteAt_registry _ _ _) False.elim
  | released hat => cases hcall; exact moves_changed hat rfl trivial
  | erased hat => cases hcall; exact moves_eraseHandle hat
  | deleted hat => cases hcall; exact moves_changed hat (deleteAt_calls _ _ _) trivial
  | resolved hat => cases hcall; exact moves_resolveHandle hat
  | validated hat => cases hcall; exact moves_validateCall hat
  | finished outcome hat => cases hcall; exact moves_setCall hat rfl rfl False.elim

theorem step_arrives {action : Action} (hstep : step api action = some api')
    (hcall : action.call? = none) : ∃ phase, api'.calls = api.calls ++ [phase] := by
  cases step_cases hstep with
  | callCreate => exact ⟨_, rfl⟩
  | callDestroy => exact ⟨_, rfl⟩
  | callRecognize => exact ⟨_, rfl⟩
  | _ => cases hcall

/-- **A call that may have changed the registry stays one.** -/
theorem mayHaveChanged_step {action : Action} (hstep : step api action = some api')
    (h : ∃ phase, api.calls[call]? = some phase ∧ MayHaveChanged phase) :
    ∃ phase, api'.calls[call]? = some phase ∧ MayHaveChanged phase := by
  obtain ⟨phase, hat, hchanged⟩ := h
  have hlt := (List.getElem?_eq_some_iff.mp hat).1
  cases hcall : action.call? with
  | none =>
    obtain ⟨new, hcalls⟩ := step_arrives hstep hcall
    exact ⟨phase, by rw [hcalls, List.getElem?_append_left hlt, hat], hchanged⟩
  | some other =>
    obtain ⟨before, after, hbefore, hcalls, hmoved, -⟩ := step_moves hstep hcall
    rw [hcalls]
    rcases eq_or_ne other call with rfl | hne
    · obtain rfl := Option.some.inj (hat.symm.trans hbefore)
      exact ⟨after, List.getElem?_set_self hlt, hmoved hchanged⟩
    · exact ⟨phase, by rw [List.getElem?_set_ne hne, hat], hchanged⟩

/-- **A call that fails has left the registry alone**, at each of its steps. -/
theorem registry_eq_of_failed {action : Action} {after : List Action} {last : EngineApi}
    (hstep : step api action = some api') (hcall : action.call? = some call)
    (hafter : runSteps step api' after = some last) {out : Option (Option Address)}
    {e : ApiException} (hfailed : last.calls[call]? = some (.created out (.error e))) :
    api'.registry = api.registry := by
  obtain ⟨phase, phase', hat, hcalls, -, hregistry⟩ := step_moves hstep hcall
  by_contra hne
  have hlt := (List.getElem?_eq_some_iff.mp hat).1
  have hchanged : ∃ phase, api'.calls[call]? = some phase ∧ MayHaveChanged phase :=
    ⟨phase', by rw [hcalls, List.getElem?_set_self hlt], hregistry hne⟩
  obtain ⟨x, hx, hxchanged⟩ :=
    runSteps_invariant (fun _ _ _ hinv hstep => mayHaveChanged_step hstep hinv) hchanged hafter
  obtain rfl := Option.some.inj (hfailed.symm.trans hx)
  exact hxchanged

end Moves

/-! ## The lifecycle -/

/-- **The lifecycle of a handle**, for every interleaving.  No object is freed twice and no memory
that is gone is touched; a call that has a share of a pipeline keeps it; the registry holds the
addresses of the objects that are published and on the heap; a create that fails leaves a null
handle and nothing else. -/
theorem handle_lifecycle {actions : List Action} {api : EngineApi}
    (h : runSteps step initial actions = some api) :
    (api.freed.Nodup ∧ api.faults = []) ∧
      (∀ (call p : ℕ) (phase : CallPhase), api.calls[call]? = some phase →
        phase.pipeline? = some p → ∃ n, api.owners[p]? = some n ∧ 0 < n) ∧
      (∀ a : Address, a ∈ api.registry ↔ ∃ (id : ℕ) (o : HandleObject),
        api.objects[id]? = some o ∧ o.address = a ∧ o.stage = .published ∧
          api.heap a = some id) ∧
      ∀ (call : ℕ) (v : Option Address) (e : ApiException),
        api.calls[call]? = some (.created (some v) (.error e)) → v = none ∧
          (∀ o ∈ api.objects, o.creator = call → o.stage = .discarded) ∧
          EveryStep step initial actions fun s action s' =>
            action.call? = some call → s'.registry = s.registry := by
  have hinv := inv_run h
  refine ⟨⟨hinv.heap.nodup, hinv.faults⟩, fun call p phase hat hp => hinv.owners.pos_of_call hat hp,
    fun a => ?_, fun call v e hfailed => ?_⟩
  · rw [hinv.heap.live]
    constructor
    · rintro ⟨id, o, hobject, haddress, hstage⟩
      exact ⟨id, o, hobject, haddress, hstage,
        (hinv.heap.held a id).mpr ⟨o, hobject, haddress, hstage ▸ rfl⟩⟩
    · rintro ⟨id, o, hobject, haddress, hstage, -⟩
      exact ⟨id, o, hobject, haddress, hstage⟩
  · obtain ⟨hout, hobjects⟩ : PhaseInv api.objects call (.created (some v) (.error e)) :=
      hinv.calls.phases call _ hfailed
    refine ⟨hout v rfl, fun o ho hcreator => ?_, ?_⟩
    · obtain ⟨id, hid⟩ := List.mem_iff_getElem?.mp ho
      exact hobjects id o hid hcreator
    · rintro before after action s s' rfl hbefore hstep hcall
      obtain ⟨t, ht, hrest⟩ := runSteps_append_eq_some.mp h
      obtain rfl := Option.some.inj (hbefore.symm.trans ht)
      obtain ⟨t', ht', hafter⟩ := runSteps_cons_eq_some.mp hrest
      obtain rfl := Option.some.inj (hstep.symm.trans ht')
      exact registry_eq_of_failed hstep hcall hafter hfailed

/-- An engine that is destroyed while it recognizes, and a create that fails. -/
def destroyedWhileRunning : List Action :=
  [.callCreate (.createFromContractV1 (some [99]) (some [109])) none (some none), .build 0 (.ok ()),
    .allocate 0 (some 1), .publish 0 true, .releaseOut 0, .callRecognize (some 1)
      (some ⟨40, 1, some [0], 1, 1, 1, 0⟩) false, .callDestroy (some (some 1)), .resolve 1,
    .erase 2, .callCreate .createV1 none (some none), .delete 2, .validate 1, .allocate 3 none]

theorem handle_lifecycle_destroyedWhileRunning : ∃ api : EngineApi,
    runSteps step initial destroyedWhileRunning = some api ∧
      (api.freed.Nodup ∧ api.faults = []) ∧ (∃ n, api.owners[0]? = some n ∧ 0 < n) ∧
        ¬ (1 : Address) ∈ api.registry := by
  obtain ⟨hmemory, hshares, -, -⟩ :=
    @handle_lifecycle destroyedWhileRunning _ rfl
  exact ⟨_, rfl, hmemory, hshares 1 0 _ rfl rfl, by decide⟩

end EngineApi

end FacLpr

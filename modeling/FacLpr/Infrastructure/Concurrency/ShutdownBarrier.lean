import FacLpr.Infrastructure.Concurrency.PoolConservation

/-!
# Infrastructure/Concurrency/ShutdownBarrier — when a shutdown has returned

The call of shutdown that finds the pool running joins every worker before it returns; a later call
returns at once.  So a return is a barrier for the first call always, and for a later one exactly
when the pool had nothing left to do (`barrier_iff`).
-/

namespace FacLpr

namespace BoundedWorkerPool

/-- Nothing is pending or active, and no task is ever started or active again. -/
def Barrier (c : Config) (pool : BoundedWorkerPool) : Prop :=
  pool.queue = [] ∧ pool.active = 0 ∧ ∀ actions later, runSteps (step c) pool actions = some later →
    later.active = 0 ∧ later.log.started = pool.log.started

variable {c : Config} {pool : BoundedWorkerPool}

/-! ## A drained pool stays drained -/

structure Drained (c : Config) (started : List ℕ) (pool : BoundedWorkerPool) : Prop where
  inv : Inv c pool
  stopping : pool.stopping = true
  queue : pool.queue = []
  active : pool.active = 0
  started : pool.log.started = started

theorem drained_effect {started : List ℕ} {next : BoundedWorkerPool} (h : Drained c started pool)
    (heffect : Effect c pool next) : Drained c started next := by
  have hinv := inv_effect h.inv heffect
  cases heffect with
  | accepted hat hphase haccepting => exact absurd h.stopping (h.inv.not_stopping haccepting)
  | took hat hphase hqueue => cases h.queue.symm.trans hqueue
  | accounted => exact ⟨hinv, h.stopping, h.queue, congrArg (· - 1) h.active, h.started⟩
  | drained hat hrunning => cases h.stopping.symm.trans hrunning
  | discarded hat hrunning => cases h.stopping.symm.trans hrunning
  | _ => exact ⟨hinv, h.stopping, h.queue, h.active, h.started⟩

theorem barrier_of_drained (hinv : Inv c pool) (hstopping : pool.stopping = true)
    (hqueue : pool.queue = []) (hactive : pool.active = 0) : Barrier c pool := by
  refine ⟨hqueue, hactive, fun actions later h => ?_⟩
  have hlater : Drained c pool.log.started later := runSteps_invariant
    (fun _ _ _ hdrained hstep => drained_effect hdrained (step_effect hstep))
    ⟨hinv, hstopping, hqueue, hactive, rfl⟩ h
  exact ⟨hlater.active, hlater.started⟩

/-! ## The joins -/

/-- A worker that left does not come back. -/
theorem exited_effect {next : BoundedWorkerPool} (heffect : Effect c pool next) {i : ℕ}
    (h : pool.workers[i]? = some .exited) : next.workers[i]? = some .exited := by
  have hset : ∀ {k : ℕ} {a : WorkerPhase} (b : WorkerPhase), pool.workers[k]? = some a →
      a ≠ .exited → (pool.workers.set k b)[i]? = some .exited := by
    intro k a b hat hne
    have hki : k ≠ i := by
      rintro rfl
      exact hne (Option.some.inj (hat.symm.trans h))
    rwa [List.getElem?_set_ne hki]
  have hidle : ∀ {a : WorkerPhase}, a = .ready ∨ a = .woken → a ≠ .exited := by
    rintro a (rfl | rfl) <;> exact nofun
  cases heffect with
  | notifiedWorker hat hwaiter => exact hset _ hwaiter nofun
  | took hat hphase => exact hset _ hat (hidle hphase)
  | left hat hphase => exact hset _ hat (hidle hphase)
  | waitedForWork hat hphase => exact hset _ hat (hidle hphase)
  | notifiedSubmitter hat => exact hset _ hat nofun
  | notifiedNoSubmitter hat => exact hset _ hat nofun
  | finished succeeded hat => exact hset _ hat nofun
  | accounted hat => exact hset _ hat nofun
  | workerWoke hat => exact hset _ hat nofun
  | notifiedAllWork =>
    change (notifyAll .waiting .woken pool.workers)[i]? = some .exited
    rw [notifyAll, List.getElem?_map, h]
    rfl
  | _ => exact h

/-- The workers a call of shutdown has joined have left. -/
def Joined (pool : BoundedWorkerPool) : Prop :=
  ∀ k, ShutdownPhase.joining k ∈ pool.shutdowns → ∀ i < k, pool.workers[i]? = some .exited

theorem joined_effect {next : BoundedWorkerPool} (h : Joined pool) (heffect : Effect c pool next) :
    Joined next := by
  have hexited : ∀ {k}, ShutdownPhase.joining k ∈ pool.shutdowns → ∀ i < k,
      next.workers[i]? = some .exited :=
    fun hk i hi => exited_effect heffect (h _ hk i hi)
  cases heffect with
  | calledShutdown =>
    intro k hk
    rcases List.mem_append.mp hk with hk | hk
    · exact hexited hk
    · cases List.mem_singleton.mp hk
  | drained => exact fun k hk => hexited (mem_of_mem_set hk nofun)
  | discarded => exact fun k hk => hexited (mem_of_mem_set hk nofun)
  | foundStopping => exact fun k hk => hexited (mem_of_mem_set hk nofun)
  | notifiedAllSpace => exact fun k hk => hexited (mem_of_mem_set hk nofun)
  | notifiedAllWork =>
    intro k hk i hi
    rcases List.mem_or_eq_of_mem_set hk with hk | hk
    · exact hexited hk i hi
    · cases hk
      exact absurd hi (Nat.not_lt_zero i)
  | joined hat hleft =>
    intro k hk i hi
    rcases List.mem_or_eq_of_mem_set hk with hk | hk
    · exact hexited hk i hi
    · cases hk
      rcases Nat.lt_succ_iff_lt_or_eq.mp hi with hi | rfl
      · exact hexited (List.mem_of_getElem? hat) i hi
      · exact hleft
  | joinedAll => exact fun k hk => hexited (mem_of_mem_set hk nofun)
  | _ => exact fun k hk => hexited hk

theorem joined_run {actions : List Action}
    (h : runSteps (step c) (initial c) actions = some pool) : Joined pool :=
  runSteps_invariant (fun _ _ _ hjoined hstep => joined_effect hjoined (step_effect hstep))
    (fun _ hk => absurd hk List.not_mem_nil) h

/-! ## The returns -/

/-- **How a call of shutdown returns**: it finds the pool stopping, or it has joined every
worker. -/
theorem returned_effect {next : BoundedWorkerPool} (heffect : Effect c pool next) {caller : ℕ}
    {phase : ShutdownPhase} (hphase : pool.shutdowns[caller]? = some phase)
    (hunreturned : phase ≠ .returned) (hreturned : next.shutdowns[caller]? = some .returned) :
    next = setShutdown caller (pool, .returned) ∧
      ((phase = .calling ∧ pool.stopping = true) ∨
        ∃ k, phase = .joining k ∧ pool.workers[k]? = none) := by
  have hsame : pool.shutdowns[caller]? ≠ some .returned := by
    rw [hphase]
    exact fun h => hunreturned (Option.some.inj h)
  have hset : ∀ {j : ℕ} {b : ShutdownPhase}, (pool.shutdowns.set j b)[caller]? = some .returned →
      j = caller ∧ b = .returned := by
    intro j b h
    rcases eq_or_ne j caller with rfl | hne
    · rw [List.getElem?_set_self (List.getElem?_eq_some_iff.mp hphase).1] at h
      exact ⟨rfl, Option.some.inj h⟩
    · rw [List.getElem?_set_ne hne] at h
      exact absurd h hsame
  cases heffect with
  | calledShutdown =>
    have hlt := (List.getElem?_eq_some_iff.mp hphase).1
    rw [show (pool.shutdowns ++ [ShutdownPhase.calling])[caller]? = pool.shutdowns[caller]? from
      List.getElem?_append_left hlt] at hreturned
    exact absurd hreturned hsame
  | drained => cases (hset hreturned).2
  | discarded => cases (hset hreturned).2
  | foundStopping hat hstopping =>
    obtain ⟨rfl, -⟩ := hset hreturned
    exact ⟨rfl, Or.inl ⟨Option.some.inj (hphase.symm.trans hat), hstopping⟩⟩
  | notifiedAllSpace => cases (hset hreturned).2
  | notifiedAllWork => cases (hset hreturned).2
  | joined => cases (hset hreturned).2
  | joinedAll hat hnone =>
    obtain ⟨rfl, -⟩ := hset hreturned
    exact ⟨rfl, Or.inr ⟨_, Option.some.inj (hphase.symm.trans hat), hnone⟩⟩
  | _ => exact absurd hreturned hsame

/-- **When a shutdown is a barrier.**  A call that returns leaves a pool where nothing is pending or
active and no task is started again, exactly when it is the call that joined the workers or nothing
was pending or active when it found the pool stopping. -/
theorem barrier_iff (c : Config) (actions : List Action) {pool next : BoundedWorkerPool}
    (h : runSteps (step c) (initial c) actions = some pool) {action : Action}
    (hstep : step c pool action = some next) {caller : ℕ} {phase : ShutdownPhase}
    (hphase : pool.shutdowns[caller]? = some phase) (hunreturned : phase ≠ .returned)
    (hreturned : next.shutdowns[caller]? = some .returned) :
    Barrier c next ↔ (∃ worker, phase = .joining worker) ∨ (pool.queue = [] ∧ pool.active = 0) := by
  have hinv := inv_effect (inv_run h) (step_effect hstep)
  obtain ⟨rfl, ⟨rfl, hstopping⟩ | ⟨k, rfl, hnone⟩⟩ :=
    returned_effect (step_effect hstep) hphase hunreturned hreturned
  · constructor
    · rintro ⟨hqueue, hactive, -⟩
      exact Or.inr ⟨hqueue, hactive⟩
    · rintro (⟨worker, hworker⟩ | ⟨hqueue, hactive⟩)
      · cases hworker
      · exact barrier_of_drained hinv hstopping hqueue hactive
  · refine iff_of_true ?_ (Or.inl ⟨k, rfl⟩)
    have hleft : ∀ worker ∈ pool.workers, worker = .exited := by
      intro worker hworker
      obtain ⟨i, hi⟩ := List.mem_iff_getElem?.mp hworker
      have hik : i < k :=
        (List.getElem?_eq_some_iff.mp hi).1.trans_le (List.getElem?_eq_none_iff.mp hnone)
      exact Option.some.inj
        (hi.symm.trans (joined_run h k (List.mem_of_getElem? hphase) i hik))
    obtain ⟨hstopping, hqueue, hheld⟩ := (inv_run h).of_exited hleft
    have hactive : pool.active = 0 := by rw [(inv_run h).active, hheld, List.length_nil]
    exact barrier_of_drained hinv hstopping hqueue hactive

/-- A task is running, and of two calls of shutdown the first has taken the lock. -/
def secondShutdown : List Action :=
  [.callSubmit false, .submit 0, .notifyWork 0 none, .work 0, .notifySpace 0 none, .callShutdown,
    .callShutdown, .shutdown 0]

/-- A shutdown is not a barrier for every caller. -/
theorem not_barrier_secondShutdown : ¬ ∀ (c : Config) (actions : List Action)
    (pool next : BoundedWorkerPool) (action : Action) (caller : ℕ) (phase : ShutdownPhase),
      runSteps (step c) (initial c) actions = some pool → step c pool action = some next →
      pool.shutdowns[caller]? = some phase → phase ≠ .returned →
      next.shutdowns[caller]? = some .returned → Barrier c next := by
  intro hclaim
  have hbarrier := hclaim Config.default secondShutdown _ _
    (.shutdown 1) 1 .calling rfl rfl rfl nofun rfl
  cases hbarrier.2.1

/-- Nothing is submitted, and the worker has left. -/
def oneShutdown : List Action :=
  [.callShutdown, .shutdown 0, .notifyAllSpace 0, .notifyAllWork 0, .work 0, .join 0]

theorem barrier_iff_oneShutdown : ∃ pool next,
    runSteps (step Config.default) (initial Config.default) oneShutdown = some pool ∧
      step Config.default pool (.join 0) = some next ∧ Barrier Config.default next :=
  ⟨_, _, rfl, rfl, (@barrier_iff Config.default oneShutdown _ _ rfl (.join 0) rfl 0 (.joining 1) rfl
    nofun rfl).mpr (Or.inl ⟨1, rfl⟩)⟩

end BoundedWorkerPool

end FacLpr

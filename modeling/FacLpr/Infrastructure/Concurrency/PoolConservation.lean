import FacLpr.Infrastructure.Concurrency.BoundedWorkerPool
import Mathlib.Data.List.Range

/-!
# Infrastructure/Concurrency/PoolConservation — every task is accounted for

The tasks in the order they were accepted are those started, then those discarded, then those still
queued (`Inv.tickets`), and a started task is executed or in the hands of a worker (`Inv.held`).
The counters are the sizes of these lists, so the conservation law holds in every state of every
interleaving (`tasks_conserved`).
-/

namespace FacLpr

namespace BoundedWorkerPool

/-- **The invariant of the pool.** -/
structure Inv (c : Config) (pool : BoundedWorkerPool) : Prop where
  tickets : pool.log.started ++ pool.log.discarded ++ pool.queue = List.range pool.submitted
  held : pool.log.started.Perm (pool.log.executed ++ pool.workers.filterMap WorkerPhase.task?)
  active : pool.active = (pool.workers.filterMap WorkerPhase.task?).length
  finished : pool.completed + pool.failed = pool.log.executed.length
  dropped : pool.dropped =
    pool.submitters.countP (· == .returned .queueFull) + pool.log.discarded.length
  pending : pool.queue.length ≤ c.config.queueCapacity
  peak : pool.peakPending ≤ c.config.queueCapacity
  accepting : pool.accepting = !pool.stopping
  discarded : pool.log.discarded ≠ [] → pool.stopping = true ∧ pool.queue = [] ∧
    c.config.shutdownPolicy = .discardPending
  exited : WorkerPhase.exited ∈ pool.workers → pool.stopping = true ∧ pool.queue = []
  size : pool.workers.length = c.config.workerCount

variable {c : Config} {pool : BoundedWorkerPool}

theorem filterMap_task?_initial (c : Config) :
    (initial c).workers.filterMap WorkerPhase.task? = [] := by
  refine List.filterMap_eq_nil_iff.mpr fun phase hphase => ?_
  rw [List.eq_of_mem_replicate hphase]
  rfl

theorem inv_initial (c : Config) : Inv c (initial c) where
  tickets := rfl
  held := by
    rw [filterMap_task?_initial]
    exact List.Perm.refl _
  active := by
    rw [filterMap_task?_initial]
    rfl
  finished := rfl
  dropped := rfl
  pending := Nat.zero_le _
  peak := Nat.zero_le _
  accepting := rfl
  discarded h := absurd rfl h
  exited h := by cases List.eq_of_mem_replicate h
  size := List.length_replicate

/-- A pool that accepts is not stopping. -/
theorem Inv.not_stopping (h : Inv c pool) (haccepting : pool.accepting = true) :
    pool.stopping ≠ true := by
  intro hstopping
  rw [h.accepting, hstopping] at haccepting
  cases haccepting

/-- A pool that accepts has discarded nothing. -/
theorem Inv.discarded_eq_nil (h : Inv c pool) (haccepting : pool.accepting = true) :
    pool.log.discarded = [] := by
  by_contra hne
  exact h.not_stopping haccepting (h.discarded hne).1

/-- A pool with a pending task has discarded nothing. -/
theorem Inv.discarded_eq_nil_of_pending (h : Inv c pool) (hpending : pool.queue ≠ []) :
    pool.log.discarded = [] := by
  by_contra hne
  exact hpending (h.discarded hne).2.1

/-! ## A thread moves -/

/-- A submitter that moves is not counted as rejected, before or after. -/
theorem Inv.setSubmitter (h : Inv c pool) {i : ℕ} {a b : SubmitPhase}
    (hat : pool.submitters[i]? = some a) (ha : a ≠ .returned .queueFull)
    (hb : b ≠ .returned .queueFull) : Inv c (setSubmitter i (pool, b)) where
  __ := h
  dropped := by
    have hcount := countP_set_add hat b (· == .returned .queueFull)
    rw [beq_false_of_ne ha, beq_false_of_ne hb] at hcount
    exact h.dropped.trans (congrArg (· + _) hcount.symm)

/-- A worker that moves holds the same task, and leaves only when there is nothing to do. -/
theorem Inv.setWorker (h : Inv c pool) {k : ℕ} {a b : WorkerPhase} (hat : pool.workers[k]? = some a)
    (htask : b.task? = a.task?)
    (hexited : b = .exited → pool.stopping = true ∧ pool.queue = []) :
    Inv c (setWorker k (pool, b)) where
  __ := h
  held := by
    have hperm := perm_filterMap_set hat b WorkerPhase.task?
    rw [htask] at hperm
    exact h.held.trans (((List.perm_append_left_iff _).mp hperm).symm.append_left _)
  active := by
    have hperm := perm_filterMap_set hat b WorkerPhase.task?
    rw [htask] at hperm
    exact h.active.trans ((List.perm_append_left_iff _).mp hperm).symm.length_eq
  exited hmem := by
    rcases List.mem_or_eq_of_mem_set hmem with hmem | heq
    · exact h.exited hmem
    · exact hexited heq.symm
  size := (List.length_set).trans h.size

/-- Waking every submitter changes no count. -/
theorem Inv.notifyAllSpace (h : Inv c pool) :
    Inv c { pool with submitters := notifyAll .waiting .woken pool.submitters } where
  __ := h
  dropped := h.dropped.trans (congrArg (· + _) (countP_notifyAll (by rfl) pool.submitters).symm)

/-- Waking every worker changes nothing they hold. -/
theorem Inv.notifyAllWork (h : Inv c pool) :
    Inv c { pool with workers := notifyAll .waiting .woken pool.workers } where
  __ := h
  held := by
    have hheld : (notifyAll .waiting .woken pool.workers).filterMap WorkerPhase.task? = _ :=
      filterMap_notifyAll (by rfl) pool.workers
    exact hheld ▸ h.held
  active := by
    have hheld : (notifyAll .waiting .woken pool.workers).filterMap WorkerPhase.task? = _ :=
      filterMap_notifyAll (by rfl) pool.workers
    exact hheld ▸ h.active
  exited hmem := by
    obtain ⟨phase, hphase, heq⟩ := List.mem_map.mp hmem
    split at heq
    · cases heq
    · exact h.exited (heq ▸ hphase)
  size := (List.length_map _).trans h.size

/-! ## The critical sections -/

/-- **A task is accepted.** -/
theorem Inv.push (h : Inv c pool) {i : ℕ} {a : SubmitPhase} (hat : pool.submitters[i]? = some a)
    (ha : a ≠ .returned .queueFull) (haccepting : pool.accepting = true)
    (hspace : pool.queue.length < c.config.queueCapacity) :
    Inv c (BoundedWorkerPool.setSubmitter i (push pool)) where
  __ := h.setSubmitter hat ha (b := .notifying) (by simp)
  tickets := by
    change _ ++ (pool.queue ++ [pool.submitted]) = List.range (pool.submitted + 1)
    rw [List.range_succ, ← h.tickets, ← List.append_assoc]
    rfl
  pending := by
    change (pool.queue ++ [_]).length ≤ _
    rw [List.length_append]
    exact hspace
  peak := Nat.max_le.mpr ⟨h.peak, hspace⟩
  discarded hne := absurd (h.discarded_eq_nil haccepting) hne
  exited hmem := absurd (h.exited hmem).1 (h.not_stopping haccepting)

/-- **A task is started.** -/
theorem Inv.take (h : Inv c pool) {k task : ℕ} {queue : List ℕ} {a : WorkerPhase}
    (hat : pool.workers[k]? = some a) (ha : a.task? = none) (hqueue : pool.queue = task :: queue) :
    Inv c (BoundedWorkerPool.setWorker k
      ({ pool with
          queue
          active := pool.active + 1
          log := { pool.log with started := pool.log.started ++ [task] } }, .notifying task)) where
  __ := h
  tickets := by
    have hnone : pool.log.discarded = [] :=
      h.discarded_eq_nil_of_pending (hqueue ▸ List.cons_ne_nil _ _)
    have htickets := h.tickets
    rw [hnone, hqueue, List.append_nil] at htickets
    change pool.log.started ++ [task] ++ pool.log.discarded ++ queue = List.range pool.submitted
    rw [hnone, List.append_nil, List.append_assoc, List.singleton_append, htickets]
  held := by
    have hperm := perm_filterMap_set hat (.notifying task) WorkerPhase.task?
    rw [ha] at hperm
    change (pool.log.started ++ [task]).Perm _
    refine (h.held.append_right [task]).trans ?_
    rw [List.append_assoc]
    exact (List.perm_append_comm.trans hperm.symm).append_left _
  active := by
    have hperm := perm_filterMap_set hat (.notifying task) WorkerPhase.task?
    rw [ha] at hperm
    change pool.active + 1 = _
    rw [h.active, ← List.length_cons (a := task)]
    exact hperm.symm.length_eq
  pending := by
    have hpending := h.pending
    rw [hqueue, List.length_cons] at hpending
    exact Nat.le_of_succ_le hpending
  discarded hne := absurd (h.discarded_eq_nil_of_pending (hqueue ▸ List.cons_ne_nil _ _)) hne
  exited hmem := by
    rcases List.mem_or_eq_of_mem_set hmem with hmem | heq
    · have hempty := (h.exited hmem).2
      rw [hqueue] at hempty
      cases hempty
    · cases heq
  size := (List.length_set).trans h.size

/-- A worker that finished its task holds it no more. -/
theorem perm_held_of_finishing {k task : ℕ} {succeeded : Bool}
    (hat : pool.workers[k]? = some (.finishing task succeeded)) :
    ([task] ++ (pool.workers.set k .ready).filterMap WorkerPhase.task?).Perm
      (pool.workers.filterMap WorkerPhase.task?) :=
  perm_filterMap_set hat .ready WorkerPhase.task?

/-- **A task is executed.** -/
theorem Inv.finish (h : Inv c pool) {k task : ℕ} {succeeded : Bool}
    (hat : pool.workers[k]? = some (.finishing task succeeded)) :
    Inv c (BoundedWorkerPool.setWorker k (finishLocked task succeeded pool, .ready)) where
  __ := h
  held := by
    change pool.log.started.Perm (pool.log.executed ++ [task] ++
      (pool.workers.set k .ready).filterMap WorkerPhase.task?)
    rw [List.append_assoc]
    exact h.held.trans ((perm_held_of_finishing hat).symm.append_left _)
  active := by
    change pool.active - 1 = ((pool.workers.set k .ready).filterMap WorkerPhase.task?).length
    rw [h.active, ← (perm_held_of_finishing hat).length_eq, List.length_append]
    exact Nat.add_sub_cancel_left _ _
  finished := by
    have hfinished := h.finished
    change (finishLocked task succeeded pool).completed +
        (finishLocked task succeeded pool).failed =
      (pool.log.executed ++ [task]).length
    rw [List.length_append, ← hfinished]
    cases succeeded with
    | true => simp [finishLocked]; omega
    | false => simp [finishLocked]; omega
  exited hmem := by
    rcases List.mem_or_eq_of_mem_set hmem with hmem | heq
    · exact h.exited hmem
    · cases heq
  size := (List.length_set).trans h.size

/-- **Shutdown that drains.** -/
theorem Inv.drain (h : Inv c pool) {j : ℕ} :
    Inv c (BoundedWorkerPool.setShutdown j
      ({ pool with accepting := false, stopping := true }, .notifyingSpace)) where
  __ := h
  accepting := rfl
  discarded hne := ⟨rfl, (h.discarded hne).2⟩
  exited hmem := ⟨rfl, (h.exited hmem).2⟩

/-- **Shutdown that discards.** -/
theorem Inv.discard (h : Inv c pool) {j : ℕ}
    (hpolicy : c.config.shutdownPolicy = .discardPending) :
    Inv c (BoundedWorkerPool.setShutdown j
      ({ pool with
          accepting := false
          stopping := true
          dropped := pool.dropped + pool.queue.length
          queue := []
          log := { pool.log with discarded := pool.log.discarded ++ pool.queue } },
        .notifyingSpace)) where
  __ := h
  tickets := by
    change pool.log.started ++ (pool.log.discarded ++ pool.queue) ++ [] = _
    rw [List.append_nil, ← List.append_assoc]
    exact h.tickets
  dropped := by
    change pool.dropped + pool.queue.length = _ + (pool.log.discarded ++ pool.queue).length
    rw [List.length_append, h.dropped, Nat.add_assoc]
    rfl
  pending := Nat.zero_le _
  accepting := rfl
  discarded _ := ⟨rfl, rfl, hpolicy⟩
  exited _ := ⟨rfl, rfl⟩

/-! ## Every run -/

/-- **Every step keeps the invariant.** -/
theorem inv_effect {next : BoundedWorkerPool} (h : Inv c pool) (heffect : Effect c pool next) :
    Inv c next := by
  have hcalled : ∀ {a : SubmitPhase}, a = .calling ∨ a = .woken → a ≠ .returned .queueFull := by
    rintro a (rfl | rfl) <;> exact nofun
  have hidle : ∀ {a : WorkerPhase}, a = .ready ∨ a = .woken → a.task? = none := by
    rintro a (rfl | rfl) <;> rfl
  cases heffect with
  | calledSubmit isEmpty =>
    refine { h with dropped := ?_ }
    change pool.dropped = (pool.submitters ++ [_]).countP _ + pool.log.discarded.length
    rw [List.countP_append, h.dropped]
    cases isEmpty <;> rfl
  | accepted hat hphase haccepting hspace => exact h.push hat (hcalled hphase) haccepting hspace
  | refused hat hphase => exact h.setSubmitter hat (hcalled hphase) nofun
  | @rejected i hat hfull =>
    refine { h with dropped := ?_ }
    have hcount : (pool.submitters.set i (.returned .queueFull)).countP
        (· == .returned .queueFull) + 0 = pool.submitters.countP (· == .returned .queueFull) + 1 :=
      countP_set_add hat (.returned .queueFull) (· == .returned .queueFull)
    change pool.dropped + 1 = (pool.submitters.set i (.returned .queueFull)).countP _ +
      pool.log.discarded.length
    rw [h.dropped]
    omega
  | waitedForSpace hat hphase => exact h.setSubmitter hat (hcalled hphase) nofun
  | notifiedWorker hat hwaiter =>
    exact (h.setWorker hwaiter (b := .woken) rfl nofun).setSubmitter hat nofun nofun
  | notifiedNoWorker hat => exact h.setSubmitter hat nofun nofun
  | submitterWoke hat => exact h.setSubmitter hat nofun nofun
  | took hat hphase hqueue => exact h.take hat (hidle hphase) hqueue
  | left hat hphase hstopping hempty =>
    exact h.setWorker hat (hidle hphase).symm fun _ => ⟨hstopping, hempty⟩
  | waitedForWork hat hphase => exact h.setWorker hat (hidle hphase).symm nofun
  | notifiedSubmitter hat hwaiter =>
    exact (h.setSubmitter hwaiter (b := .woken) nofun nofun).setWorker hat rfl nofun
  | notifiedNoSubmitter hat => exact h.setWorker hat rfl nofun
  | finished succeeded hat => exact h.setWorker hat rfl nofun
  | accounted hat => exact h.finish hat
  | workerWoke hat => exact h.setWorker hat rfl nofun
  | calledShutdown => exact { h with }
  | drained => exact h.drain
  | discarded _ _ hpolicy => exact h.discard hpolicy
  | foundStopping => exact { h with }
  | notifiedAllSpace => exact { h.notifyAllSpace with }
  | notifiedAllWork => exact { h.notifyAllWork with }
  | joined => exact { h with }
  | joinedAll => exact { h with }

/-- **The invariant of a run.** -/
theorem inv_run {actions : List Action} (h : runSteps (step c) (initial c) actions = some pool) :
    Inv c pool :=
  runSteps_invariant (fun _ _ _ hinv hstep => inv_effect hinv (step_effect hstep)) (inv_initial c) h

theorem Config.workerCount_ne_zero (c : Config) : c.config.workerCount ≠ 0 := by
  have haccepted := c.accepted
  simp only [BoundedWorkerPoolConfig.check, except_bind_eq_ok, require_eq_ok,
    decide_eq_true_eq] at haccepted
  obtain ⟨-, ⟨hcount, -⟩, -⟩ := haccepted
  exact hcount

/-- Once every worker has left, the pool is stopping, nothing is pending and nobody holds a task. -/
theorem Inv.of_exited (h : Inv c pool) (hexited : ∀ phase ∈ pool.workers, phase = .exited) :
    pool.stopping = true ∧ pool.queue = [] ∧
      pool.workers.filterMap WorkerPhase.task? = [] := by
  obtain ⟨phase, hphase⟩ : ∃ phase, phase ∈ pool.workers := by
    refine List.exists_mem_of_ne_nil _ fun hnil => c.workerCount_ne_zero ?_
    rw [← h.size, hnil, List.length_nil]
  obtain ⟨hstopping, hqueue⟩ := h.exited (hexited phase hphase ▸ hphase)
  refine ⟨hstopping, hqueue, List.filterMap_eq_nil_iff.mpr fun phase hphase => ?_⟩
  rw [hexited phase hphase]
  rfl

/-- **Conservation of tasks.**  In every state of every interleaving the counters account for every
submission and every drop; tasks start once, in the order they were accepted; the queue and the
active tasks keep within their bounds; and once every worker has left, each accepted task was
executed or discarded, and a draining shutdown discarded none. -/
theorem tasks_conserved (c : Config) (actions : List Action) {pool : BoundedWorkerPool}
    (h : runSteps (step c) (initial c) actions = some pool) :
    (pool.stats.submitted = pool.stats.completed + pool.stats.failed + pool.stats.active +
        pool.stats.pending + pool.log.discarded.length ∧
      pool.stats.dropped = pool.submitters.countP (· == .returned .queueFull) +
        pool.log.discarded.length) ∧
    pool.log.started <+: List.range pool.stats.submitted ∧
    (pool.stats.pending ≤ c.config.queueCapacity ∧
      pool.stats.peakPending ≤ c.config.queueCapacity ∧
      pool.stats.active ≤ c.config.workerCount) ∧
    ((∀ phase ∈ pool.workers, phase = .exited) →
      (pool.log.executed ++ pool.log.discarded).Perm (List.range pool.stats.submitted)) ∧
    (c.config.shutdownPolicy = .drain → pool.log.discarded = []) := by
  have hinv := inv_run h
  refine ⟨⟨?_, hinv.dropped⟩, ?_, ⟨hinv.pending, hinv.peak, ?_⟩, fun hexited => ?_,
    fun hdrain => ?_⟩
  · have htickets := congrArg List.length hinv.tickets
    have hheld := hinv.held.length_eq
    rw [List.length_append, List.length_append, List.length_range] at htickets
    rw [List.length_append, ← hinv.finished, ← hinv.active] at hheld
    simp only [stats]
    omega
  · exact ⟨pool.log.discarded ++ pool.queue, by rw [← List.append_assoc]; exact hinv.tickets⟩
  · exact hinv.active.le.trans ((List.length_filterMap_le _ _).trans hinv.size.le)
  · obtain ⟨-, hqueue, hheld⟩ := hinv.of_exited hexited
    have htickets := hinv.tickets
    have hperm := hinv.held
    rw [hqueue, List.append_nil] at htickets
    rw [hheld, List.append_nil] at hperm
    change (pool.log.executed ++ pool.log.discarded).Perm (List.range pool.submitted)
    rw [← htickets]
    exact hperm.symm.append_right _
  · by_contra hne
    cases hdrain.symm.trans (hinv.discarded hne).2.2

/-- A pool with room for one pending task, which its shutdown discards. -/
def Config.discarding : Config :=
  ⟨{ queueCapacity := 1, shutdownPolicy := .discardPending }, by decide⟩

/-- The run of three tasks and of a shutdown: the first is executed, the second discarded, and the
third rejected. -/
def oneOfEach : List Action :=
  [.work 0, .callSubmit false, .submit 0, .notifyWork 0 (some 0), .work 0, .notifySpace 0 none,
    .callSubmit false, .submit 1, .notifyWork 1 none, .callSubmit false, .submit 2,
    .callShutdown, .shutdown 0, .finish 0 true, .account 0, .work 0]

theorem tasks_conserved_oneOfEach : ∃ pool,
    runSteps (step Config.discarding) (initial Config.discarding) oneOfEach = some pool ∧
      pool.log.executed = [0] ∧ pool.log.discarded = [1] ∧
      pool.submitters[2]? = some (.returned .queueFull) ∧
      pool.stats.dropped = pool.submitters.countP (· == .returned .queueFull) +
        pool.log.discarded.length ∧
      (pool.log.executed ++ pool.log.discarded).Perm (List.range pool.stats.submitted) :=
  have h := tasks_conserved Config.discarding oneOfEach rfl
  ⟨_, rfl, rfl, rfl, rfl, h.1.2, h.2.2.2.1 (by decide)⟩

end BoundedWorkerPool

end FacLpr

import FacLpr.Foundations.Threads
import FacLpr.Foundations.Transition
import FacLpr.Infrastructure.NativeImageWorkspace

/-!
# Infrastructure/Concurrency/BoundedWorkerPool — a queue, its workers and its callers

A step of the pool is one critical section of `submit`, `shutdown` or `worker_loop`, one
notification, or one thing that happens outside the lock: a task ends, a join returns, a waiter
wakes by itself.  `step` takes any of them that is possible, so a list of actions is an interleaving
of any number of callers with the workers; `step_effect` says once what each can do.

A task is its number among those accepted.  The lists of `TaskLog` are not members of the pool: they
record what became of each task.
-/

namespace FacLpr

inductive QueueFullPolicy where
  | rejectNewest
  | block
  deriving DecidableEq

inductive ShutdownPolicy where
  | drain
  | discardPending
  deriving DecidableEq

/-- `checked_resource_multiply`. -/
def checkedResourceMultiply (left right maximum : ℕ) (resource : String) :
    Except EngineError ℕ := do
  require (!(left ≠ 0 ∧ (2 ^ 64 - 1) / left < right))
    (resourceExhaustedError (resource ++ " size overflows size_t"))
  require (left * right ≤ maximum)
    (resourceExhaustedError (resource ++ " exceeds configured resource budget"))
  return left * right

structure BoundedWorkerPoolConfig where
  workerCount : ℕ := 1
  queueCapacity : ℕ := 8
  estimatedTaskBytes : ℕ := 1024
  maxQueueMemoryBytes : ℕ := 512 * 1024 * 1024
  fullPolicy : QueueFullPolicy := .rejectNewest
  shutdownPolicy : ShutdownPolicy := .drain
  workspace : NativeImageWorkspaceConfig := {}

/-- The checks of the constructor. -/
def BoundedWorkerPoolConfig.check (config : BoundedWorkerPoolConfig) : Except EngineError Unit := do
  require (config.workerCount ≠ 0 ∧ config.workerCount ≤ 256)
    (configurationError "worker_count must be in [1,256]")
  require (config.queueCapacity ≠ 0 ∧ config.queueCapacity ≤ 65536)
    (configurationError "queue_capacity must be in [1,65536]")
  require (config.estimatedTaskBytes ≠ 0 ∧ config.maxQueueMemoryBytes ≠ 0)
    (configurationError "worker queue memory budget values must be greater than zero")
  let _ ← checkedResourceMultiply config.queueCapacity config.estimatedTaskBytes
    config.maxQueueMemoryBytes "worker queue memory"
  config.workspace.check

/-! ## Threads -/

/-- A worker, between its critical sections. -/
inductive WorkerPhase where
  | ready
  | waiting
  | woken
  | notifying (task : ℕ)
  | running (task : ℕ)
  | finishing (task : ℕ) (succeeded : Bool)
  | exited
  deriving DecidableEq

/-- How a call of `submit` ends: `true`, one of the two ways to `false`, or an exception. -/
inductive SubmitOutcome where
  | accepted
  | queueFull
  | notAccepting
  | emptyTask
  deriving DecidableEq

/-- A call of `submit`. -/
inductive SubmitPhase where
  | calling
  | waiting
  | woken
  | notifying
  | returned (outcome : SubmitOutcome)
  deriving DecidableEq

/-- A call of `shutdown`. -/
inductive ShutdownPhase where
  | calling
  | notifyingSpace
  | notifyingWork
  | joining (worker : ℕ)
  | returned
  deriving DecidableEq

/-- The task a worker holds. -/
def WorkerPhase.task? : WorkerPhase → Option ℕ
  | .notifying task => some task
  | .running task => some task
  | .finishing task _ => some task
  | _ => none

/-! ## The pool -/

/-- The tasks that were started, the ones that were executed and the ones shutdown discarded. -/
structure TaskLog where
  started : List ℕ
  executed : List ℕ
  discarded : List ℕ

/-- The members of a pool, and the threads around it. -/
structure BoundedWorkerPool where
  queue : List ℕ
  accepting : Bool
  stopping : Bool
  submitted : ℕ
  completed : ℕ
  failed : ℕ
  dropped : ℕ
  active : ℕ
  peakPending : ℕ
  workers : List WorkerPhase
  submitters : List SubmitPhase
  shutdowns : List ShutdownPhase
  log : TaskLog

structure BoundedWorkerPoolStats where
  submitted : ℕ
  completed : ℕ
  failed : ℕ
  dropped : ℕ
  pending : ℕ
  active : ℕ
  peakPending : ℕ
  deriving DecidableEq

namespace BoundedWorkerPool

/-- A configuration the constructor accepted. -/
structure Config where
  config : BoundedWorkerPoolConfig
  accepted : config.check = .ok ()

def Config.default : Config := ⟨{}, by decide⟩

/-- A new pool, its workers started. -/
def initial (c : Config) : BoundedWorkerPool where
  queue := []
  accepting := true
  stopping := false
  submitted := 0
  completed := 0
  failed := 0
  dropped := 0
  active := 0
  peakPending := 0
  workers := List.replicate c.config.workerCount .ready
  submitters := []
  shutdowns := []
  log := ⟨[], [], []⟩

/-- `BoundedWorkerPool::stats`. -/
def stats (pool : BoundedWorkerPool) : BoundedWorkerPoolStats where
  submitted := pool.submitted
  completed := pool.completed
  failed := pool.failed
  dropped := pool.dropped
  pending := pool.queue.length
  active := pool.active
  peakPending := pool.peakPending

/-! ## Critical sections -/

/-- The end of `submit`: the task is accepted. -/
def push (pool : BoundedWorkerPool) : BoundedWorkerPool × SubmitPhase :=
  ({ pool with
      queue := pool.queue ++ [pool.submitted]
      submitted := pool.submitted + 1
      peakPending := Nat.max pool.peakPending (pool.queue.length + 1) }, .notifying)

/-- `queue_space_available_.wait`, from the check of the predicate on. -/
def awaitSpace (c : Config) (pool : BoundedWorkerPool) : BoundedWorkerPool × SubmitPhase :=
  if !pool.accepting || decide (pool.queue.length < c.config.queueCapacity) then
    if !pool.accepting then (pool, .returned .notAccepting) else push pool
  else (pool, .waiting)

/-- The critical section of `submit`. -/
def submitLocked (c : Config) (pool : BoundedWorkerPool) : BoundedWorkerPool × SubmitPhase :=
  if !pool.accepting then (pool, .returned .notAccepting)
  else
    match c.config.fullPolicy with
    | .block => awaitSpace c pool
    | .rejectNewest =>
        if c.config.queueCapacity ≤ pool.queue.length then
          ({ pool with dropped := pool.dropped + 1 }, .returned .queueFull)
        else push pool

/-- The first critical section of the worker loop, from the check of the predicate on. -/
def takeLocked (pool : BoundedWorkerPool) : BoundedWorkerPool × WorkerPhase :=
  if pool.stopping || !pool.queue.isEmpty then
    match pool.queue with
    | [] => (pool, .exited)
    | task :: queue =>
        ({ pool with
            queue
            active := pool.active + 1
            log := { pool.log with started := pool.log.started ++ [task] } }, .notifying task)
  else (pool, .waiting)

/-- The second critical section of the worker loop. -/
def finishLocked (task : ℕ) (succeeded : Bool) (pool : BoundedWorkerPool) : BoundedWorkerPool :=
  { pool with
    active := pool.active - 1
    completed := if succeeded then pool.completed + 1 else pool.completed
    failed := if succeeded then pool.failed else pool.failed + 1
    log := { pool.log with executed := pool.log.executed ++ [task] } }

/-- The critical section of `shutdown`. -/
def shutdownLocked (c : Config) (pool : BoundedWorkerPool) : BoundedWorkerPool × ShutdownPhase :=
  if pool.stopping then (pool, .returned)
  else
    match c.config.shutdownPolicy with
    | .drain => ({ pool with accepting := false, stopping := true }, .notifyingSpace)
    | .discardPending =>
        ({ pool with
            accepting := false
            stopping := true
            dropped := pool.dropped + pool.queue.length
            queue := []
            log := { pool.log with discarded := pool.log.discarded ++ pool.queue } },
          .notifyingSpace)

/-! ## Steps -/

/-- What the scheduler may do next.  The choice of a notification is the waiter it wakes.  Only the
call of `shutdown` that found the pool running joins the workers, so each is joinable then. -/
inductive Action where
  | callSubmit (isEmpty : Bool)
  | submit (submitter : ℕ)
  | notifyWork (submitter : ℕ) (choice : Option ℕ)
  | wakeSubmitter (submitter : ℕ)
  | work (worker : ℕ)
  | notifySpace (worker : ℕ) (choice : Option ℕ)
  | finish (worker : ℕ) (succeeded : Bool)
  | account (worker : ℕ)
  | wakeWorker (worker : ℕ)
  | callShutdown
  | shutdown (caller : ℕ)
  | notifyAllSpace (caller : ℕ)
  | notifyAllWork (caller : ℕ)
  | join (caller : ℕ)
  deriving DecidableEq

/-- Let a submitter go on from a critical section. -/
def setSubmitter (submitter : ℕ) (next : BoundedWorkerPool × SubmitPhase) : BoundedWorkerPool :=
  { next.1 with submitters := next.1.submitters.set submitter next.2 }

/-- Let a worker go on from a critical section. -/
def setWorker (worker : ℕ) (next : BoundedWorkerPool × WorkerPhase) : BoundedWorkerPool :=
  { next.1 with workers := next.1.workers.set worker next.2 }

/-- Let a caller of shutdown go on from a critical section. -/
def setShutdown (caller : ℕ) (next : BoundedWorkerPool × ShutdownPhase) : BoundedWorkerPool :=
  { next.1 with shutdowns := next.1.shutdowns.set caller next.2 }

/-- One step, if it is possible. -/
def step (c : Config) (pool : BoundedWorkerPool) : Action → Option BoundedWorkerPool
  | .callSubmit isEmpty =>
      some { pool with submitters :=
        pool.submitters ++ [if isEmpty then .returned .emptyTask else .calling] }
  | .submit submitter =>
      match pool.submitters[submitter]? with
      | some .calling => some (setSubmitter submitter (submitLocked c pool))
      | some .woken => some (setSubmitter submitter (awaitSpace c pool))
      | _ => none
  | .notifyWork submitter choice =>
      match pool.submitters[submitter]? with
      | some .notifying =>
          (notifyOne .waiting .woken pool.workers choice).map fun workers =>
            { pool with
              workers, submitters := pool.submitters.set submitter (.returned .accepted) }
      | _ => none
  | .wakeSubmitter submitter =>
      match pool.submitters[submitter]? with
      | some .waiting => some (setSubmitter submitter (pool, .woken))
      | _ => none
  | .work worker =>
      match pool.workers[worker]? with
      | some .ready => some (setWorker worker (takeLocked pool))
      | some .woken => some (setWorker worker (takeLocked pool))
      | _ => none
  | .notifySpace worker choice =>
      match pool.workers[worker]? with
      | some (.notifying task) =>
          (notifyOne .waiting .woken pool.submitters choice).map fun submitters =>
            { pool with submitters, workers := pool.workers.set worker (.running task) }
      | _ => none
  | .finish worker succeeded =>
      match pool.workers[worker]? with
      | some (.running task) => some (setWorker worker (pool, .finishing task succeeded))
      | _ => none
  | .account worker =>
      match pool.workers[worker]? with
      | some (.finishing task succeeded) =>
          some (setWorker worker (finishLocked task succeeded pool, .ready))
      | _ => none
  | .wakeWorker worker =>
      match pool.workers[worker]? with
      | some .waiting => some (setWorker worker (pool, .woken))
      | _ => none
  | .callShutdown => some { pool with shutdowns := pool.shutdowns ++ [.calling] }
  | .shutdown caller =>
      match pool.shutdowns[caller]? with
      | some .calling => some (setShutdown caller (shutdownLocked c pool))
      | _ => none
  | .notifyAllSpace caller =>
      match pool.shutdowns[caller]? with
      | some .notifyingSpace =>
          some (setShutdown caller
            ({ pool with submitters := notifyAll .waiting .woken pool.submitters }, .notifyingWork))
      | _ => none
  | .notifyAllWork caller =>
      match pool.shutdowns[caller]? with
      | some .notifyingWork =>
          some (setShutdown caller
            ({ pool with workers := notifyAll .waiting .woken pool.workers }, .joining 0))
      | _ => none
  | .join caller =>
      match pool.shutdowns[caller]? with
      | some (.joining worker) =>
          match pool.workers[worker]? with
          | some .exited => some (setShutdown caller (pool, .joining (worker + 1)))
          | some _ => none
          | none => some (setShutdown caller (pool, .returned))
      | _ => none

/-- **What a step can do.** -/
inductive Effect (c : Config) (pool : BoundedWorkerPool) : BoundedWorkerPool → Prop
  | calledSubmit (isEmpty : Bool) :
      Effect c pool { pool with submitters :=
        pool.submitters ++ [if isEmpty then .returned .emptyTask else .calling] }
  | accepted {i : ℕ} {a : SubmitPhase} (hat : pool.submitters[i]? = some a)
      (hphase : a = .calling ∨ a = .woken) (haccepting : pool.accepting = true)
      (hspace : pool.queue.length < c.config.queueCapacity) :
      Effect c pool (setSubmitter i (push pool))
  | refused {i : ℕ} {a : SubmitPhase} (hat : pool.submitters[i]? = some a)
      (hphase : a = .calling ∨ a = .woken) (haccepting : pool.accepting = false) :
      Effect c pool (setSubmitter i (pool, .returned .notAccepting))
  | rejected {i : ℕ} (hat : pool.submitters[i]? = some .calling)
      (hfull : c.config.queueCapacity ≤ pool.queue.length) :
      Effect c pool
        (setSubmitter i ({ pool with dropped := pool.dropped + 1 }, .returned .queueFull))
  | waitedForSpace {i : ℕ} {a : SubmitPhase} (hat : pool.submitters[i]? = some a)
      (hphase : a = .calling ∨ a = .woken) (haccepting : pool.accepting = true)
      (hfull : c.config.queueCapacity ≤ pool.queue.length) :
      Effect c pool (setSubmitter i (pool, .waiting))
  | notifiedWorker {i k : ℕ} (hat : pool.submitters[i]? = some .notifying)
      (hwaiter : pool.workers[k]? = some .waiting) :
      Effect c pool { pool with
        workers := pool.workers.set k .woken
        submitters := pool.submitters.set i (.returned .accepted) }
  | notifiedNoWorker {i : ℕ} (hat : pool.submitters[i]? = some .notifying)
      (hnone : WorkerPhase.waiting ∉ pool.workers) :
      Effect c pool { pool with submitters := pool.submitters.set i (.returned .accepted) }
  | submitterWoke {i : ℕ} (hat : pool.submitters[i]? = some .waiting) :
      Effect c pool (setSubmitter i (pool, .woken))
  | took {k task : ℕ} {queue : List ℕ} {a : WorkerPhase} (hat : pool.workers[k]? = some a)
      (hphase : a = .ready ∨ a = .woken) (hqueue : pool.queue = task :: queue) :
      Effect c pool (setWorker k
        ({ pool with
            queue
            active := pool.active + 1
            log := { pool.log with started := pool.log.started ++ [task] } }, .notifying task))
  | left {k : ℕ} {a : WorkerPhase} (hat : pool.workers[k]? = some a)
      (hphase : a = .ready ∨ a = .woken) (hstopping : pool.stopping = true)
      (hempty : pool.queue = []) : Effect c pool (setWorker k (pool, .exited))
  | waitedForWork {k : ℕ} {a : WorkerPhase} (hat : pool.workers[k]? = some a)
      (hphase : a = .ready ∨ a = .woken) (hstopping : pool.stopping = false)
      (hempty : pool.queue = []) : Effect c pool (setWorker k (pool, .waiting))
  | notifiedSubmitter {k task i : ℕ} (hat : pool.workers[k]? = some (.notifying task))
      (hwaiter : pool.submitters[i]? = some .waiting) :
      Effect c pool { pool with
        submitters := pool.submitters.set i .woken
        workers := pool.workers.set k (.running task) }
  | notifiedNoSubmitter {k task : ℕ} (hat : pool.workers[k]? = some (.notifying task))
      (hnone : SubmitPhase.waiting ∉ pool.submitters) :
      Effect c pool { pool with workers := pool.workers.set k (.running task) }
  | finished {k task : ℕ} (succeeded : Bool) (hat : pool.workers[k]? = some (.running task)) :
      Effect c pool (setWorker k (pool, .finishing task succeeded))
  | accounted {k task : ℕ} {succeeded : Bool}
      (hat : pool.workers[k]? = some (.finishing task succeeded)) :
      Effect c pool (setWorker k (finishLocked task succeeded pool, .ready))
  | workerWoke {k : ℕ} (hat : pool.workers[k]? = some .waiting) :
      Effect c pool (setWorker k (pool, .woken))
  | calledShutdown : Effect c pool { pool with shutdowns := pool.shutdowns ++ [.calling] }
  | drained {j : ℕ} (hat : pool.shutdowns[j]? = some .calling) (hrunning : pool.stopping = false) :
      Effect c pool
        (setShutdown j ({ pool with accepting := false, stopping := true }, .notifyingSpace))
  | discarded {j : ℕ} (hat : pool.shutdowns[j]? = some .calling) (hrunning : pool.stopping = false)
      (hpolicy : c.config.shutdownPolicy = .discardPending) :
      Effect c pool (setShutdown j
        ({ pool with
            accepting := false
            stopping := true
            dropped := pool.dropped + pool.queue.length
            queue := []
            log := { pool.log with discarded := pool.log.discarded ++ pool.queue } },
          .notifyingSpace))
  | foundStopping {j : ℕ} (hat : pool.shutdowns[j]? = some .calling)
      (hstopping : pool.stopping = true) : Effect c pool (setShutdown j (pool, .returned))
  | notifiedAllSpace {j : ℕ} (hat : pool.shutdowns[j]? = some .notifyingSpace) :
      Effect c pool (setShutdown j
        ({ pool with submitters := notifyAll .waiting .woken pool.submitters }, .notifyingWork))
  | notifiedAllWork {j : ℕ} (hat : pool.shutdowns[j]? = some .notifyingWork) :
      Effect c pool (setShutdown j
        ({ pool with workers := notifyAll .waiting .woken pool.workers }, .joining 0))
  | joined {j k : ℕ} (hat : pool.shutdowns[j]? = some (.joining k))
      (hexited : pool.workers[k]? = some .exited) :
      Effect c pool (setShutdown j (pool, .joining (k + 1)))
  | joinedAll {j k : ℕ} (hat : pool.shutdowns[j]? = some (.joining k))
      (hnone : pool.workers[k]? = none) : Effect c pool (setShutdown j (pool, .returned))

variable {c : Config} {pool : BoundedWorkerPool}

theorem awaitSpace_effect {i : ℕ} {a : SubmitPhase} (hat : pool.submitters[i]? = some a)
    (hphase : a = .calling ∨ a = .woken) : Effect c pool (setSubmitter i (awaitSpace c pool)) := by
  unfold awaitSpace
  cases haccepting : pool.accepting with
  | false => exact .refused hat hphase haccepting
  | true =>
    simp only [Bool.not_true, Bool.false_or, decide_eq_true_eq, Bool.false_eq_true, if_false]
    split
    · exact .accepted hat hphase haccepting ‹_›
    · exact .waitedForSpace hat hphase haccepting (not_lt.mp ‹_›)

theorem submitLocked_effect {i : ℕ} (hat : pool.submitters[i]? = some .calling) :
    Effect c pool (setSubmitter i (submitLocked c pool)) := by
  unfold submitLocked
  split
  · rename_i hrefused
    exact .refused hat (Or.inl rfl) (by simpa using hrefused)
  · rename_i haccepting
    split
    · exact awaitSpace_effect hat (Or.inl rfl)
    · split
      · exact .rejected hat ‹_›
      · exact .accepted hat (Or.inl rfl) (by simpa using haccepting) (not_le.mp ‹_›)

theorem takeLocked_effect {k : ℕ} {a : WorkerPhase} (hat : pool.workers[k]? = some a)
    (hphase : a = .ready ∨ a = .woken) : Effect c pool (setWorker k (takeLocked pool)) := by
  unfold takeLocked
  cases hqueue : pool.queue with
  | cons task queue =>
    simp only [List.isEmpty_cons, Bool.not_false, Bool.or_true, if_true]
    exact .took hat hphase hqueue
  | nil =>
    cases hstopping : pool.stopping with
    | true => exact .left hat hphase hstopping hqueue
    | false => exact .waitedForWork hat hphase hstopping hqueue

theorem shutdownLocked_effect {j : ℕ} (hat : pool.shutdowns[j]? = some .calling) :
    Effect c pool (setShutdown j (shutdownLocked c pool)) := by
  unfold shutdownLocked
  cases hstopping : pool.stopping with
  | true => exact .foundStopping hat hstopping
  | false =>
    cases hpolicy : c.config.shutdownPolicy with
    | drain => exact .drained hat hstopping
    | discardPending => exact .discarded hat hstopping hpolicy

/-- **Every step is one of them.** -/
theorem step_effect {action : Action} {next : BoundedWorkerPool}
    (h : step c pool action = some next) : Effect c pool next := by
  cases action with
  | callSubmit isEmpty =>
    obtain rfl := Option.some.inj h
    exact .calledSubmit isEmpty
  | submit i =>
    simp only [step] at h
    split at h
    · obtain rfl := Option.some.inj h
      exact submitLocked_effect ‹_›
    · obtain rfl := Option.some.inj h
      exact awaitSpace_effect ‹_› (Or.inr rfl)
    · cases h
  | notifyWork i choice =>
    simp only [step] at h
    split at h
    · obtain ⟨workers, hnotify, rfl⟩ := Option.map_eq_some_iff.mp h
      rcases notifyOne_eq_some hnotify with ⟨k, hwaiter, rfl⟩ | ⟨hnone, rfl⟩
      · exact .notifiedWorker ‹_› hwaiter
      · exact .notifiedNoWorker ‹_› hnone
    · cases h
  | wakeSubmitter i =>
    simp only [step] at h
    split at h
    · obtain rfl := Option.some.inj h
      exact .submitterWoke ‹_›
    · cases h
  | work k =>
    simp only [step] at h
    split at h
    · obtain rfl := Option.some.inj h
      exact takeLocked_effect ‹_› (Or.inl rfl)
    · obtain rfl := Option.some.inj h
      exact takeLocked_effect ‹_› (Or.inr rfl)
    · cases h
  | notifySpace k choice =>
    simp only [step] at h
    split at h
    · obtain ⟨submitters, hnotify, rfl⟩ := Option.map_eq_some_iff.mp h
      rcases notifyOne_eq_some hnotify with ⟨i, hwaiter, rfl⟩ | ⟨hnone, rfl⟩
      · exact .notifiedSubmitter ‹_› hwaiter
      · exact .notifiedNoSubmitter ‹_› hnone
    · cases h
  | finish k succeeded =>
    simp only [step] at h
    split at h
    · obtain rfl := Option.some.inj h
      exact .finished succeeded ‹_›
    · cases h
  | account k =>
    simp only [step] at h
    split at h
    · obtain rfl := Option.some.inj h
      exact .accounted ‹_›
    · cases h
  | wakeWorker k =>
    simp only [step] at h
    split at h
    · obtain rfl := Option.some.inj h
      exact .workerWoke ‹_›
    · cases h
  | callShutdown =>
    obtain rfl := Option.some.inj h
    exact .calledShutdown
  | shutdown j =>
    simp only [step] at h
    split at h
    · obtain rfl := Option.some.inj h
      exact shutdownLocked_effect ‹_›
    · cases h
  | notifyAllSpace j =>
    simp only [step] at h
    split at h
    · obtain rfl := Option.some.inj h
      exact .notifiedAllSpace ‹_›
    · cases h
  | notifyAllWork j =>
    simp only [step] at h
    split at h
    · obtain rfl := Option.some.inj h
      exact .notifiedAllWork ‹_›
    · cases h
  | join j =>
    simp only [step] at h
    split at h
    · split at h
      · obtain rfl := Option.some.inj h
        exact .joined ‹_› ‹_›
      · cases h
      · obtain rfl := Option.some.inj h
        exact .joinedAll ‹_› ‹_›
    · cases h

end BoundedWorkerPool

end FacLpr

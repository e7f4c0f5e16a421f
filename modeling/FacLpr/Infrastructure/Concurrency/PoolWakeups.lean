import FacLpr.Infrastructure.Concurrency.PoolConservation

/-!
# Infrastructure/Concurrency/PoolWakeups — no wakeup is lost

While the pool runs, a pending task is an item for the workers and a free place of the queue one for
the submitters, and each is announced once: the accounting of `Wakeups`, twice.  Shutdown ends both
by waking everybody, so a waiter of a stopping pool has a shutdown on its way to it.
-/

namespace FacLpr

/-- Between the lock and the notification. -/
def WorkerPhase.isNotifying : WorkerPhase → Bool
  | .notifying _ => true
  | _ => false

namespace BoundedWorkerPool

/-- The threads around `work_available_`. -/
def workWakeups (pool : BoundedWorkerPool) : Wakeups where
  available := pool.queue.length
  waiting := pool.workers.countP (· == .waiting)
  woken := pool.workers.countP (· == .woken)
  pending := pool.submitters.countP (· == .notifying)

/-- The threads around `queue_space_available_`. -/
def spaceWakeups (c : Config) (pool : BoundedWorkerPool) : Wakeups where
  available := c.config.queueCapacity - pool.queue.length
  waiting := pool.submitters.countP (· == .waiting)
  woken := pool.submitters.countP (· == .woken)
  pending := pool.workers.countP WorkerPhase.isNotifying

variable {c : Config} {pool : BoundedWorkerPool}

/-! ## The accounting of a running pool -/

theorem countP_submitters {i : ℕ} {a : SubmitPhase} (hat : pool.submitters[i]? = some a)
    (b : SubmitPhase) :
    (pool.submitters.set i b).countP (· == .waiting) + (a == .waiting).toNat =
        pool.submitters.countP (· == .waiting) + (b == .waiting).toNat ∧
      (pool.submitters.set i b).countP (· == .woken) + (a == .woken).toNat =
        pool.submitters.countP (· == .woken) + (b == .woken).toNat ∧
      (pool.submitters.set i b).countP (· == .notifying) + (a == .notifying).toNat =
        pool.submitters.countP (· == .notifying) + (b == .notifying).toNat :=
  ⟨countP_set_add hat b _, countP_set_add hat b _, countP_set_add hat b _⟩

theorem countP_workers {k : ℕ} {a : WorkerPhase} (hat : pool.workers[k]? = some a)
    (b : WorkerPhase) :
    (pool.workers.set k b).countP (· == .waiting) + (a == .waiting).toNat =
        pool.workers.countP (· == .waiting) + (b == .waiting).toNat ∧
      (pool.workers.set k b).countP (· == .woken) + (a == .woken).toNat =
        pool.workers.countP (· == .woken) + (b == .woken).toNat ∧
      (pool.workers.set k b).countP WorkerPhase.isNotifying + a.isNotifying.toNat =
        pool.workers.countP WorkerPhase.isNotifying + b.isNotifying.toNat :=
  ⟨countP_set_add hat b _, countP_set_add hat b _, countP_set_add hat b _⟩

/-- **Every step of a running pool** is a step of both accounts. -/
theorem wakeups_effect {next : BoundedWorkerPool} (h : Inv c pool) (heffect : Effect c pool next)
    (hrunning : next.stopping = false) (hwork : (workWakeups pool).NoneLost)
    (hspace : (spaceWakeups c pool).NoneLost) :
    (workWakeups next).NoneLost ∧ (spaceWakeups c next).NoneLost := by
  have hpending := h.pending
  cases heffect with
  | calledSubmit isEmpty =>
    have hcount : ∀ phase : SubmitPhase, phase = .waiting ∨ phase = .woken ∨ phase = .notifying →
        (pool.submitters ++ [if isEmpty then SubmitPhase.returned .emptyTask else .calling]).countP
          (· == phase) = pool.submitters.countP (· == phase) := by
      rintro phase (rfl | rfl | rfl) <;> cases isEmpty <;> exact List.countP_append
    exact ⟨Wakeups.noneLost_step hwork (.other rfl rfl rfl (hcount _ (by simp))),
      Wakeups.noneLost_step hspace (.other rfl (hcount _ (by simp)) (hcount _ (by simp)) rfl)⟩
  | @accepted i a hat hphase haccepting hroom =>
    have hlength : (pool.queue ++ [pool.submitted]).length = pool.queue.length + 1 :=
      List.length_append
    have hplaces : c.config.queueCapacity - (pool.queue ++ [pool.submitted]).length + 1 =
        c.config.queueCapacity - pool.queue.length := by
      omega
    rcases hphase with rfl | rfl
    · obtain ⟨hwaiting, hwoken, hnotifying⟩ : _ + 0 = _ + 0 ∧ _ + 0 = _ + 0 ∧ _ + 0 = _ + 1 :=
        countP_submitters hat .notifying
      exact ⟨Wakeups.noneLost_step hwork (.produce hlength rfl rfl hnotifying),
        Wakeups.noneLost_step hspace (.take hplaces hwaiting hwoken rfl)⟩
    · obtain ⟨hwaiting, hwoken, hnotifying⟩ : _ + 0 = _ + 0 ∧ _ + 1 = _ + 0 ∧ _ + 0 = _ + 1 :=
        countP_submitters hat .notifying
      exact ⟨Wakeups.noneLost_step hwork (.produce hlength rfl rfl hnotifying),
        Wakeups.noneLost_step hspace (.takeWoken hplaces hwaiting hwoken rfl)⟩
  | refused hat hphase haccepting =>
    rw [h.accepting, show pool.stopping = false from hrunning] at haccepting
    cases haccepting
  | rejected hat hfull =>
    obtain ⟨hwaiting, hwoken, hnotifying⟩ : _ + 0 = _ + 0 ∧ _ + 0 = _ + 0 ∧ _ + 0 = _ + 0 :=
      countP_submitters hat (.returned .queueFull)
    exact ⟨Wakeups.noneLost_step hwork (.other rfl rfl rfl hnotifying),
      Wakeups.noneLost_step hspace (.other rfl hwaiting hwoken rfl)⟩
  | @waitedForSpace i a hat hphase haccepting hfull =>
    have hnone : c.config.queueCapacity - pool.queue.length = 0 := Nat.sub_eq_zero_of_le hfull
    have hnotifying : (pool.submitters.set i .waiting).countP (· == .notifying) =
        pool.submitters.countP (· == .notifying) := by
      rcases hphase with rfl | rfl <;> exact (countP_submitters hat .waiting).2.2
    exact ⟨Wakeups.noneLost_step hwork (.other rfl rfl rfl hnotifying),
      Wakeups.noneLost_step hspace (.sleep hnone rfl rfl)⟩
  | notifiedWorker hat hwaiter =>
    obtain ⟨hwaiting, hwoken, hnotifying⟩ : _ + 0 = _ + 0 ∧ _ + 0 = _ + 0 ∧ _ + 1 = _ + 0 :=
      countP_submitters hat (.returned .accepted)
    obtain ⟨hwaiting', hwoken', hnotifying'⟩ : _ + 1 = _ + 0 ∧ _ + 0 = _ + 1 ∧ _ + 0 = _ + 0 :=
      countP_workers hwaiter .woken
    exact ⟨Wakeups.noneLost_step hwork (.wake rfl hwaiting' hwoken' hnotifying.ge),
      Wakeups.noneLost_step hspace (.other rfl hwaiting hwoken hnotifying')⟩
  | notifiedNoWorker hat hnone =>
    obtain ⟨hwaiting, hwoken, hnotifying⟩ : _ + 0 = _ + 0 ∧ _ + 0 = _ + 0 ∧ _ + 1 = _ + 0 :=
      countP_submitters hat (.returned .accepted)
    exact ⟨Wakeups.noneLost_step hwork
        (.unheard rfl (countP_beq_eq_zero hnone) (countP_beq_eq_zero hnone)),
      Wakeups.noneLost_step hspace (.other rfl hwaiting hwoken rfl)⟩
  | submitterWoke hat =>
    obtain ⟨hwaiting, hwoken, hnotifying⟩ : _ + 1 = _ + 0 ∧ _ + 0 = _ + 1 ∧ _ + 0 = _ + 0 :=
      countP_submitters hat .woken
    exact ⟨Wakeups.noneLost_step hwork (.other rfl rfl rfl hnotifying),
      Wakeups.noneLost_step hspace (.wake rfl hwaiting hwoken (Nat.le_succ _))⟩
  | @took k task queue a hat hphase hqueue =>
    have hlength : queue.length + 1 = pool.queue.length := by rw [hqueue, List.length_cons]
    have hplaces : c.config.queueCapacity - queue.length =
        c.config.queueCapacity - pool.queue.length + 1 := by
      omega
    rcases hphase with rfl | rfl
    · obtain ⟨hwaiting, hwoken, hnotifying⟩ : _ + 0 = _ + 0 ∧ _ + 0 = _ + 0 ∧ _ + 0 = _ + 1 :=
        countP_workers hat (.notifying task)
      exact ⟨Wakeups.noneLost_step hwork (.take hlength hwaiting hwoken rfl),
        Wakeups.noneLost_step hspace (.produce hplaces rfl rfl hnotifying)⟩
    · obtain ⟨hwaiting, hwoken, hnotifying⟩ : _ + 0 = _ + 0 ∧ _ + 1 = _ + 0 ∧ _ + 0 = _ + 1 :=
        countP_workers hat (.notifying task)
      exact ⟨Wakeups.noneLost_step hwork (.takeWoken hlength hwaiting hwoken rfl),
        Wakeups.noneLost_step hspace (.produce hplaces rfl rfl hnotifying)⟩
  | left hat hphase hstopping => cases hstopping.symm.trans hrunning
  | @waitedForWork k a hat hphase hstopping hempty =>
    have hnone : pool.queue.length = 0 := by rw [hempty, List.length_nil]
    have hnotifying : (pool.workers.set k .waiting).countP WorkerPhase.isNotifying =
        pool.workers.countP WorkerPhase.isNotifying := by
      rcases hphase with rfl | rfl <;> exact (countP_workers hat .waiting).2.2
    exact ⟨Wakeups.noneLost_step hwork (.sleep hnone rfl rfl),
      Wakeups.noneLost_step hspace (.other rfl rfl rfl hnotifying)⟩
  | @notifiedSubmitter k task i hat hwaiter =>
    obtain ⟨hwaiting, hwoken, hnotifying⟩ : _ + 0 = _ + 0 ∧ _ + 0 = _ + 0 ∧ _ + 1 = _ + 0 :=
      countP_workers hat (.running task)
    obtain ⟨hwaiting', hwoken', hnotifying'⟩ : _ + 1 = _ + 0 ∧ _ + 0 = _ + 1 ∧ _ + 0 = _ + 0 :=
      countP_submitters hwaiter .woken
    exact ⟨Wakeups.noneLost_step hwork (.other rfl hwaiting hwoken hnotifying'),
      Wakeups.noneLost_step hspace (.wake rfl hwaiting' hwoken' hnotifying.ge)⟩
  | @notifiedNoSubmitter k task hat hnone =>
    obtain ⟨hwaiting, hwoken, hnotifying⟩ : _ + 0 = _ + 0 ∧ _ + 0 = _ + 0 ∧ _ + 1 = _ + 0 :=
      countP_workers hat (.running task)
    exact ⟨Wakeups.noneLost_step hwork (.other rfl hwaiting hwoken rfl),
      Wakeups.noneLost_step hspace
        (.unheard rfl (countP_beq_eq_zero hnone) (countP_beq_eq_zero hnone))⟩
  | @finished k task succeeded hat =>
    obtain ⟨hwaiting, hwoken, hnotifying⟩ : _ + 0 = _ + 0 ∧ _ + 0 = _ + 0 ∧ _ + 0 = _ + 0 :=
      countP_workers hat (.finishing task succeeded)
    exact ⟨Wakeups.noneLost_step hwork (.other rfl hwaiting hwoken rfl),
      Wakeups.noneLost_step hspace (.other rfl rfl rfl hnotifying)⟩
  | accounted hat =>
    obtain ⟨hwaiting, hwoken, hnotifying⟩ : _ + 0 = _ + 0 ∧ _ + 0 = _ + 0 ∧ _ + 0 = _ + 0 :=
      countP_workers hat .ready
    exact ⟨Wakeups.noneLost_step hwork (.other rfl hwaiting hwoken rfl),
      Wakeups.noneLost_step hspace (.other rfl rfl rfl hnotifying)⟩
  | workerWoke hat =>
    obtain ⟨hwaiting, hwoken, hnotifying⟩ : _ + 1 = _ + 0 ∧ _ + 0 = _ + 1 ∧ _ + 0 = _ + 0 :=
      countP_workers hat .woken
    exact ⟨Wakeups.noneLost_step hwork (.wake rfl hwaiting hwoken (Nat.le_succ _)),
      Wakeups.noneLost_step hspace (.other rfl rfl rfl hnotifying)⟩
  | calledShutdown => exact ⟨hwork, hspace⟩
  | drained => cases hrunning
  | discarded => cases hrunning
  | foundStopping hat hstopping => cases hstopping.symm.trans hrunning
  | notifiedAllSpace hat =>
    have hnone : SubmitPhase.waiting ∉ notifyAll .waiting .woken pool.submitters :=
      notMem_notifyAll (by decide) _
    exact ⟨Wakeups.noneLost_step hwork (.other rfl rfl rfl (countP_notifyAll (by rfl) _)),
      Wakeups.noneLost_of_waiting (countP_beq_eq_zero hnone)⟩
  | notifiedAllWork hat =>
    have hnone : WorkerPhase.waiting ∉ notifyAll .waiting .woken pool.workers :=
      notMem_notifyAll (by decide) _
    exact ⟨Wakeups.noneLost_of_waiting (countP_beq_eq_zero hnone),
      Wakeups.noneLost_step hspace (.other rfl rfl rfl (countP_notifyAll (by rfl) _))⟩
  | joined => exact ⟨hwork, hspace⟩
  | joinedAll => exact ⟨hwork, hspace⟩

/-! ## The waiters of a stopping pool -/

/-- A waiter of a stopping pool has a shutdown on its way to wake it. -/
structure Woken (pool : BoundedWorkerPool) : Prop where
  work : pool.stopping = true → WorkerPhase.waiting ∈ pool.workers →
    ShutdownPhase.notifyingSpace ∈ pool.shutdowns ∨ ShutdownPhase.notifyingWork ∈ pool.shutdowns
  space : pool.stopping = true → SubmitPhase.waiting ∈ pool.submitters →
    ShutdownPhase.notifyingSpace ∈ pool.shutdowns

theorem Woken.setSubmitter (h : Woken pool) {i : ℕ} {b : SubmitPhase} (hb : b ≠ .waiting) :
    Woken (setSubmitter i (pool, b)) where
  work := h.work
  space hstopping hwaiting := h.space hstopping (mem_of_mem_set hwaiting hb.symm)

theorem Woken.setWorker (h : Woken pool) {k : ℕ} {b : WorkerPhase} (hb : b ≠ .waiting) :
    Woken (setWorker k (pool, b)) where
  work hstopping hwaiting := h.work hstopping (mem_of_mem_set hwaiting hb.symm)
  space := h.space

/-- A call of shutdown that notifies nobody may move. -/
theorem Woken.setShutdown (h : Woken pool) {j : ℕ} {a b : ShutdownPhase}
    (hat : pool.shutdowns[j]? = some a) (hspace : a ≠ .notifyingSpace)
    (hwork : a ≠ .notifyingWork) :
    Woken (setShutdown j (pool, b)) where
  work hstopping hwaiting := (h.work hstopping hwaiting).imp
    (mem_set_of_ne hat b · hspace.symm) (mem_set_of_ne hat b · hwork.symm)
  space hstopping hwaiting := mem_set_of_ne hat b (h.space hstopping hwaiting) hspace.symm

theorem woken_effect {next : BoundedWorkerPool} (hinv : Inv c pool) (h : Woken pool)
    (heffect : Effect c pool next) : Woken next := by
  cases heffect with
  | calledSubmit isEmpty =>
    refine ⟨h.work, fun hstopping hwaiting => h.space hstopping ?_⟩
    rcases List.mem_append.mp hwaiting with hwaiting | hwaiting
    · exact hwaiting
    · cases isEmpty <;> cases List.mem_singleton.mp hwaiting
  | accepted => exact { h.setSubmitter (b := .notifying) nofun with }
  | refused => exact h.setSubmitter nofun
  | rejected => exact { h.setSubmitter (b := .returned .queueFull) nofun with }
  | waitedForSpace hat hphase haccepting =>
    have hrunning := hinv.not_stopping haccepting
    exact ⟨fun hstopping => absurd hstopping hrunning, fun hstopping => absurd hstopping hrunning⟩
  | notifiedWorker => exact (h.setWorker (b := .woken) nofun).setSubmitter nofun
  | notifiedNoWorker => exact h.setSubmitter nofun
  | submitterWoke => exact h.setSubmitter nofun
  | @took k task => exact { h.setWorker (b := .notifying task) nofun with }
  | left => exact h.setWorker nofun
  | waitedForWork hat hphase hrunning =>
    have hrunning : pool.stopping ≠ true := by
      rw [hrunning]
      exact nofun
    exact ⟨fun hstopping => absurd hstopping hrunning, fun hstopping => absurd hstopping hrunning⟩
  | notifiedSubmitter => exact (h.setSubmitter (b := .woken) nofun).setWorker nofun
  | notifiedNoSubmitter => exact h.setWorker nofun
  | finished => exact h.setWorker nofun
  | accounted => exact { h.setWorker (b := .ready) nofun with }
  | workerWoke => exact h.setWorker nofun
  | calledShutdown =>
    exact ⟨fun hstopping hwaiting => (h.work hstopping hwaiting).imp (List.mem_append_left _)
        (List.mem_append_left _),
      fun hstopping hwaiting => List.mem_append_left _ (h.space hstopping hwaiting)⟩
  | drained hat =>
    exact ⟨fun _ _ => Or.inl (mem_set_self hat _), fun _ _ => mem_set_self hat _⟩
  | discarded hat =>
    exact ⟨fun _ _ => Or.inl (mem_set_self hat _), fun _ _ => mem_set_self hat _⟩
  | foundStopping hat => exact h.setShutdown hat nofun nofun
  | notifiedAllSpace hat =>
    exact ⟨fun _ _ => Or.inr (mem_set_self hat _),
      fun _ hwaiting => absurd hwaiting (notMem_notifyAll (by decide) _)⟩
  | notifiedAllWork hat =>
    exact ⟨fun _ hwaiting => absurd hwaiting (notMem_notifyAll (by decide) _),
      fun hstopping hwaiting => mem_set_of_ne hat _ (h.space hstopping hwaiting) nofun⟩
  | joined hat => exact h.setShutdown hat nofun nofun
  | joinedAll hat => exact h.setShutdown hat nofun nofun

/-! ## Every run -/

/-- What every state of a run satisfies. -/
structure WakeupInv (c : Config) (pool : BoundedWorkerPool) : Prop where
  inv : Inv c pool
  running : pool.stopping = false → (workWakeups pool).NoneLost ∧ (spaceWakeups c pool).NoneLost
  stopping : Woken pool

/-- Once stopping, always stopping. -/
theorem stopping_effect {next : BoundedWorkerPool} (heffect : Effect c pool next)
    (h : pool.stopping = true) : next.stopping = true := by
  cases heffect <;> first | exact h | rfl

theorem wakeupInv_initial (c : Config) : WakeupInv c (initial c) where
  inv := inv_initial c
  running _ := by
    have hnone : WorkerPhase.waiting ∉ (initial c).workers := fun h => by
      cases List.eq_of_mem_replicate h
    exact ⟨Wakeups.noneLost_of_waiting (countP_beq_eq_zero hnone), Wakeups.noneLost_of_waiting rfl⟩
  stopping := ⟨nofun, nofun⟩

theorem wakeupInv_effect {next : BoundedWorkerPool} (h : WakeupInv c pool)
    (heffect : Effect c pool next) : WakeupInv c next where
  inv := inv_effect h.inv heffect
  running hrunning := by
    have hbefore : pool.stopping = false := by
      cases hstopping : pool.stopping with
      | false => rfl
      | true => cases (stopping_effect heffect hstopping).symm.trans hrunning
    obtain ⟨hwork, hspace⟩ := h.running hbefore
    exact wakeups_effect h.inv heffect hrunning hwork hspace
  stopping := woken_effect h.inv h.stopping heffect

/-- No thread stands between its critical section and its notification, and no woken thread has yet
to look. -/
structure Settled (pool : BoundedWorkerPool) : Prop where
  submitters : SubmitPhase.notifying ∉ pool.submitters ∧ SubmitPhase.woken ∉ pool.submitters
  workers : (∀ task, WorkerPhase.notifying task ∉ pool.workers) ∧ WorkerPhase.woken ∉ pool.workers
  shutdowns : ShutdownPhase.notifyingSpace ∉ pool.shutdowns ∧
    ShutdownPhase.notifyingWork ∉ pool.shutdowns

/-- **No lost wakeup.**  In every settled state of every interleaving no worker waits while a task
is pending, and a submitter waits only for a place in a full queue of a pool that accepts. -/
theorem no_lost_wakeup (c : Config) (actions : List Action) {pool : BoundedWorkerPool}
    (h : runSteps (step c) (initial c) actions = some pool) (hsettled : Settled pool) :
    (pool.queue ≠ [] → WorkerPhase.waiting ∉ pool.workers) ∧
      (SubmitPhase.waiting ∈ pool.submitters →
        pool.queue.length = c.config.queueCapacity ∧ pool.accepting = true) := by
  have hinv : WakeupInv c pool := runSteps_invariant
    (fun _ _ _ hinv hstep => wakeupInv_effect hinv (step_effect hstep)) (wakeupInv_initial c) h
  obtain ⟨⟨hnotifying, hwoken⟩, ⟨hnotifying', hwoken'⟩, hspace, hwork⟩ := hsettled
  have hpending : pool.workers.countP WorkerPhase.isNotifying = 0 := by
    refine List.countP_eq_zero.mpr fun phase hphase => ?_
    cases phase with
    | notifying task => exact absurd hphase (hnotifying' task)
    | _ => exact Bool.false_ne_true
  constructor
  · intro hqueue hwaiting
    cases hstopping : pool.stopping with
    | true => exact (hinv.stopping.work hstopping hwaiting).elim hspace hwork
    | false =>
      have hlost := (hinv.running hstopping).1
        (List.countP_pos_iff.mpr ⟨_, hwaiting, beq_self_eq_true _⟩)
      simp only [workWakeups, countP_beq_eq_zero hnotifying, countP_beq_eq_zero hwoken'] at hlost
      exact hqueue (List.eq_nil_of_length_eq_zero (Nat.le_zero.mp hlost))
  · intro hwaiting
    cases hstopping : pool.stopping with
    | true => exact absurd (hinv.stopping.space hstopping hwaiting) hspace
    | false =>
      have hlost := (hinv.running hstopping).2
        (List.countP_pos_iff.mpr ⟨_, hwaiting, beq_self_eq_true _⟩)
      simp only [spaceWakeups, hpending, countP_beq_eq_zero hwoken] at hlost
      have hbound := hinv.inv.pending
      refine ⟨by omega, ?_⟩
      rw [hinv.inv.accepting, hstopping]
      rfl

/-- One worker, one place in the queue, and submitters that wait for it. -/
def blocking : Config := ⟨{ queueCapacity := 1, fullPolicy := .block }, by decide⟩

/-- A task runs, one is pending, and the third submitter waits. -/
def threeTasks : List Action :=
  [.callSubmit false, .submit 0, .notifyWork 0 none, .work 0, .notifySpace 0 none,
    .callSubmit false, .submit 1, .notifyWork 1 none, .callSubmit false, .submit 2]

theorem no_lost_wakeup_threeTasks : ∃ pool,
    runSteps (step blocking) (initial blocking) threeTasks = some pool ∧
      SubmitPhase.waiting ∈ pool.submitters ∧
      pool.queue.length = blocking.config.queueCapacity ∧ pool.accepting = true := by
  refine ⟨_, rfl, by decide, (no_lost_wakeup blocking threeTasks rfl ?_).2 (by decide)⟩
  refine ⟨by decide, ⟨fun task htask => ?_, by decide⟩, by decide⟩
  cases List.mem_singleton.mp htask

end BoundedWorkerPool

end FacLpr

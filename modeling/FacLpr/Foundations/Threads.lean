import Mathlib.Data.List.Perm.Basic

/-!
# Foundations/Threads — threads, and the condition variables they wait on

A thread is the phase its call has reached, and the threads of a monitor are a list of phases: a
step sets the phase of one of them.  What a step does to a count of phases (`countP_set_add`) or to
what the threads hold (`perm_filterMap_set`) is said once.

The waiters of a condition variable are the threads at one phase.  `notify_one` moves one of them,
chosen by the scheduler, and `notify_all` all of them.  With a notification for each item made
available, a thread waits while an item is there only if somebody is on the way to it
(`Wakeups.Step`, `Wakeups.noneLost_step`).
-/

namespace FacLpr

variable {φ β : Type*}

/-! ## One thread moves -/

theorem countP_set_add {threads : List φ} {i : ℕ} {a : φ} (h : threads[i]? = some a) (b : φ)
    (p : φ → Bool) :
    (threads.set i b).countP p + (p a).toNat = threads.countP p + (p b).toNat := by
  induction threads generalizing i with
  | nil => simp at h
  | cons c threads ih =>
    cases i with
    | zero =>
      obtain rfl := Option.some.inj h
      rw [List.set_cons_zero, List.countP_cons, List.countP_cons]
      cases p c <;> cases p b <;> simp
    | succ i =>
      have hrest := ih (i := i) (by simpa using h)
      rw [List.set_cons_succ, List.countP_cons, List.countP_cons]
      omega

/-- The threads that do not move are still there. -/
theorem mem_set_of_ne {threads : List φ} {i : ℕ} {a x : φ} (h : threads[i]? = some a) (b : φ)
    (hx : x ∈ threads) (hne : x ≠ a) : x ∈ threads.set i b := by
  obtain ⟨k, hk⟩ := List.mem_iff_getElem?.mp hx
  have hik : i ≠ k := by
    rintro rfl
    exact hne (Option.some.inj (hk.symm.trans h))
  exact List.mem_of_getElem? ((List.getElem?_set_ne hik).trans hk)

theorem mem_set_self {threads : List φ} {i : ℕ} {a : φ} (h : threads[i]? = some a) (b : φ) :
    b ∈ threads.set i b :=
  List.mem_set (List.getElem?_eq_some_iff.mp h).1 b

/-- A thread that moves away from a phase leaves no new thread at it. -/
theorem mem_of_mem_set {threads : List φ} {i : ℕ} {b x : φ} (hx : x ∈ threads.set i b)
    (hne : x ≠ b) : x ∈ threads :=
  (List.mem_or_eq_of_mem_set hx).resolve_right hne

/-- **What the threads hold**, when one of them moves. -/
theorem perm_filterMap_set {threads : List φ} {i : ℕ} {a : φ} (h : threads[i]? = some a) (b : φ)
    (f : φ → Option β) :
    ((f a).toList ++ (threads.set i b).filterMap f).Perm ((f b).toList ++ threads.filterMap f) := by
  induction threads generalizing i with
  | nil => simp at h
  | cons c threads ih =>
    cases i with
    | zero =>
      obtain rfl := Option.some.inj h
      rw [List.set_cons_zero, List.filterMap_cons, List.filterMap_cons]
      cases f c <;> cases f b <;> simp [List.Perm.swap]
    | succ i =>
      have hrest := ih (i := i) (by simpa using h)
      rw [List.set_cons_succ, List.filterMap_cons, List.filterMap_cons]
      cases f c with
      | none => exact hrest
      | some x => exact List.perm_middle.trans ((hrest.cons x).trans List.perm_middle.symm)

/-- The same, when a thread holds any number of things. -/
theorem perm_flatMap_set {threads : List φ} {i : ℕ} {a : φ} (h : threads[i]? = some a) (b : φ)
    (f : φ → List β) :
    (f a ++ (threads.set i b).flatMap f).Perm (f b ++ threads.flatMap f) := by
  induction threads generalizing i with
  | nil => simp at h
  | cons c threads ih =>
    cases i with
    | zero =>
      obtain rfl := Option.some.inj h
      rw [List.set_cons_zero, List.flatMap_cons, List.flatMap_cons, ← List.append_assoc,
        ← List.append_assoc]
      exact List.perm_append_comm.append_right _
    | succ i =>
      have hrest := ih (i := i) (by simpa using h)
      rw [List.set_cons_succ, List.flatMap_cons, List.flatMap_cons]
      exact List.perm_append_comm_assoc _ _ _ |>.trans
        ((hrest.append_left (f c)).trans (List.perm_append_comm_assoc _ _ _))

/-! ## Notifications -/

section Notify

variable [DecidableEq φ]

/-- Wake one thread: the chosen waiter, or none if there is none. -/
def notifyOne (waiting woken : φ) (threads : List φ) : Option ℕ → Option (List φ)
  | some i => if threads[i]? = some waiting then some (threads.set i woken) else none
  | none => if waiting ∈ threads then none else some threads

/-- Wake every waiter. -/
def notifyAll (waiting woken : φ) (threads : List φ) : List φ :=
  threads.map fun phase => if phase = waiting then woken else phase

/-- **One notification** wakes a waiter, unless there is none. -/
theorem notifyOne_eq_some {waiting woken : φ} {threads threads' : List φ} {choice : Option ℕ}
    (h : notifyOne waiting woken threads choice = some threads') :
    (∃ i, threads[i]? = some waiting ∧ threads' = threads.set i woken) ∨
      (waiting ∉ threads ∧ threads' = threads) := by
  cases choice with
  | some i =>
    simp only [notifyOne, Option.ite_none_right_eq_some, Option.some.injEq] at h
    exact Or.inl ⟨i, h.1, h.2.symm⟩
  | none =>
    simp only [notifyOne, Option.ite_none_left_eq_some, Option.some.injEq] at h
    exact Or.inr ⟨h.1, h.2.symm⟩

/-- Nobody is at a phase no thread has. -/
theorem countP_beq_eq_zero {phase : φ} {threads : List φ} (h : phase ∉ threads) :
    threads.countP (· == phase) = 0 :=
  List.countP_eq_zero.mpr fun _ ha heq => h (eq_of_beq heq ▸ ha)

theorem countP_notifyAll {waiting woken : φ} {p : φ → Bool} (h : p woken = p waiting)
    (threads : List φ) : (notifyAll waiting woken threads).countP p = threads.countP p := by
  rw [notifyAll, List.countP_map]
  congr 1
  funext phase
  simp only [Function.comp_apply]
  split
  · rename_i heq
    rw [heq, h]
  · rfl

theorem filterMap_notifyAll {waiting woken : φ} {f : φ → Option β} (h : f woken = f waiting)
    (threads : List φ) : (notifyAll waiting woken threads).filterMap f = threads.filterMap f := by
  rw [notifyAll, List.filterMap_map]
  congr 1
  funext phase
  simp only [Function.comp_apply]
  split
  · rename_i heq
    rw [heq, h]
  · rfl

/-- Nobody waits any more. -/
theorem notMem_notifyAll {waiting woken : φ} (h : woken ≠ waiting) (threads : List φ) :
    waiting ∉ notifyAll waiting woken threads := by
  intro hmem
  obtain ⟨phase, -, heq⟩ := List.mem_map.mp hmem
  split at heq
  · exact h heq
  · rename_i hne
    exact hne heq

end Notify

/-! ## No lost wakeup

The items one condition variable is about, the threads that wait on it, the ones woken that have yet
to look, and the notifications still to be made. -/

structure Wakeups where
  available : ℕ
  waiting : ℕ
  woken : ℕ
  pending : ℕ

namespace Wakeups

/-- A step of the threads around one condition variable. -/
inductive Step (t t' : Wakeups) : Prop
  /-- An item is made available, and a notification is due. -/
  | produce (available : t'.available = t.available + 1) (waiting : t'.waiting = t.waiting)
      (woken : t'.woken = t.woken) (pending : t'.pending = t.pending + 1)
  /-- A thread that did not wait takes an item. -/
  | take (available : t'.available + 1 = t.available) (waiting : t'.waiting = t.waiting)
      (woken : t'.woken = t.woken) (pending : t'.pending = t.pending)
  /-- A woken thread takes an item. -/
  | takeWoken (available : t'.available + 1 = t.available) (waiting : t'.waiting = t.waiting)
      (woken : t'.woken + 1 = t.woken) (pending : t'.pending = t.pending)
  /-- A thread finds nothing and waits. -/
  | sleep (none : t.available = 0) (available : t'.available = t.available)
      (pending : t'.pending = t.pending)
  /-- A waiter is woken, by a notification or by itself. -/
  | wake (available : t'.available = t.available) (waiting : t'.waiting + 1 = t.waiting)
      (woken : t'.woken = t.woken + 1) (pending : t.pending ≤ t'.pending + 1)
  /-- A notification finds no waiter. -/
  | unheard (available : t'.available = t.available) (waiting : t.waiting = 0)
      (still : t'.waiting = 0)
  /-- Anything else. -/
  | other (available : t'.available = t.available) (waiting : t'.waiting = t.waiting)
      (woken : t'.woken = t.woken) (pending : t'.pending = t.pending)

/-- Somebody waits only if every item has a notification or a woken thread on the way. -/
def NoneLost (t : Wakeups) : Prop := 0 < t.waiting → t.available ≤ t.pending + t.woken

theorem noneLost_of_waiting {t : Wakeups} (h : t.waiting = 0) : NoneLost t := by
  intro hwaiting
  omega

/-- **No wakeup is lost.** -/
theorem noneLost_step {t t' : Wakeups} (h : NoneLost t) (hstep : Step t t') : NoneLost t' := by
  intro hwaiting
  cases hstep with
  | produce available waiting woken pending =>
    have := h (by omega)
    omega
  | take available waiting woken pending =>
    have := h (by omega)
    omega
  | takeWoken available waiting woken pending =>
    have := h (by omega)
    omega
  | sleep none available pending => omega
  | wake available waiting woken pending =>
    have := h (by omega)
    omega
  | unheard available waiting still => omega
  | other available waiting woken pending =>
    have := h (by omega)
    omega

end Wakeups

end FacLpr

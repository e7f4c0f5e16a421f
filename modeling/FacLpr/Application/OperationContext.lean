import FacLpr.Application.Error
import FacLpr.Foundations.Run
import FacLpr.Foundations.Scalar

/-!
# Application/OperationContext — the clock, the deadline and the stop request

A run of the engine is a program over a world it does not control: other threads, the clock, and
whatever its providers keep.  The stop token of a call is shared by every context made from it, so
it is read from the world; a context carries its deadline.  The timing sink is left out, since the
ensemble hands its recognizers none.
-/

namespace FacLpr

/-- What the engine reads of its surroundings. -/
class World (σ : Type) where
  /-- `std::chrono::steady_clock::now`, in nanoseconds. -/
  now : σ → ℤ × σ
  /-- `std::stop_token::stop_requested`. -/
  stopRequested : σ → Bool × σ

/-- A world whose clock stands still. -/
inductive Frozen where
  | frozen

instance : World Frozen := ⟨fun s => (0, s), fun s => (false, s)⟩

/-- A world with something kept beside it. -/
instance {σ κ : Type} [World σ] : World (σ × κ) where
  now := fun (s, c) => ((World.now s).1, (World.now s).2, c)
  stopRequested := fun (s, c) => ((World.stopRequested s).1, (World.stopRequested s).2, c)

/-- A run that may throw an exception of the engine, or a foreign one. -/
abbrev Run (σ α : Type) := Program Exn σ α

structure OperationContext where
  deadline : Option ℤ

variable {σ F D : Type}

/-- Throw an error of the engine. -/
def Run.throw {α : Type} (error : EngineError) : Run σ α := fun s => .error (.engine error) s

/-- The run of a function that reads its arguments only. -/
def Run.ofExcept {α : Type} (v : Except EngineError α) : Run σ α :=
  Program.ofExcept (v.mapError Exn.engine)

section

variable [World σ]

/-- Read the clock. -/
def now : Run σ ℤ := fun s => let (time, next) := World.now s; .ok time next

/-- The clock reads this in some state. -/
def IsReading (σ : Type) [World σ] (reading : ℤ) : Prop := ∃ s : σ, (World.now s).1 = reading

theorem returns_now : Program.Returns (now : Run σ ℤ) (IsReading σ) := by
  intro s reading s' hrun
  cases hrun
  exact ⟨s, rfl⟩

def OperationContext.cancellationRequested : Run σ Bool :=
  fun s => let (stopped, next) := World.stopRequested s; .ok stopped next

/-- `OperationContext::deadline_exceeded`: the clock is read when there is a deadline. -/
def OperationContext.deadlineExceeded (context : OperationContext) : Run σ Bool :=
  match context.deadline with
  | none => pure false
  | some deadline => do return decide (deadline ≤ (← now))

/-- `check_context`, as the pipeline, the ensemble and the adapters have it, each with its own
texts. -/
def checkContext (context : OperationContext) (cancelled timeout : String) : Run σ Unit := do
  if ← OperationContext.cancellationRequested then Run.throw (cancelledError cancelled)
  else if ← context.deadlineExceeded then Run.throw (timeoutError timeout)
  else pure ()

/-- The two ways a context ends a run early. -/
def IsInterruption (e : Exn) : Prop :=
  ∃ error : EngineError, e = .engine error ∧ (error.code = .cancelled ∨ error.code = .timeout)

theorem throws_now {P : Exn → Prop} : Program.Throws (now : Run σ ℤ) P :=
  fun _ _ _ hrun => nomatch hrun

/-- A check of a context throws an interruption. -/
theorem throws_checkContext (context : OperationContext) (cancelled timeout : String) :
    Program.Throws (checkContext context cancelled timeout : Run σ Unit) IsInterruption := by
  refine Program.Throws.bind (fun _ _ _ hrun => nomatch hrun) fun stopped => ?_
  refine Program.Throws.ite (Program.throws_throw ⟨_, rfl, Or.inl rfl⟩) ?_
  refine Program.Throws.bind ?_ fun exceeded => ?_
  · obtain ⟨_ | deadline⟩ := context
    · exact Program.throws_pure
    · exact throws_now.bind fun _ => Program.throws_pure
  · exact Program.Throws.ite (Program.throws_throw ⟨_, rfl, Or.inr rfl⟩) Program.throws_pure

omit [World σ] in
/-- What a function of its arguments returns. -/
theorem returns_runOfExcept {α : Type} {v : Except EngineError α} {Q : α → Prop}
    (h : ∀ a, v = .ok a → Q a) : Program.Returns (Run.ofExcept v : Run σ α) Q := by
  cases v with
  | ok a => exact Program.returns_pure (h a rfl)
  | error e => exact Program.returns_throw _ Q

omit [World σ] in
/-- What a function of its arguments throws. -/
theorem throws_runOfExcept {α : Type} {v : Except EngineError α} {P : Exn → Prop}
    (h : ∀ error, v = .error error → P (.engine error)) :
    Program.Throws (Run.ofExcept v : Run σ α) P := by
  cases v with
  | ok a => exact Program.throws_pure
  | error e => exact Program.throws_throw (h e rfl)

/-! ## Two runs side by side -/

omit [World σ] in
theorem agrees_runThrow {α β : Type} (error : EngineError) (R : α → β → Prop) :
    Program.Agrees R (Run.throw error : Run σ α) (Run.throw error) :=
  fun s t => Or.inr ⟨_, s, t, rfl, rfl⟩

omit [World σ] in
theorem agrees_runOfExcept {α β : Type} {v : Except EngineError α} {w : Except EngineError β}
    {R : α → β → Prop}
    (h : (∃ a b, v = .ok a ∧ w = .ok b ∧ R a b) ∨ ∃ e, v = .error e ∧ w = .error e) :
    Program.Agrees R (Run.ofExcept v : Run σ α) (Run.ofExcept w) := by
  refine Program.agrees_ofExcept ?_
  rcases h with ⟨a, b, rfl, rfl, hab⟩ | ⟨e, rfl, rfl⟩
  · exact Or.inl ⟨a, b, rfl, rfl, hab⟩
  · exact Or.inr ⟨_, rfl, rfl⟩

theorem agrees_now : Program.Agrees (fun _ _ : ℤ => True) (now : Run σ ℤ) now :=
  fun _ _ => Or.inl ⟨_, _, _, _, rfl, rfl, trivial⟩

/-- **A check of a context** passes or interrupts the run, whatever it is compared with. -/
theorem tracks_checkContext {α : Type} (x : Run σ α) (context : OperationContext)
    (cancelled timeout : String) :
    Program.Tracks IsInterruption (fun (_ : α) (_ : Unit) => True) x
      (checkContext context cancelled timeout) := by
  have hthrow : ∀ error : EngineError, error.code = .cancelled ∨ error.code = .timeout →
      Program.Tracks IsInterruption (fun (_ : α) (_ : Unit) => True) x (Run.throw error) :=
    fun error hcode s a s' _ t => Or.inr ⟨_, t, rfl, error, rfl, hcode⟩
  refine Program.Tracks.after (P := fun _ => True)
    (Program.tracks_of_returns fun t => ⟨_, _, rfl, fun _ => trivial⟩) fun stopped _ => ?_
  cases stopped with
  | true => exact hthrow _ (Or.inl rfl)
  | false =>
    have hdeadline : ∀ t : σ, ∃ exceeded t', context.deadlineExceeded t = .ok exceeded t' ∧
        ∀ _ : Unit, True := by
      intro t
      obtain ⟨deadline⟩ := context
      cases deadline <;> exact ⟨_, _, rfl, fun _ => trivial⟩
    refine Program.Tracks.after (P := fun _ => True) (Program.tracks_of_returns hdeadline)
      fun exceeded _ => ?_
    cases exceeded with
    | true => exact hthrow _ (Or.inr rfl)
    | false => exact Program.tracks_of_returns fun t => ⟨_, _, rfl, fun _ => trivial⟩

end

/-! ## Something kept beside the world -/

section

variable [World σ] {κ : Type}

theorem lifts_now : Program.Lifts (now : Run σ ℤ) (now : Run (σ × κ) ℤ) := by
  refine fun s c => ⟨fun a s' h => ?_, fun e s' h => nomatch h⟩
  cases h
  exact ⟨c, rfl⟩

omit [World σ] in
theorem lifts_runThrow {α : Type} (error : EngineError) :
    Program.Lifts (Run.throw error) (Run.throw error : Run (σ × κ) α) :=
  Program.lifts_throw _

omit [World σ] in
theorem lifts_runOfExcept {α : Type} (v : Except EngineError α) :
    Program.Lifts (Run.ofExcept v) (Run.ofExcept v : Run (σ × κ) α) := by
  cases v with
  | ok a => exact Program.lifts_pure a
  | error e => exact Program.lifts_throw _

theorem lifts_checkContext (context : OperationContext) (cancelled timeout : String) :
    Program.Lifts (checkContext context cancelled timeout)
      (checkContext context cancelled timeout : Run (σ × κ) Unit) := by
  have hstopped : Program.Lifts (OperationContext.cancellationRequested : Run σ Bool)
      (OperationContext.cancellationRequested : Run (σ × κ) Bool) := by
    refine fun s c => ⟨fun a s' h => ?_, fun e s' h => nomatch h⟩
    cases h
    exact ⟨c, rfl⟩
  have hexceeded : Program.Lifts (context.deadlineExceeded : Run σ Bool)
      (context.deadlineExceeded : Run (σ × κ) Bool) := by
    unfold OperationContext.deadlineExceeded
    split
    · exact Program.lifts_pure false
    · exact lifts_now.bind fun _ => Program.lifts_pure _
  refine hstopped.bind fun stopped => ?_
  split
  · exact lifts_runThrow _
  · refine hexceeded.bind fun exceeded => ?_
    split
    · exact lifts_runThrow _
    · exact Program.lifts_pure ()

end

/-- Nanoseconds as a `double` of milliseconds. -/
def elapsedMs [Scalar D] (started finished : ℤ) : D :=
  Scalar.ofRat (finished - started) / Scalar.ofRat 1000000

end FacLpr

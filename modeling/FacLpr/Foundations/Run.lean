import Mathlib.Data.List.Forall2

/-!
# Foundations/Run — programs with a state that may throw

A state survives an exception, as in the languages where only the stack unwinds.  Seven judgements
on such programs, each with its rules for sequencing, handlers and loops:

* `Returns x Q` — what `x` returns satisfies `Q`;
* `Throws x P` — what `x` throws satisfies `P`;
* `Maintains I x Q` — `x` keeps to the states where `I` holds, and what it returns from one
  satisfies `Q`;
* `Agrees R x y` — from any two states, `x` and `y` return related values or throw the same;
* `Tracks stop R x y` — whenever `x` returns, `y` returns a related value or stops early;
* `Triple P x Q E` — from a state where `P` holds, `x` returns with `Q` or throws with `E`;
* `Lifts x y` — `y` does what `x` does, and keeps something beside the state.
-/

namespace FacLpr

/-! ## Two lists side by side -/

/-- What stands at a place in two lists is related. -/
theorem forall₂_getElem? {α β : Type} {R : α → β → Prop} {l : List α} {l' : List β}
    (h : List.Forall₂ R l l') {i : ℕ} {a : α} (ha : l[i]? = some a) :
    ∃ b, l'[i]? = some b ∧ R a b := by
  obtain ⟨hi, rfl⟩ := List.getElem?_eq_some_iff.mp ha
  have hi' := h.length_eq ▸ hi
  exact ⟨l'[i], List.getElem?_eq_getElem hi', h.get hi hi'⟩

theorem forall₂_exists_left {α β : Type} {R : α → β → Prop} {l : List α} {l' : List β}
    (h : List.Forall₂ R l l') {b : β} (hb : b ∈ l') : ∃ a ∈ l, R a b := by
  obtain ⟨i, hi⟩ := List.mem_iff_getElem?.mp hb
  obtain ⟨a, ha, hab⟩ := forall₂_getElem? h.flip hi
  exact ⟨a, List.mem_of_getElem? ha, hab⟩

/-! ## Programs -/

/-- A program over the state `σ` that may throw an `ε`. -/
abbrev Program (ε σ α : Type) := EStateM ε σ α

namespace Program

variable {ε σ α β γ δ : Type}

/-- Throw what an `Except` throws. -/
def ofExcept : Except ε α → Program ε σ α
  | .ok a => pure a
  | .error e => throw e

/-- A program over the first part of a state, which leaves the second alone. -/
def onFst {κ : Type} (x : Program ε σ α) : Program ε (σ × κ) α := fun (s, c) =>
  match x s with
  | .ok a s' => .ok a (s', c)
  | .error e s' => .error e (s', c)

/-- A program over a part of a state, which leaves the rest alone. -/
def onPart {τ : Type} (part : σ → τ) (put : τ → σ → σ) (x : Program ε τ α) : Program ε σ α :=
  fun s =>
    match x (part s) with
    | .ok a t => .ok a (put t s)
    | .error e t => .error e (put t s)

/-- Throw something else for what a program throws. -/
def mapThrown {ε' : Type} (f : ε → ε') (x : Program ε σ α) : Program ε' σ α := fun s =>
  match x s with
  | .ok a s' => .ok a s'
  | .error e s' => .error (f e) s'

/-- What a program returns from a state, if it returns. -/
def returned? (x : Program ε σ α) (s : σ) : Option α :=
  match x s with
  | .ok a _ => some a
  | .error _ _ => none

theorem returned?_eq_some {x : Program ε σ α} {s : σ} {a : α} :
    x.returned? s = some a ↔ ∃ s', x s = .ok a s' := by
  unfold returned?
  cases x s with
  | ok b s' => exact ⟨fun h => ⟨s', by rw [Option.some.inj h]⟩, fun ⟨_, h⟩ => by cases h; rfl⟩
  | error e s' => exact ⟨fun h => (nomatch h), fun ⟨_, h⟩ => (nomatch h)⟩

/-- What a program throws from a state, if it throws. -/
def thrown? (x : Program ε σ α) (s : σ) : Option ε :=
  match x s with
  | .ok _ _ => none
  | .error e _ => some e

/-- The state a program leaves, whether or not it throws. -/
def after (x : Program ε σ α) (s : σ) : σ :=
  match x s with
  | .ok _ s' => s'
  | .error _ s' => s'

@[simp] theorem pure_run (a : α) (s : σ) : (pure a : Program ε σ α) s = .ok a s := rfl

@[simp] theorem throw_run (e : ε) (s : σ) : (throw e : Program ε σ α) s = .error e s := rfl

@[simp] theorem get_run (s : σ) : (get : Program ε σ σ) s = .ok s s := rfl

@[simp] theorem modify_run (f : σ → σ) (s : σ) :
    (modify f : Program ε σ PUnit) s = .ok ⟨⟩ (f s) := rfl

/-- A sequence returns when both parts do. -/
theorem bind_eq_ok {x : Program ε σ α} {f : α → Program ε σ β} {s s' : σ} {b : β} :
    (x >>= f) s = .ok b s' ↔ ∃ a t, x s = .ok a t ∧ f a t = .ok b s' := by
  change EStateM.bind x f s = _ ↔ _
  unfold EStateM.bind
  cases x s with
  | ok a t => exact ⟨fun h => ⟨a, t, rfl, h⟩, fun ⟨_, _, h, h'⟩ => by cases h; exact h'⟩
  | error e t => exact ⟨fun h => (nomatch h), fun ⟨_, _, h, _⟩ => (nomatch h)⟩

/-- The second part runs from where the first one ends, -/
theorem bind_run_ok {x : Program ε σ α} {f : α → Program ε σ β} {s t : σ} {a : α}
    (h : x s = .ok a t) : (x >>= f) s = f a t := by
  change EStateM.bind x f s = _
  rw [EStateM.bind, h]

/-- and not at all when the first one throws. -/
theorem bind_run_error {x : Program ε σ α} {f : α → Program ε σ β} {s t : σ} {e : ε}
    (h : x s = .error e t) : (x >>= f) s = .error e t := by
  change EStateM.bind x f s = _
  rw [EStateM.bind, h]

theorem after_bind_ok {x : Program ε σ α} {f : α → Program ε σ β} {s t : σ} {a : α}
    (h : x s = .ok a t) : (x >>= f).after s = (f a).after t := by
  rw [after, after, bind_run_ok h]

/-- A handler is idle when nothing is thrown, -/
theorem tryCatch_run_ok {x : Program ε σ α} {f : ε → Program ε σ α} {s t : σ} {a : α}
    (h : x s = .ok a t) : tryCatch x f s = .ok a t := by
  change EStateM.tryCatch x f s = _
  rw [EStateM.tryCatch]
  simp only [h]

/-- and runs from where it was thrown. -/
theorem tryCatch_run_error {x : Program ε σ α} {f : ε → Program ε σ α} {s t : σ} {e : ε}
    (h : x s = .error e t) : tryCatch x f s = f e t := by
  change EStateM.tryCatch x f s = _
  rw [EStateM.tryCatch]
  simp only [h]
  rfl

theorem onFst_run_ok {κ : Type} {x : Program ε σ α} {s s' : σ} {a : α} (h : x s = .ok a s')
    (c : κ) : onFst x (s, c) = .ok a (s', c) := by
  rw [onFst, h]

theorem onFst_run_error {κ : Type} {x : Program ε σ α} {s s' : σ} {e : ε} (h : x s = .error e s')
    (c : κ) : onFst x (s, c) = .error e (s', c) := by
  rw [onFst, h]

/-! ## What a program returns -/

/-- What `x` returns satisfies `Q`. -/
def Returns (x : Program ε σ α) (Q : α → Prop) : Prop :=
  ∀ s a s', x s = .ok a s' → Q a

theorem Returns.mono {x : Program ε σ α} {P Q : α → Prop} (h : Returns x P) (hPQ : ∀ a, P a → Q a) :
    Returns x Q :=
  fun s a s' hx => hPQ a (h s a s' hx)

/-- What a program returns is something it returns. -/
theorem returns_self (x : Program ε σ α) : Returns x fun a => ∃ s s', x s = .ok a s' :=
  fun s _ s' hx => ⟨s, s', hx⟩

theorem returns_pure {a : α} {Q : α → Prop} (h : Q a) : Returns (pure a : Program ε σ α) Q := by
  intro s b s' hx
  cases hx
  exact h

theorem returns_throw (e : ε) (Q : α → Prop) : Returns (throw e : Program ε σ α) Q :=
  fun _ _ _ hx => nomatch hx

/-- **Sequencing.** -/
theorem Returns.bind {x : Program ε σ α} {f : α → Program ε σ β} {P : α → Prop} {Q : β → Prop}
    (hx : Returns x P) (hf : ∀ a, P a → Returns (f a) Q) : Returns (x >>= f) Q := by
  intro s b s' h
  obtain ⟨a, t, hxa, hfb⟩ := bind_eq_ok.mp h
  exact hf a (hx s a t hxa) t b s' hfb

/-- What comes next matters only for what is returned. -/
theorem Returns.bind_congr {x : Program ε σ α} {f g : α → Program ε σ β} {P : α → Prop}
    (hx : Returns x P) (h : ∀ a, P a → f a = g a) : (x >>= f) = (x >>= g) := by
  funext s
  cases hrun : x s with
  | ok a t => rw [bind_run_ok hrun, bind_run_ok hrun, h a (hx s a t hrun)]
  | error e t => rw [bind_run_error hrun, bind_run_error hrun]

theorem Returns.onPart {τ : Type} {part : σ → τ} {put : τ → σ → σ} {x : Program ε τ α}
    {Q : α → Prop} (h : Returns x Q) : Returns (onPart part put x) Q := by
  intro s a s' hrun
  unfold Program.onPart at hrun
  cases hx : x (part s) with
  | ok b t =>
    rw [hx] at hrun
    cases hrun
    exact h _ _ _ hx
  | error e t =>
    rw [hx] at hrun
    cases hrun

/-- **A handler.** -/
theorem Returns.tryCatch {x : Program ε σ α} {f : ε → Program ε σ α} {Q : α → Prop}
    (hx : Returns x Q) (hf : ∀ e, Returns (f e) Q) : Returns (tryCatch x f) Q := by
  intro s a s' h
  cases hrun : x s with
  | ok b t =>
    rw [tryCatch_run_ok hrun] at h
    cases h
    exact hx s _ _ hrun
  | error e t =>
    rw [tryCatch_run_error hrun] at h
    exact hf e t a s' h

/-- **A loop** whose invariant speaks of the elements left. -/
theorem Returns.foldlM_rest {f : β → α → Program ε σ β} {I : List α → β → Prop}
    (hf : ∀ a l b, I (a :: l) b → Returns (f b a) (I l)) {l : List α} {b : β} (hb : I l b) :
    Returns (l.foldlM f b) (I []) := by
  induction l generalizing b with
  | nil => exact returns_pure hb
  | cons a l ih =>
    rw [List.foldlM_cons]
    exact (hf a l b hb).bind fun b' hb' => ih hb'

/-- A loop keeps its invariant. -/
theorem Returns.foldlM {f : β → α → Program ε σ β} {I : β → Prop} {l : List α}
    (hf : ∀ a ∈ l, ∀ b, I b → Returns (f b a) I) {b : β} (hb : I b) :
    Returns (l.foldlM f b) I := by
  refine (Returns.foldlM_rest (I := fun rest b => (∀ a ∈ rest, a ∈ l) ∧ I b) ?_
    ⟨fun a ha => ha, hb⟩).mono fun b' hb' => hb'.2
  rintro a rest b ⟨hrest, hb⟩
  exact (hf a (hrest a List.mem_cons_self) b hb).mono fun b' hb' =>
    ⟨fun a' ha' => hrest a' (List.mem_cons_of_mem _ ha'), hb'⟩

/-- A loop over each element of a list. -/
theorem Returns.mapM {f : α → Program ε σ β} {P : α → β → Prop} {l : List α}
    (hf : ∀ a ∈ l, Returns (f a) (P a)) : Returns (l.mapM f) (List.Forall₂ P l) := by
  induction l with
  | nil => exact returns_pure List.Forall₂.nil
  | cons a l ih =>
    rw [List.mapM_cons]
    refine (hf a List.mem_cons_self).bind fun b hb => ?_
    refine (ih fun a' ha' => hf a' (List.mem_cons_of_mem _ ha')).bind fun l' hl' => ?_
    exact returns_pure (List.Forall₂.cons hb hl')

/-- Each result of a `mapM` has what its call returns. -/
theorem Returns.mapM_all {f : α → Program ε σ β} {P : β → Prop} {l : List α}
    (hf : ∀ a ∈ l, Returns (f a) P) : Returns (l.mapM f) fun l' => ∀ b ∈ l', P b :=
  (Returns.mapM hf).mono fun _ h _ hb => (forall₂_exists_left h hb).elim fun _ h => h.2

/-! ## What a program throws -/

/-- What `x` throws satisfies `P`. -/
def Throws (x : Program ε σ α) (P : ε → Prop) : Prop :=
  ∀ s e s', x s = .error e s' → P e

theorem Throws.mono {x : Program ε σ α} {P Q : ε → Prop} (h : Throws x P) (hPQ : ∀ e, P e → Q e) :
    Throws x Q :=
  fun s e s' hx => hPQ e (h s e s' hx)

theorem throws_pure {a : α} {P : ε → Prop} : Throws (pure a : Program ε σ α) P :=
  fun _ _ _ hx => nomatch hx

theorem throws_throw {e : ε} {P : ε → Prop} (h : P e) : Throws (throw e : Program ε σ α) P := by
  intro s e' s' hx
  cases hx
  exact h

theorem throws_get {P : ε → Prop} : Throws (get : Program ε σ σ) P :=
  fun _ _ _ hx => nomatch hx

theorem throws_set {s : σ} {P : ε → Prop} : Throws (set s : Program ε σ PUnit) P :=
  fun _ _ _ hx => nomatch hx

/-- The rule of sequences. -/
theorem Throws.bind {x : Program ε σ α} {f : α → Program ε σ β} {P : ε → Prop} (hx : Throws x P)
    (hf : ∀ a, Throws (f a) P) : Throws (x >>= f) P := by
  intro s e s' h
  cases hrun : x s with
  | ok a t =>
    rw [bind_run_ok hrun] at h
    exact hf a t e s' h
  | error e' t =>
    rw [bind_run_error hrun] at h
    cases h
    exact hx s _ _ hrun

/-- What comes next throws may depend on what is returned. -/
theorem Throws.bind_of_returns {x : Program ε σ α} {f : α → Program ε σ β} {P : ε → Prop}
    {Q : α → Prop} (hx : Throws x P) (hreturns : Returns x Q) (hf : ∀ a, Q a → Throws (f a) P) :
    Throws (x >>= f) P := by
  intro s e s' h
  cases hrun : x s with
  | ok a t =>
    rw [bind_run_ok hrun] at h
    exact hf a (hreturns s a t hrun) t e s' h
  | error e' t =>
    rw [bind_run_error hrun] at h
    cases h
    exact hx s _ _ hrun

theorem Throws.ite {b : Prop} [Decidable b] {x y : Program ε σ α} {P : ε → Prop} (hx : Throws x P)
    (hy : Throws y P) : Throws (if b then x else y) P := by
  split
  · exact hx
  · exact hy

/-- The rule of loops. -/
theorem throws_foldlM {f : β → α → Program ε σ β} {P : ε → Prop} (hf : ∀ b a, Throws (f b a) P)
    (l : List α) (b : β) : Throws (l.foldlM f b) P := by
  induction l generalizing b with
  | nil => exact throws_pure
  | cons a l ih =>
    rw [List.foldlM_cons]
    exact (hf b a).bind fun b' => ih b'

/-! ## What a program maintains -/

/-- `x` keeps to the states where `I` holds, and what it returns from one satisfies `Q`. -/
def Maintains (I : σ → Prop) (x : Program ε σ α) (Q : α → Prop) : Prop :=
  ∀ s, I s → (∀ a s', x s = .ok a s' → Q a ∧ I s') ∧ ∀ e s', x s = .error e s' → I s'

variable {I : σ → Prop}

/-- Whatever holds of what a program returns holds from the states it keeps to. -/
theorem Maintains.and_returns {x : Program ε σ α} {P Q : α → Prop} (h : Maintains I x P)
    (hx : Returns x Q) : Maintains I x fun a => P a ∧ Q a :=
  fun s hs => ⟨fun a s' hrun =>
    ⟨⟨((h s hs).1 a s' hrun).1, hx s a s' hrun⟩, ((h s hs).1 a s' hrun).2⟩, (h s hs).2⟩

theorem maintains_pure {a : α} {Q : α → Prop} (h : Q a) :
    Maintains I (pure a : Program ε σ α) Q := by
  refine fun s hs => ⟨fun b s' hx => ?_, fun e s' hx => nomatch hx⟩
  cases hx
  exact ⟨h, hs⟩

theorem maintains_throw (e : ε) (Q : α → Prop) : Maintains I (throw e : Program ε σ α) Q := by
  refine fun s hs => ⟨(fun a s' hx => nomatch hx), fun e' s' hx => ?_⟩
  cases hx
  exact hs

theorem maintains_ofExcept (v : Except ε α) :
    Maintains I (ofExcept v : Program ε σ α) fun _ => True := by
  cases v with
  | ok a => exact maintains_pure trivial
  | error e => exact maintains_throw e _

theorem maintains_get : Maintains I (get : Program ε σ σ) I := by
  refine fun s hs => ⟨fun t s' hx => ?_, fun e s' hx => nomatch hx⟩
  cases hx
  exact ⟨hs, hs⟩

theorem maintains_set {t : σ} (h : I t) :
    Maintains I (set t : Program ε σ PUnit) fun _ => True := by
  refine fun s _ => ⟨fun a s' hx => ?_, fun e s' hx => nomatch hx⟩
  cases hx
  exact ⟨trivial, h⟩

/-- The state a program leaves is one of those it keeps to. -/
theorem Maintains.after {x : Program ε σ α} {Q : α → Prop} (h : Maintains I x Q) {s : σ}
    (hs : I s) : I (x.after s) := by
  unfold Program.after
  cases hrun : x s with
  | ok a s' => exact ((h s hs).1 a s' hrun).2
  | error e s' => exact (h s hs).2 e s' hrun

/-- The rule of sequences. -/
theorem Maintains.bind {x : Program ε σ α} {f : α → Program ε σ β} {P : α → Prop} {Q : β → Prop}
    (hx : Maintains I x P) (hf : ∀ a, P a → Maintains I (f a) Q) : Maintains I (x >>= f) Q := by
  intro s hs
  cases hrun : x s with
  | ok a t =>
    obtain ⟨ha, ht⟩ := (hx s hs).1 a t hrun
    rw [bind_run_ok hrun]
    exact hf a ha t ht
  | error e t =>
    have ht := (hx s hs).2 e t hrun
    rw [bind_run_error hrun]
    exact ⟨(fun b s' h => nomatch h), fun e' s' h => by cases h; exact ht⟩

/-- The rule of handlers: the invariant holds where something is thrown. -/
theorem Maintains.tryCatch {x : Program ε σ α} {f : ε → Program ε σ α} {Q : α → Prop}
    (hx : Maintains I x Q) (hf : ∀ e, Maintains I (f e) Q) : Maintains I (tryCatch x f) Q := by
  intro s hs
  cases hrun : x s with
  | ok a t =>
    have ha := (hx s hs).1 a t hrun
    rw [tryCatch_run_ok hrun]
    exact ⟨fun b s' h => by cases h; exact ha, fun e' s' h => nomatch h⟩
  | error e t =>
    rw [tryCatch_run_error hrun]
    exact hf e t ((hx s hs).2 e t hrun)

/-- What `x` returns from a state where `I` holds satisfies `Q`. -/
def ReturnsFrom (I : σ → Prop) (x : Program ε σ α) (Q : α → Prop) : Prop :=
  ∀ s, I s → ∀ a s', x s = .ok a s' → Q a

/-- A program may leave the states where `I` holds once nothing depends on them. -/
theorem Maintains.bind_returnsFrom {x : Program ε σ α} {f : α → Program ε σ β} {P : α → Prop}
    {Q : β → Prop} (hx : Maintains I x P) (hf : ∀ a, P a → ReturnsFrom I (f a) Q) :
    ReturnsFrom I (x >>= f) Q := by
  intro s hs b s' h
  obtain ⟨a, t, hxa, hfb⟩ := bind_eq_ok.mp h
  obtain ⟨ha, ht⟩ := (hx s hs).1 a t hxa
  exact hf a ha t ht b s' hfb

/-- The rule of loops. -/
theorem maintains_foldlM {f : β → α → Program ε σ β} {J : β → Prop} {l : List α}
    (hf : ∀ a ∈ l, ∀ b, J b → Maintains I (f b a) J) {b : β} (hb : J b) :
    Maintains I (l.foldlM f b) J := by
  induction l generalizing b with
  | nil => exact maintains_pure hb
  | cons a l ih =>
    exact (hf a List.mem_cons_self b hb).bind fun b hb =>
      ih (fun a ha => hf a (List.mem_cons_of_mem _ ha)) hb

theorem maintains_mapM {f : α → Program ε σ β} {l : List α}
    (hf : ∀ a ∈ l, Maintains I (f a) fun _ => True) : Maintains I (l.mapM f) fun _ => True := by
  induction l with
  | nil => exact maintains_pure trivial
  | cons a l ih =>
    rw [List.mapM_cons]
    exact (hf a List.mem_cons_self).bind fun _ _ =>
      (ih fun a ha => hf a (List.mem_cons_of_mem _ ha)).bind fun _ _ => maintains_pure trivial

/-! ## Two programs that do the same -/

/-- From any two states, `x` and `y` return related values or throw the same. -/
def Agrees (R : α → β → Prop) (x : Program ε σ α) (y : Program ε σ β) : Prop :=
  ∀ s t, (∃ a b s' t', x s = .ok a s' ∧ y t = .ok b t' ∧ R a b) ∨
    ∃ e s' t', x s = .error e s' ∧ y t = .error e t'

theorem agrees_pure {a : α} {b : β} {R : α → β → Prop} (h : R a b) :
    Agrees R (pure a : Program ε σ α) (pure b) :=
  fun s t => Or.inl ⟨a, b, s, t, rfl, rfl, h⟩

theorem agrees_ofExcept {v : Except ε α} {w : Except ε β} {R : α → β → Prop}
    (h : (∃ a b, v = .ok a ∧ w = .ok b ∧ R a b) ∨ ∃ e, v = .error e ∧ w = .error e) :
    Agrees R (ofExcept v : Program ε σ α) (ofExcept w) := by
  intro s t
  rcases h with ⟨a, b, rfl, rfl, hab⟩ | ⟨e, rfl, rfl⟩
  · exact Or.inl ⟨a, b, s, t, rfl, rfl, hab⟩
  · exact Or.inr ⟨e, s, t, rfl, rfl⟩

theorem agrees_throw (e : ε) (R : α → β → Prop) :
    Agrees R (throw e : Program ε σ α) (throw e) :=
  fun s t => Or.inr ⟨e, s, t, rfl, rfl⟩

/-- The rule of sequences, for two runs. -/
theorem Agrees.bind {x : Program ε σ α} {y : Program ε σ β} {f : α → Program ε σ γ}
    {g : β → Program ε σ δ} {R : α → β → Prop} {S : γ → δ → Prop} (h : Agrees R x y)
    (hfg : ∀ a b, R a b → Agrees S (f a) (g b)) : Agrees S (x >>= f) (y >>= g) := by
  intro s t
  rcases h s t with ⟨a, b, s', t', hx, hy, hab⟩ | ⟨e, s', t', hx, hy⟩
  · rw [bind_run_ok hx, bind_run_ok hy]
    exact hfg a b hab s' t'
  · exact Or.inr ⟨e, s', t', bind_run_error hx, bind_run_error hy⟩

/-- The rule of handlers, for two runs. -/
theorem Agrees.tryCatch {x : Program ε σ α} {y : Program ε σ β} {f : ε → Program ε σ α}
    {g : ε → Program ε σ β} {R : α → β → Prop} (h : Agrees R x y)
    (hfg : ∀ e, Agrees R (f e) (g e)) : Agrees R (tryCatch x f) (tryCatch y g) := by
  intro s t
  rcases h s t with ⟨a, b, s', t', hx, hy, hab⟩ | ⟨e, s', t', hx, hy⟩
  · exact Or.inl ⟨a, b, s', t', tryCatch_run_ok hx, tryCatch_run_ok hy, hab⟩
  · rw [tryCatch_run_error hx, tryCatch_run_error hy]
    exact hfg e s' t'

/-- The rule of loops, over lists that are related item by item. -/
theorem agrees_foldlM {f : γ → α → Program ε σ γ} {g : δ → β → Program ε σ δ}
    {E : α → β → Prop} {R : γ → δ → Prop} (hfg : ∀ a b, E a b → ∀ c d, R c d →
      Agrees R (f c a) (g d b))
    {l : List α} {l' : List β} (hl : List.Forall₂ E l l') {c : γ} {d : δ} (hcd : R c d) :
    Agrees R (l.foldlM f c) (l'.foldlM g d) := by
  induction hl generalizing c d with
  | nil => exact agrees_pure hcd
  | cons hab _ ih =>
    rw [List.foldlM_cons, List.foldlM_cons]
    exact (hfg _ _ hab c d hcd).bind fun c' d' hcd' => ih hcd'

theorem agrees_mapM {f : α → Program ε σ γ} {g : β → Program ε σ δ} {E : α → β → Prop}
    {R : γ → δ → Prop} (hfg : ∀ a b, E a b → Agrees R (f a) (g b)) {l : List α} {l' : List β}
    (hl : List.Forall₂ E l l') : Agrees (List.Forall₂ R) (l.mapM f) (l'.mapM g) := by
  induction hl with
  | nil => exact agrees_pure List.Forall₂.nil
  | cons hab _ ih =>
    rw [List.mapM_cons, List.mapM_cons]
    exact (hfg _ _ hab).bind fun c d hcd => ih.bind fun l l' hll' =>
      agrees_pure (List.Forall₂.cons hcd hll')

/-! ## A program that follows another -/

/-- Whenever `x` returns, `y` returns a related value or throws one of the exceptions of `stop`. -/
def Tracks (stop : ε → Prop) (R : α → β → Prop) (x : Program ε σ α) (y : Program ε σ β) : Prop :=
  ∀ s a s', x s = .ok a s' → ∀ t, (∃ b t', y t = .ok b t' ∧ R a b) ∨
    ∃ e t', y t = .error e t' ∧ stop e

variable {stop : ε → Prop}

theorem Agrees.tracks {x : Program ε σ α} {y : Program ε σ β} {R : α → β → Prop}
    (h : Agrees R x y) : Tracks stop R x y := by
  intro s a s' hx t
  rcases h s t with ⟨a', b, s'', t', hx', hy, hab⟩ | ⟨e, s'', t', hx', -⟩
  · cases hx.symm.trans hx'
    exact Or.inl ⟨b, t', hy, hab⟩
  · cases hx.symm.trans hx'

theorem tracks_pure {a : α} {b : β} {R : α → β → Prop} (h : R a b) :
    Tracks stop R (pure a : Program ε σ α) (pure b) :=
  (agrees_pure h).tracks

/-- The rule of sequences: the second run may stop in either part. -/
theorem Tracks.bind {x : Program ε σ α} {y : Program ε σ β} {f : α → Program ε σ γ}
    {g : β → Program ε σ δ} {R : α → β → Prop} {S : γ → δ → Prop} (h : Tracks stop R x y)
    (hfg : ∀ a b, R a b → Tracks stop S (f a) (g b)) : Tracks stop S (x >>= f) (y >>= g) := by
  intro s c s' hxf t
  obtain ⟨a, u, hx, hf⟩ := bind_eq_ok.mp hxf
  rcases h s a u hx t with ⟨b, t', hy, hab⟩ | ⟨e, t', hy, hstop⟩
  · rw [bind_run_ok hy]
    exact hfg a b hab u c s' hf t'
  · exact Or.inr ⟨e, t', bind_run_error hy, hstop⟩

/-- The other program may do more first. -/
theorem Tracks.after {x : Program ε σ α} {y : Program ε σ β} {g : β → Program ε σ γ} {P : β → Prop}
    {R : α → γ → Prop} (h : Tracks stop (fun (_ : Unit) b => P b) (pure ()) y)
    (hg : ∀ b, P b → Tracks stop R x (g b)) : Tracks stop R x (y >>= g) := by
  simpa only [pure_bind] using h.bind (f := fun _ => x) fun _ b hb => hg b hb

/-- The other program may do more at the end. -/
theorem Tracks.andThen {x : Program ε σ α} {y : Program ε σ β} {g : β → Program ε σ γ}
    {R : α → β → Prop} {S : α → γ → Prop} (h : Tracks stop R x y)
    (hg : ∀ a b, R a b → Tracks stop S (pure a) (g b)) : Tracks stop S x (y >>= g) := by
  simpa only [bind_pure] using h.bind (f := pure) hg

/-- A program that always returns follows any other. -/
theorem tracks_of_returns {x : Program ε σ α} {y : Program ε σ β} {R : α → β → Prop}
    (h : ∀ t, ∃ b t', y t = .ok b t' ∧ ∀ a, R a b) : Tracks stop R x y := by
  intro s a s' _ t
  obtain ⟨b, t', hy, hR⟩ := h t
  exact Or.inl ⟨b, t', hy, hR a⟩

/-- The rule of loops. -/
theorem tracks_foldlM {f : γ → α → Program ε σ γ} {g : δ → β → Program ε σ δ}
    {E : α → β → Prop} {R : γ → δ → Prop}
    (hfg : ∀ a b, E a b → ∀ c d, R c d → Tracks stop R (f c a) (g d b)) {l : List α} {l' : List β}
    (hl : List.Forall₂ E l l') {c : γ} {d : δ} (hcd : R c d) :
    Tracks stop R (l.foldlM f c) (l'.foldlM g d) := by
  induction hl generalizing c d with
  | nil => exact tracks_pure hcd
  | cons hab _ ih =>
    rw [List.foldlM_cons, List.foldlM_cons]
    exact (hfg _ _ hab c d hcd).bind fun c' d' hcd' => ih hcd'

/-! ## Preconditions and postconditions -/

/-- From a state where `P` holds, `x` returns with `Q` or throws with `E`. -/
def Triple (P : σ → Prop) (x : Program ε σ α) (Q : α → σ → Prop) (E : ε → σ → Prop) : Prop :=
  ∀ s, P s → (∀ a s', x s = .ok a s' → Q a s') ∧ ∀ e s', x s = .error e s' → E e s'

section Triple

variable {P P' : σ → Prop} {Q Q' : α → σ → Prop} {E E' : ε → σ → Prop}

/-- Asking for more, promising less. -/
theorem Triple.mono {x : Program ε σ α} (h : Triple P x Q E) (hP : ∀ s, P' s → P s)
    (hQ : ∀ a s, Q a s → Q' a s) (hE : ∀ e s, E e s → E' e s) : Triple P' x Q' E' :=
  fun s hs => ⟨fun a s' hx => hQ a s' ((h s (hP s hs)).1 a s' hx),
    fun e s' hx => hE e s' ((h s (hP s hs)).2 e s' hx)⟩

theorem triple_pure {a : α} (h : ∀ s, P s → Q a s) :
    Triple P (pure a : Program ε σ α) Q E := by
  refine fun s hs => ⟨fun b s' hx => ?_, fun e s' hx => nomatch hx⟩
  cases hx
  exact h s hs

theorem triple_throw {e : ε} (h : ∀ s, P s → E e s) :
    Triple P (throw e : Program ε σ α) Q E := by
  refine fun s hs => ⟨(fun a s' hx => nomatch hx), fun e' s' hx => ?_⟩
  cases hx
  exact h s hs

/-- The rule of sequences. -/
theorem Triple.bind {x : Program ε σ α} {f : α → Program ε σ β} {R : β → σ → Prop}
    (hx : Triple P x Q E) (hf : ∀ a, Triple (Q a) (f a) R E) : Triple P (x >>= f) R E := by
  intro s hs
  cases hrun : x s with
  | ok a t =>
    rw [bind_run_ok hrun]
    exact hf a t ((hx s hs).1 a t hrun)
  | error e t =>
    rw [bind_run_error hrun]
    refine ⟨(fun b s' h => nomatch h), fun e' s' h => ?_⟩
    cases h
    exact (hx s hs).2 e t hrun

/-- The rule of handlers. -/
theorem Triple.tryCatch {x : Program ε σ α} {f : ε → Program ε σ α} {K : ε → σ → Prop}
    (hx : Triple P x Q K) (hf : ∀ e, Triple (K e) (f e) Q E) : Triple P (tryCatch x f) Q E := by
  intro s hs
  cases hrun : x s with
  | ok a t =>
    rw [tryCatch_run_ok hrun]
    refine ⟨fun b s' h => ?_, fun e s' h => nomatch h⟩
    cases h
    exact (hx s hs).1 a t hrun
  | error e t =>
    rw [tryCatch_run_error hrun]
    exact hf e t ((hx s hs).2 e t hrun)

/-- What a program leaves behind, however it ends. -/
theorem Triple.after {x : Program ε σ α} {R : σ → Prop}
    (h : Triple P x (fun _ => R) fun _ => R) {s : σ} (hs : P s) : R (x.after s) := by
  unfold Program.after
  cases hrun : x s with
  | ok a t => exact (h s hs).1 a t hrun
  | error e t => exact (h s hs).2 e t hrun

theorem triple_ofExcept {v : Except ε α} (hok : ∀ a, v = .ok a → ∀ s, P s → Q a s)
    (herror : ∀ e, v = .error e → ∀ s, P s → E e s) : Triple P (ofExcept v) Q E := by
  cases v with
  | ok a => exact triple_pure (hok a rfl)
  | error e => exact triple_throw (herror e rfl)

/-- A sequence that starts with an `Except` goes on with what it returns. -/
theorem triple_ofExcept_bind {v : Except ε α} {f : α → Program ε σ β} {R : β → σ → Prop}
    (hok : ∀ a, v = .ok a → Triple P (f a) R E) (herror : ∀ e, v = .error e → ∀ s, P s → E e s) :
    Triple P (ofExcept v >>= f) R E := by
  cases v with
  | ok a => exact hok a rfl
  | error e => exact triple_throw (herror e rfl)

theorem triple_get : Triple P get (fun a s => a = s ∧ P s) E := by
  refine fun s hs => ⟨fun a s' hx => ?_, fun e s' hx => nomatch hx⟩
  cases hx
  exact ⟨rfl, hs⟩

theorem triple_modify {f : σ → σ} :
    Triple P (modify f) (fun _ s' => ∃ s, P s ∧ s' = f s) E := by
  refine fun s hs => ⟨fun a s' hx => ?_, fun e s' hx => nomatch hx⟩
  cases hx
  exact ⟨s, hs, rfl⟩

/-- A program over a part of the state keeps the rest. -/
theorem Triple.onPart {τ : Type} {part : σ → τ} {put : τ → σ → σ} {x : Program ε τ α} {s : σ}
    {Q : α → τ → Prop} {E : ε → τ → Prop} (h : Triple (· = part s) x Q E) :
    Triple (· = s) (onPart part put x) (fun a s' => ∃ t, Q a t ∧ s' = put t s)
      (fun e s' => ∃ t, E e t ∧ s' = put t s) := by
  rintro s rfl
  unfold Program.onPart
  cases hrun : x (part s) with
  | ok a t =>
    refine ⟨fun a' s' hx => ?_, fun e s' hx => nomatch hx⟩
    cases hx
    exact ⟨t, (h _ rfl).1 a t hrun, rfl⟩
  | error e t =>
    refine ⟨(fun a s' hx => nomatch hx), fun e' s' hx => ?_⟩
    cases hx
    exact ⟨t, (h _ rfl).2 e t hrun, rfl⟩

/-- A loop keeps its invariant until it throws. -/
theorem triple_foldlM {f : β → α → Program ε σ β} {l : List α}
    (hf : ∀ a ∈ l, ∀ b, Triple P (f b a) (fun _ => P) E) (b : β) :
    Triple P (l.foldlM f b) (fun _ => P) E := by
  induction l generalizing b with
  | nil => exact triple_pure fun _ hs => hs
  | cons a l ih =>
    exact (hf a List.mem_cons_self b).bind fun b =>
      ih (fun a' ha' => hf a' (List.mem_cons_of_mem _ ha')) b

theorem triple_mapM {f : α → Program ε σ β} {l : List α}
    (hf : ∀ a ∈ l, Triple P (f a) (fun _ => P) E) : Triple P (l.mapM f) (fun _ => P) E := by
  induction l with
  | nil => exact triple_pure fun _ hs => hs
  | cons a l ih =>
    rw [List.mapM_cons]
    exact (hf a List.mem_cons_self).bind fun _ =>
      (ih fun a' ha' => hf a' (List.mem_cons_of_mem _ ha')).bind fun _ =>
        triple_pure fun _ hs => hs

end Triple

/-! ## Something kept beside the state -/

/-- Whatever is kept beside the state, `y` does what `x` does. -/
def Lifts {κ : Type} (x : Program ε σ α) (y : Program ε (σ × κ) α) : Prop :=
  ∀ s c, (∀ a s', x s = .ok a s' → ∃ c', y (s, c) = .ok a (s', c')) ∧
    ∀ e s', x s = .error e s' → ∃ c', y (s, c) = .error e (s', c')

section Lifts

variable {κ : Type}

theorem lifts_onFst (x : Program ε σ α) : Lifts x (onFst x : Program ε (σ × κ) α) :=
  fun _ c => ⟨fun _ _ h => ⟨c, onFst_run_ok h c⟩, fun _ _ h => ⟨c, onFst_run_error h c⟩⟩

theorem lifts_pure (a : α) : Lifts (pure a) (pure a : Program ε (σ × κ) α) := by
  refine fun s c => ⟨fun b s' h => ?_, fun e s' h => nomatch h⟩
  cases h
  exact ⟨c, rfl⟩

theorem lifts_throw (e : ε) : Lifts (throw e) (throw e : Program ε (σ × κ) α) := by
  refine fun s c => ⟨(fun a s' h => nomatch h), fun e' s' h => ?_⟩
  cases h
  exact ⟨c, rfl⟩

/-- The rule of sequences. -/
theorem Lifts.bind {x : Program ε σ α} {y : Program ε (σ × κ) α} {f : α → Program ε σ β}
    {g : α → Program ε (σ × κ) β} (h : Lifts x y) (hfg : ∀ a, Lifts (f a) (g a)) :
    Lifts (x >>= f) (y >>= g) := by
  intro s c
  cases hx : x s with
  | ok a t =>
    obtain ⟨c', hy⟩ := (h s c).1 a t hx
    rw [bind_run_ok hx, bind_run_ok hy]
    exact hfg a t c'
  | error e t =>
    obtain ⟨c', hy⟩ := (h s c).2 e t hx
    rw [bind_run_error hx, bind_run_error hy]
    refine ⟨(fun b s' h => nomatch h), fun e' s' h => ?_⟩
    cases h
    exact ⟨c', rfl⟩

/-- The rule of handlers. -/
theorem Lifts.tryCatch {x : Program ε σ α} {y : Program ε (σ × κ) α} {f : ε → Program ε σ α}
    {g : ε → Program ε (σ × κ) α} (h : Lifts x y) (hfg : ∀ e, Lifts (f e) (g e)) :
    Lifts (tryCatch x f) (tryCatch y g) := by
  intro s c
  cases hx : x s with
  | ok a t =>
    obtain ⟨c', hy⟩ := (h s c).1 a t hx
    rw [tryCatch_run_ok hx, tryCatch_run_ok hy]
    refine ⟨fun b s' h => ?_, fun e s' h => nomatch h⟩
    cases h
    exact ⟨c', rfl⟩
  | error e t =>
    obtain ⟨c', hy⟩ := (h s c).2 e t hx
    rw [tryCatch_run_error hx, tryCatch_run_error hy]
    exact hfg e t c'

theorem lifts_foldlM {f : β → α → Program ε σ β} {g : β → α → Program ε (σ × κ) β} {l : List α}
    (hfg : ∀ a ∈ l, ∀ b, Lifts (f b a) (g b a)) (b : β) :
    Lifts (l.foldlM f b) (l.foldlM g b) := by
  induction l generalizing b with
  | nil => exact lifts_pure b
  | cons a l ih =>
    rw [List.foldlM_cons, List.foldlM_cons]
    exact (hfg a List.mem_cons_self b).bind fun b' =>
      ih (fun a' ha' => hfg a' (List.mem_cons_of_mem _ ha')) b'

theorem lifts_mapM {f : α → Program ε σ β} {g : α → Program ε (σ × κ) β} {l : List α}
    (hfg : ∀ a ∈ l, Lifts (f a) (g a)) : Lifts (l.mapM f) (l.mapM g) := by
  induction l with
  | nil => exact lifts_pure []
  | cons a l ih =>
    rw [List.mapM_cons, List.mapM_cons]
    exact (hfg a List.mem_cons_self).bind fun b =>
      (ih fun a' ha' => hfg a' (List.mem_cons_of_mem _ ha')).bind fun bs => lifts_pure (b :: bs)

end Lifts

end Program

end FacLpr

import FacLpr.Foundations.Run

/-!
# Foundations/ReadLogs — programs that log what they read

A program whose state is a log only adds to it.  `Yields good x a` says that `x` returns `a` from
any log, and that whatever it logs is `good`; the rules put such programs together.  Of a program
with a log beside its state, `Appends x Q` says what it adds before it returns.
-/

namespace FacLpr

namespace Program

variable {ε ℓ α β : Type} {good : ℓ → Prop}

/-- `x` returns `a`, and what it logs is good. -/
def Yields (good : ℓ → Prop) (x : Program ε (List ℓ) α) (a : α) : Prop :=
  ∀ log, ∃ more, x log = .ok a (log ++ more) ∧ ∀ entry ∈ more, good entry

theorem yields_pure (a : α) : Yields good (pure a : Program ε (List ℓ) α) a :=
  fun log => ⟨[], by rw [List.append_nil]; rfl, fun _ h => absurd h List.not_mem_nil⟩

/-- Log one entry, and return. -/
theorem yields_log {entry : ℓ} (h : good entry) (a : α) :
    Yields good (do modify (· ++ [entry]); return a : Program ε (List ℓ) α) a :=
  fun _ => ⟨[entry], rfl, fun _ h' => List.mem_singleton.mp h' ▸ h⟩

/-- **Sequencing.** -/
theorem Yields.bind {x : Program ε (List ℓ) α} {f : α → Program ε (List ℓ) β} {a : α} {b : β}
    (hx : Yields good x a) (hf : Yields good (f a) b) : Yields good (x >>= f) b := by
  intro log
  obtain ⟨more, hrun, hmore⟩ := hx log
  obtain ⟨rest, hrest, hgood⟩ := hf (log ++ more)
  refine ⟨more ++ rest, ?_, List.forall_mem_append.mpr ⟨hmore, hgood⟩⟩
  rw [bind_run_ok hrun, hrest, List.append_assoc]

/-- What is logged is good in every weaker sense. -/
theorem Yields.mono {x : Program ε (List ℓ) α} {a : α} {good' : ℓ → Prop} (hx : Yields good x a)
    (h : ∀ entry, good entry → good' entry) : Yields good' x a := by
  intro log
  obtain ⟨more, hrun, hmore⟩ := hx log
  exact ⟨more, hrun, fun entry hentry => h entry (hmore entry hentry)⟩

theorem Yields.map {x : Program ε (List ℓ) α} {a : α} (hx : Yields good x a) (f : α → β) :
    Yields good (f <$> x) (f a) := by
  rw [map_eq_pure_bind]
  exact hx.bind (yields_pure _)

/-- A loop does what the loop of its values does. -/
theorem yields_foldlM {f : β → α → Program ε (List ℓ) β} {g : β → α → β} {l : List α}
    (h : ∀ a ∈ l, ∀ b, Yields good (f b a) (g b a)) (b : β) :
    Yields good (l.foldlM f b) (l.foldl g b) := by
  induction l generalizing b with
  | nil => exact yields_pure b
  | cons a l ih =>
    rw [List.foldlM_cons, List.foldl_cons]
    exact (h a List.mem_cons_self b).bind (ih (fun c hc => h c (List.mem_cons_of_mem a hc)) _)

theorem yields_ofExcept {v : Except ε α} {a : α} (h : v = .ok a) :
    Yields good (ofExcept v : Program ε (List ℓ) α) a := by
  subst h
  exact yields_pure a

theorem ofExcept_eq_ok {σ : Type} {v : Except ε α} {s s' : σ} {a : α} :
    ofExcept v s = .ok a s' ↔ v = .ok a ∧ s' = s := by
  cases v with
  | ok b => exact ⟨fun h => by cases h; exact ⟨rfl, rfl⟩, fun ⟨h, hs⟩ => by cases h; cases hs; rfl⟩
  | error e => exact ⟨fun h => (nomatch h), fun h => (nomatch h.1)⟩

/-- What it yields is what it returns, from any log. -/
theorem Yields.returned {x : Program ε (List ℓ) α} {a : α} (h : Yields good x a) (log : List ℓ) :
    x.returned? log = some a := by
  obtain ⟨more, hrun, -⟩ := h log
  exact returned?_eq_some.mpr ⟨_, hrun⟩

/-! ## A log beside a state -/

section Appends

variable {σ : Type}

/-- Whenever `x` returns `a`, it has added entries `more` to the log with `Q a more`. -/
def Appends (x : Program ε (σ × List ℓ) α) (Q : α → List ℓ → Prop) : Prop :=
  ∀ s log a s' log', x (s, log) = .ok a (s', log') → ∃ more, log' = log ++ more ∧ Q a more

theorem Appends.mono {x : Program ε (σ × List ℓ) α} {P Q : α → List ℓ → Prop} (h : Appends x P)
    (hPQ : ∀ a more, P a more → Q a more) : Appends x Q := by
  intro s log a s' log' hrun
  obtain ⟨more, hlog, hmore⟩ := h s log a s' log' hrun
  exact ⟨more, hlog, hPQ a more hmore⟩

theorem appends_pure {a : α} {Q : α → List ℓ → Prop} (h : Q a []) :
    Appends (pure a : Program ε (σ × List ℓ) α) Q := by
  intro s log b s' log' hrun
  cases hrun
  exact ⟨[], (List.append_nil log).symm, h⟩

theorem appends_throw (e : ε) (Q : α → List ℓ → Prop) :
    Appends (throw e : Program ε (σ × List ℓ) α) Q :=
  fun _ _ _ _ _ hrun => nomatch hrun

/-- **Sequencing.** -/
theorem Appends.bind {x : Program ε (σ × List ℓ) α} {f : α → Program ε (σ × List ℓ) β}
    {P : α → List ℓ → Prop} {Q : β → List ℓ → Prop} (hx : Appends x P)
    (hf : ∀ a before, P a before → Appends (f a) fun b more => Q b (before ++ more)) :
    Appends (x >>= f) Q := by
  intro s log b s' log' hrun
  obtain ⟨a, ⟨t, logged⟩, hxa, hfb⟩ := bind_eq_ok.mp hrun
  obtain ⟨before, rfl, hbefore⟩ := hx s log a t logged hxa
  obtain ⟨more, rfl, hmore⟩ := hf a before hbefore t _ b s' log' hfb
  exact ⟨before ++ more, List.append_assoc log before more, hmore⟩

/-- A sequence that starts with a program that logs nothing. -/
theorem Appends.bind_silent {x : Program ε (σ × List ℓ) α} {f : α → Program ε (σ × List ℓ) β}
    {P : α → Prop} {Q : β → List ℓ → Prop} (hx : Appends x fun a more => P a ∧ more = [])
    (hf : ∀ a, P a → Appends (f a) Q) : Appends (x >>= f) Q := by
  refine hx.bind fun a before hbefore => ?_
  obtain ⟨ha, rfl⟩ := hbefore
  exact hf a ha

end Appends

end Program

end FacLpr

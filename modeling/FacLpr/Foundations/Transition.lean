import Mathlib.Data.List.Induction

/-!
# Foundations/Transition — runs of a partial step function

A system takes one action at a time, and an action it cannot take has no next state.  What every
step preserves, every run does (`runSteps_invariant`).
-/

namespace FacLpr

variable {σ α : Type*}

/-- The state after some actions, if each can be taken in turn. -/
def runSteps (step : σ → α → Option σ) : σ → List α → Option σ
  | s, [] => some s
  | s, a :: actions => (step s a).bind fun t => runSteps step t actions

theorem runSteps_cons_eq_some {step : σ → α → Option σ} {s s' : σ} {a : α} {actions : List α} :
    runSteps step s (a :: actions) = some s' ↔
      ∃ t, step s a = some t ∧ runSteps step t actions = some s' :=
  Option.bind_eq_some_iff

/-- A run goes through the states its parts reach. -/
theorem runSteps_append_eq_some {step : σ → α → Option σ} {s s' : σ} {before after : List α} :
    runSteps step s (before ++ after) = some s' ↔
      ∃ t, runSteps step s before = some t ∧ runSteps step t after = some s' := by
  induction before generalizing s with
  | nil => simp [runSteps]
  | cons a before ih =>
    simp only [List.cons_append, runSteps_cons_eq_some, ih]
    constructor
    · rintro ⟨u, hu, t, ht, hafter⟩
      exact ⟨t, ⟨u, hu, ht⟩, hafter⟩
    · rintro ⟨t, ⟨u, hu, ht⟩, hafter⟩
      exact ⟨u, hu, t, ht, hafter⟩

/-- **What every step preserves, every run does.** -/
theorem runSteps_invariant {step : σ → α → Option σ} {I : σ → Prop}
    (hstep : ∀ s a s', I s → step s a = some s' → I s') {actions : List α} {s s' : σ} (hs : I s)
    (h : runSteps step s actions = some s') : I s' := by
  induction actions generalizing s with
  | nil =>
    obtain rfl := Option.some.inj h
    exact hs
  | cons a actions ih =>
    obtain ⟨t, ht, hrest⟩ := runSteps_cons_eq_some.mp h
    exact ih (hstep s a t hs ht) hrest

/-! ## Every step of a run -/

/-- Every step of a run has a property. -/
def EveryStep (step : σ → α → Option σ) (s : σ) (actions : List α) (P : σ → α → σ → Prop) : Prop :=
  ∀ (before after : List α) (a : α) (t t' : σ), actions = before ++ a :: after →
    runSteps step s before = some t → step t a = some t' → P t a t'

theorem everyStep_cons {step : σ → α → Option σ} {s : σ} {a : α} {actions : List α}
    {P : σ → α → σ → Prop} (h : EveryStep step s (a :: actions) P) {t : σ}
    (hstep : step s a = some t) :
    P s a t ∧ EveryStep step t actions P := by
  refine ⟨h [] actions a s t rfl rfl hstep, ?_⟩
  rintro before after b u u' rfl hbefore hb
  exact h (a :: before) after b u u' rfl (runSteps_cons_eq_some.mpr ⟨t, hstep, hbefore⟩) hb

theorem everyStep_nil (step : σ → α → Option σ) (s : σ) (P : σ → α → σ → Prop) :
    EveryStep step s [] P :=
  fun _ _ _ _ _ h => absurd h.symm (List.append_ne_nil_of_right_ne_nil _ (List.cons_ne_nil _ _))

/-- A step with the property, then steps with it. -/
theorem EveryStep.cons {step : σ → α → Option σ} {s t : σ} {a : α} {actions : List α}
    {P : σ → α → σ → Prop} (hP : P s a t) (hstep : step s a = some t)
    (h : EveryStep step t actions P) : EveryStep step s (a :: actions) P := by
  rintro before after b u u' hactions hbefore hb
  cases before with
  | nil =>
    obtain ⟨rfl, rfl⟩ := List.cons.inj hactions
    obtain rfl := Option.some.inj hbefore
    obtain rfl := Option.some.inj (hstep.symm.trans hb)
    exact hP
  | cons c before =>
    obtain ⟨rfl, hrest⟩ := List.cons.inj hactions
    obtain ⟨v, hv, hbefore⟩ := runSteps_cons_eq_some.mp hbefore
    obtain rfl := Option.some.inj (hstep.symm.trans hv)
    exact h before after b u u' hrest hbefore hb

/-- What every step with a property preserves, every run of such steps does. -/
theorem runSteps_invariant_of_everyStep {step : σ → α → Option σ} {I : σ → Prop}
    {P : σ → α → σ → Prop} (hstep : ∀ s a s', I s → P s a s' → step s a = some s' → I s')
    {actions : List α} {s s' : σ} (hs : I s) (hevery : EveryStep step s actions P)
    (h : runSteps step s actions = some s') : I s' := by
  induction actions generalizing s with
  | nil =>
    obtain rfl := Option.some.inj h
    exact hs
  | cons a actions ih =>
    obtain ⟨t, ht, hrest⟩ := runSteps_cons_eq_some.mp h
    obtain ⟨hP, hevery⟩ := everyStep_cons hevery ht
    exact ih (hstep s a t hs hP ht) hevery hrest

/-- The beginning of a run has the steps of the run. -/
theorem EveryStep.of_append {step : σ → α → Option σ} {s : σ} {before after : List α}
    {P : σ → α → σ → Prop} (h : EveryStep step s (before ++ after) P) :
    EveryStep step s before P := by
  rintro front back a t t' rfl
  exact h front (back ++ after) a t t' (by simp)

/-- **What every step with a property keeps of a state and the actions that led to it**, every run
of such steps does. -/
theorem runSteps_history {step : σ → α → Option σ} {I : List α → σ → Prop} {P : σ → α → σ → Prop}
    (hstep : ∀ before s a s', I before s → P s a s' → step s a = some s' → I (before ++ [a]) s')
    {actions : List α} {s s' : σ} (hs : I [] s) (hevery : EveryStep step s actions P)
    (h : runSteps step s actions = some s') : I actions s' := by
  induction actions using List.reverseRecOn generalizing s' with
  | nil =>
    obtain rfl := Option.some.inj h
    exact hs
  | append_singleton actions a ih =>
    obtain ⟨t, ht, ha⟩ := runSteps_append_eq_some.mp h
    obtain ⟨u, hu, hu'⟩ := runSteps_cons_eq_some.mp ha
    obtain rfl := Option.some.inj hu'
    exact hstep actions t a _ (ih hevery.of_append ht) (hevery actions [] a t _ rfl ht hu) hu

/-- **Two properties a state with the invariant cannot tell apart** hold of the same runs. -/
theorem everyStep_congr {step : σ → α → Option σ} {I : σ → Prop} {P Q : σ → α → σ → Prop}
    (hstep : ∀ s a s', I s → step s a = some s' → I s')
    (hiff : ∀ s a s', I s → step s a = some s' → (P s a s' ↔ Q s a s')) {s : σ} (hs : I s)
    (actions : List α) : EveryStep step s actions P ↔ EveryStep step s actions Q := by
  have hreach : ∀ {before : List α} {t : σ}, runSteps step s before = some t → I t :=
    fun hbefore => runSteps_invariant hstep hs hbefore
  constructor
  · intro h before after a t t' hactions hbefore ha
    exact (hiff t a t' (hreach hbefore) ha).mp (h before after a t t' hactions hbefore ha)
  · intro h before after a t t' hactions hbefore ha
    exact (hiff t a t' (hreach hbefore) ha).mpr (h before after a t t' hactions hbefore ha)

end FacLpr

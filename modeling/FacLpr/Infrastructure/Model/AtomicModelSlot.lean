import FacLpr.Application.Error
import FacLpr.Foundations.Transition
import Mathlib.Data.List.Nodup

/-!
# Infrastructure/Model/AtomicModelSlot — reloads race, readers never notice

A call of `reload` or of `reload_async` is the body of `reload_state` (`Phase.next`), and an action
is one step of one call, or a call of `acquire`; so a list of actions is an interleaving of any
number of reloads with any number of readers.  An action carries what the loader, the validator or
the reader saw.

What a call has done is read off where it is (`Did`).  A candidate is loaded, validated and
published inside one critical section, so publications come in the order of the loads
(`Inv.pending`).
-/

namespace FacLpr

namespace AtomicModelSlot

variable {M : Type}

/-- What a loader does: it throws, or returns a pointer that may be null. -/
inductive Loaded (M : Type) where
  | threw
  | returned (candidate : Option M)
  deriving DecidableEq

/-- What a validator does: it throws, or returns its answer and leaves the candidate, which it is
given by reference, with some value. -/
inductive Verdict (M : Type) where
  | threw
  | returned (accepted : Bool) (candidate : Option M)
  deriving DecidableEq

/-- A call of `reload_state`, between its steps. -/
inductive Phase (M : Type) where
  | waiting
  | loading
  | validating (candidate : M)
  | publishing (candidate : Option M)
  | leaving (result : Bool)
  | returned (result : Bool)
  deriving DecidableEq

inductive Action (M : Type) where
  | reload
  | reloadAsync
  | lock (call : ℕ)
  | load (call : ℕ) (loaded : Loaded M)
  | validate (call : ℕ) (verdict : Verdict M)
  | publish (call : ℕ) (candidate : Option M)
  | unlock (call : ℕ)
  | acquire (model : Option M)
  deriving DecidableEq

/-- The call an action is a step of. -/
def Action.call? : Action M → Option ℕ
  | .lock call | .load call _ | .validate call _ | .publish call _ | .unlock call => some call
  | _ => none

/-- The members of the slot's state, and the reloads begun so far. -/
structure State (M : Type) where
  active : Option M
  reloadMutex : Option ℕ
  calls : List (Phase M)
  deriving DecidableEq

/-- The constructor. -/
def make (initial : Option M) : Except EngineError (State M) := do
  require initial.isSome (configurationError "initial model/session cannot be null")
  return { active := initial, reloadMutex := none, calls := [] }

/-- The pointer an action leaves published. -/
def Action.activeAfter (active : Option M) : Action M → Option M
  | .publish _ candidate => candidate
  | _ => active

/-- The owner of the mutex after an action. -/
def Action.mutexAfter (owner : Option ℕ) : Action M → Option ℕ
  | .lock call => some call
  | .unlock _ => none
  | _ => owner

section Step

variable [DecidableEq M]

/-- The body of `reload_state`, one step at a time. -/
def Phase.next : Phase M → Action M → Option (Phase M)
  | .waiting, .lock _ => some .loading
  | .loading, .load _ .threw => some (.leaving false)
  | .loading, .load _ (.returned none) => some (.leaving false)
  | .loading, .load _ (.returned (some candidate)) => some (.validating candidate)
  | .validating _, .validate _ .threw => some (.leaving false)
  | .validating _, .validate _ (.returned false _) => some (.leaving false)
  | .validating _, .validate _ (.returned true candidate) => some (.publishing candidate)
  | .publishing candidate, .publish _ stored =>
      if stored = candidate then some (.leaving true) else none
  | .leaving result, .unlock _ => some (.returned result)
  | _, _ => none

namespace State

/-- One call takes its next step. -/
def advance (s : State M) (call : ℕ) (a : Action M) : Option (State M) :=
  s.calls[call]?.bind fun phase =>
    (phase.next a).map fun next => { s with calls := s.calls.set call next }

/-- Every action that is possible: the mutex is taken when it is free, and a reader sees the
published pointer. -/
def step (s : State M) (a : Action M) : Option (State M) :=
  match a with
  | .reload | .reloadAsync => some { s with calls := s.calls ++ [.waiting] }
  | .lock call =>
      if s.reloadMutex = none then
        (s.advance call a).map fun t => { t with reloadMutex := some call }
      else none
  | .load call _ | .validate call _ => s.advance call a
  | .publish call candidate => (s.advance call a).map fun t => { t with active := candidate }
  | .unlock call => (s.advance call a).map fun t => { t with reloadMutex := none }
  | .acquire model => if model = s.active then some s else none

end State

/-! ## What a step can do -/

theorem State.advance_eq_some {s s' : State M} {call : ℕ} {a : Action M} :
    s.advance call a = some s' ↔
      ∃ phase next, s.calls[call]? = some phase ∧ phase.next a = some next ∧
        s' = { s with calls := s.calls.set call next } := by
  simp only [advance, Option.bind_eq_some_iff, Option.map_eq_some_iff]
  constructor
  · rintro ⟨phase, hphase, next, hnext, rfl⟩
    exact ⟨phase, next, hphase, hnext, rfl⟩
  · rintro ⟨phase, next, hphase, hnext, rfl⟩
    exact ⟨phase, hphase, next, hnext, rfl⟩

/-- **A step** begins a reload, moves one, or reads. -/
theorem State.step_effect {s s' : State M} {a : Action M} (h : s.step a = some s') :
    (a.call? = none ∧ s' = { s with calls := s.calls ++ [.waiting] }) ∨
    (a = .acquire s.active ∧ s' = s) ∨
    ∃ call phase next, a.call? = some call ∧ s.calls[call]? = some phase ∧
      phase.next a = some next ∧ (a = .lock call → s.reloadMutex = none) ∧
      s' = { active := a.activeAfter s.active, reloadMutex := a.mutexAfter s.reloadMutex,
             calls := s.calls.set call next } := by
  cases a with
  | reload | reloadAsync => exact Or.inl ⟨rfl, (Option.some.inj h).symm⟩
  | acquire model =>
    rw [step, Option.ite_none_right_eq_some] at h
    obtain ⟨rfl, h⟩ := h
    exact Or.inr (Or.inl ⟨rfl, (Option.some.inj h).symm⟩)
  | lock call =>
    rw [step, Option.ite_none_right_eq_some, Option.map_eq_some_iff] at h
    obtain ⟨hfree, t, ht, rfl⟩ := h
    obtain ⟨phase, next, hphase, hnext, rfl⟩ := advance_eq_some.mp ht
    exact Or.inr (Or.inr ⟨call, phase, next, rfl, hphase, hnext, fun _ => hfree, rfl⟩)
  | load call | validate call =>
    obtain ⟨phase, next, hphase, hnext, rfl⟩ := advance_eq_some.mp h
    exact Or.inr (Or.inr ⟨call, phase, next, rfl, hphase, hnext, nofun, rfl⟩)
  | publish call | unlock call =>
    rw [step, Option.map_eq_some_iff] at h
    obtain ⟨t, ht, rfl⟩ := h
    obtain ⟨phase, next, hphase, hnext, rfl⟩ := advance_eq_some.mp ht
    exact Or.inr (Or.inr ⟨call, phase, next, rfl, hphase, hnext, nofun, rfl⟩)

end Step

/-! ## What a call has done -/

/-- The steps of one call. -/
def traceOf (call : ℕ) (actions : List (Action M)) : List (Action M) :=
  actions.filter fun a => a.call? == some call

theorem traceOf_append_of_eq {call : ℕ} {actions : List (Action M)} {a : Action M}
    (h : a.call? = some call) : traceOf call (actions ++ [a]) = traceOf call actions ++ [a] := by
  simp [traceOf, List.filter_append, h]

theorem traceOf_append_of_ne {call : ℕ} {actions : List (Action M)} {a : Action M}
    (h : a.call? ≠ some call) : traceOf call (actions ++ [a]) = traceOf call actions := by
  simp [traceOf, List.filter_append, h]

/-- The validator, called on a candidate, leaves it as it was. -/
def LeavesCandidate (s : State M) (a : Action M) (_ : State M) : Prop :=
  ∀ call accepted after, a = .validate call (.returned accepted after) →
    ∃ candidate, s.calls[call]? = some (.validating candidate) ∧ after = some candidate

/-- The steps that brought a call where it is. -/
inductive Did (call : ℕ) : Phase M → List (Action M) → Prop
  | waiting : Did call .waiting []
  | loading : Did call .loading [.lock call]
  | validating (candidate : M) : Did call (.validating candidate)
      [.lock call, .load call (.returned (some candidate))]
  | publishing (candidate : M) : Did call (.publishing (some candidate))
      [.lock call, .load call (.returned (some candidate)),
        .validate call (.returned true (some candidate))]
  | published (candidate : M) : Did call (.leaving true)
      [.lock call, .load call (.returned (some candidate)),
        .validate call (.returned true (some candidate)), .publish call (some candidate)]
  | notLoaded {loaded : Loaded M} (h : loaded = .threw ∨ loaded = .returned none) :
      Did call (.leaving false) [.lock call, .load call loaded]
  | rejected (candidate : M) {verdict : Verdict M}
      (h : verdict = .threw ∨ ∃ after, verdict = .returned false after) :
      Did call (.leaving false)
        [.lock call, .load call (.returned (some candidate)), .validate call verdict]
  | returned {result : Bool} {trace : List (Action M)} (h : Did call (.leaving result) trace) :
      Did call (.returned result) (trace ++ [.unlock call])

/-- One more step of the body of `reload_state`. -/
theorem Did.next [DecidableEq M] {call : ℕ} {phase next : Phase M} {trace : List (Action M)}
    {a : Action M}
    (h : Did call phase trace) (hcall : a.call? = some call) (hnext : phase.next a = some next)
    (hcandidate : ∀ accepted after candidate, a = .validate call (.returned accepted after) →
      phase = .validating candidate → after = some candidate) :
    Did call next (trace ++ [a]) := by
  cases a with
  | reload | reloadAsync | acquire => cases hcall
  | lock i =>
    obtain rfl := Option.some.inj hcall
    cases h <;> cases hnext
    exact .loading
  | load i loaded =>
    obtain rfl := Option.some.inj hcall
    match loaded with
    | .threw => cases h <;> cases hnext; exact .notLoaded (Or.inl rfl)
    | .returned none => cases h <;> cases hnext; exact .notLoaded (Or.inr rfl)
    | .returned (some candidate) => cases h <;> cases hnext; exact .validating candidate
  | validate i verdict =>
    obtain rfl := Option.some.inj hcall
    match verdict with
    | .threw => cases h <;> cases hnext; exact .rejected _ (Or.inl rfl)
    | .returned false after =>
      cases h <;> cases hnext
      exact .rejected _ (Or.inr ⟨after, rfl⟩)
    | .returned true after =>
      cases h <;> cases hnext
      obtain rfl := hcandidate true after _ rfl rfl
      exact .publishing _
  | publish i stored =>
    obtain rfl := Option.some.inj hcall
    cases h with
    | publishing candidate =>
      simp only [Phase.next, Option.ite_none_right_eq_some, Option.some.injEq] at hnext
      obtain ⟨rfl, rfl⟩ := hnext
      exact .published candidate
    | _ => cases hnext
  | unlock i =>
    obtain rfl := Option.some.inj hcall
    cases hphase : phase with
    | leaving result =>
      subst hphase
      obtain rfl := Option.some.inj hnext
      exact .returned h
    | _ => subst hphase; cases hnext

/-! ## The critical section -/

/-- A call between its lock and its unlock. -/
def Phase.holds : Phase M → Bool
  | .waiting | .returned _ => false
  | _ => true

/-- The candidate a call has loaded and may still publish. -/
def Phase.candidate? : Phase M → Option M
  | .validating candidate => some candidate
  | .publishing candidate => candidate
  | _ => none

theorem Phase.holds_of_candidate? {phase : Phase M} {c : M} (h : phase.candidate? = some c) :
    phase.holds = true := by
  cases phase <;> first | rfl | cases h

/-- The candidate an action loads, with its call. -/
def Action.loaded? : Action M → Option (ℕ × M)
  | .load call (.returned (some candidate)) => some (call, candidate)
  | _ => none

/-- The candidate an action publishes, with its call. -/
def Action.published? : Action M → Option (ℕ × M)
  | .publish call (some candidate) => some (call, candidate)
  | _ => none

/-- The candidates loaded, oldest first. -/
def loads (actions : List (Action M)) : List (ℕ × M) := actions.filterMap Action.loaded?

/-- The candidates published, oldest first. -/
def publications (actions : List (Action M)) : List (ℕ × M) := actions.filterMap Action.published?

theorem loads_append (actions : List (Action M)) (a : Action M) :
    loads (actions ++ [a]) = loads actions ++ a.loaded?.toList := by
  rw [loads, List.filterMap_append]
  cases h : a.loaded? <;> simp [loads, h]

theorem publications_append (actions : List (Action M)) (a : Action M) :
    publications (actions ++ [a]) = publications actions ++ a.published?.toList := by
  rw [publications, List.filterMap_append]
  cases h : a.published? <;> simp [publications, h]

/-- **The mutex is held from the lock to the unlock.** -/
theorem Phase.holds_next [DecidableEq M] {phase next : Phase M} {call : ℕ} {a : Action M}
    (hcall : a.call? = some call) (h : phase.next a = some next) :
    (a = .lock call ∧ phase.holds = false ∧ next.holds = true) ∨
    (a = .unlock call ∧ phase.holds = true ∧ next.holds = false) ∨
    (phase.holds = true ∧ next.holds = true ∧ ∀ owner, a.mutexAfter owner = owner) := by
  cases phase <;> cases a <;> cases hcall
  case waiting.lock => cases h; exact Or.inl ⟨rfl, rfl, rfl⟩
  case leaving.unlock => cases h; exact Or.inr (Or.inl ⟨rfl, rfl, rfl⟩)
  case loading.load loaded =>
    match loaded with
    | .threw | .returned none | .returned (some _) =>
      cases h
      exact Or.inr (Or.inr ⟨rfl, rfl, fun _ => rfl⟩)
  case validating.validate verdict =>
    match verdict with
    | .threw | .returned false _ | .returned true _ =>
      cases h
      exact Or.inr (Or.inr ⟨rfl, rfl, fun _ => rfl⟩)
  case publishing.publish =>
    simp only [Phase.next, Option.ite_none_right_eq_some, Option.some.injEq] at h
    obtain ⟨-, rfl⟩ := h
    exact Or.inr (Or.inr ⟨rfl, rfl, fun _ => rfl⟩)
  all_goals cases h

/-- **A candidate is loaded, then kept, then published.** -/
theorem Did.next_candidate [DecidableEq M] {call : ℕ} {phase next : Phase M}
    {trace : List (Action M)}
    {a : Action M} (hdid : Did call phase trace) (hcall : a.call? = some call)
    (h : phase.next a = some next)
    (hcandidate : ∀ accepted after candidate, a = .validate call (.returned accepted after) →
      phase = .validating candidate → after = some candidate) :
    (∃ c, a.loaded? = some (call, c) ∧ a.published? = none ∧ next.candidate? = some c ∧
      ∀ active, a.activeAfter active = active) ∨
    (∃ c, a.loaded? = none ∧ a.published? = some (call, c) ∧ phase.candidate? = some c ∧
      next.candidate? = none ∧ ∀ active, a.activeAfter active = some c) ∨
    (a.loaded? = none ∧ a.published? = none ∧
      (∀ c, next.candidate? = some c → phase.candidate? = some c) ∧
      ∀ active, a.activeAfter active = active) := by
  cases a with
  | reload | reloadAsync | acquire => cases hcall
  | lock i => cases hdid <;> cases h; exact Or.inr (Or.inr ⟨rfl, rfl, nofun, fun _ => rfl⟩)
  | unlock i =>
    cases phase <;> cases h
    exact Or.inr (Or.inr ⟨rfl, rfl, nofun, fun _ => rfl⟩)
  | load i loaded =>
    obtain rfl := Option.some.inj hcall
    match loaded with
    | .threw | .returned none =>
      cases hdid <;> cases h
      exact Or.inr (Or.inr ⟨rfl, rfl, nofun, fun _ => rfl⟩)
    | .returned (some candidate) =>
      cases hdid <;> cases h
      exact Or.inl ⟨candidate, rfl, rfl, rfl, fun _ => rfl⟩
  | validate i verdict =>
    obtain rfl := Option.some.inj hcall
    match verdict with
    | .threw | .returned false _ =>
      cases hdid <;> cases h
      exact Or.inr (Or.inr ⟨rfl, rfl, nofun, fun _ => rfl⟩)
    | .returned true after =>
      cases hdid <;> cases h
      obtain rfl := hcandidate true after _ rfl rfl
      exact Or.inr (Or.inr ⟨rfl, rfl, fun _ hc => hc, fun _ => rfl⟩)
  | publish i stored =>
    obtain rfl := Option.some.inj hcall
    cases hdid with
    | publishing candidate =>
      simp only [Phase.next, Option.ite_none_right_eq_some, Option.some.injEq] at h
      obtain ⟨rfl, rfl⟩ := h
      exact Or.inr (Or.inl ⟨candidate, rfl, rfl, rfl, rfl, fun _ => rfl⟩)
    | _ => cases h

/-- What holds after a run of a slot that began with a model: where each call is, who owns the
mutex, what was loaded and published in which order, and which model is active. -/
structure Inv (initial : M) (actions : List (Action M)) (s : State M) : Prop where
  did : ∀ {call phase}, s.calls[call]? = some phase → Did call phase (traceOf call actions)
  absent : ∀ {call}, s.calls[call]? = none → traceOf call actions = []
  owner : ∀ {call phase}, s.calls[call]? = some phase →
    (phase.holds = true ↔ s.reloadMutex = some call)
  locked : ∀ {call}, s.reloadMutex = some call → ∃ phase, s.calls[call]? = some phase
  order : (publications actions).Sublist (loads actions)
  pending : ∀ {call phase c}, s.calls[call]? = some phase → phase.candidate? = some c →
    (publications actions ++ [(call, c)]).Sublist (loads actions)
  active : s.active = some ((publications actions).getLast?.elim initial Prod.snd)

theorem Inv.init {initial : Option M} {s : State M} (h : make initial = .ok s) :
    ∃ model, initial = some model ∧ Inv model [] s := by
  obtain ⟨_, hsome, hs⟩ := except_bind_eq_ok.mp h
  obtain ⟨model, rfl⟩ := Option.isSome_iff_exists.mp (require_eq_ok.mp hsome)
  obtain rfl := Except.ok.inj hs
  exact ⟨model, rfl, nofun, fun _ => rfl, nofun, nofun, List.Sublist.refl _, nofun, rfl⟩

/-- An action of no call is in no trace, and loads and publishes nothing. -/
theorem quiet_of_call? {a : Action M} (h : a.call? = none) (actions : List (Action M)) :
    (∀ call, traceOf call (actions ++ [a]) = traceOf call actions) ∧
      loads (actions ++ [a]) = loads actions ∧
      publications (actions ++ [a]) = publications actions := by
  refine ⟨fun call => traceOf_append_of_ne (by simp [h]), ?_, ?_⟩
  · rw [loads_append]
    cases a with
    | reload | reloadAsync | acquire => simp [Action.loaded?]
    | _ => cases h
  · rw [publications_append]
    cases a with
    | reload | reloadAsync | acquire => simp [Action.published?]
    | _ => cases h

/-- Reading changes nothing. -/
theorem Inv.read {initial : M} {before : List (Action M)} {s : State M} {a : Action M}
    (hs : Inv initial before s) (hcall : a.call? = none) : Inv initial (before ++ [a]) s := by
  obtain ⟨htrace, hloads, hpublications⟩ := quiet_of_call? hcall before
  constructor
  case did => exact fun hphase => (htrace _).symm ▸ hs.did hphase
  case absent => exact fun hnone => (htrace _).trans (hs.absent hnone)
  case owner => exact hs.owner
  case locked => exact hs.locked
  case order => rw [hloads, hpublications]; exact hs.order
  case pending => rw [hloads, hpublications]; exact hs.pending
  case active => rw [hpublications]; exact hs.active

/-- A reload that begins has done nothing and holds nothing. -/
theorem Inv.begin {initial : M} {actions : List (Action M)} {s : State M}
    (hs : Inv initial actions s) :
    Inv initial actions { s with calls := s.calls ++ [.waiting] } := by
  have hold : ∀ {call : ℕ} {phase : Phase M}, (s.calls ++ [Phase.waiting])[call]? = some phase →
      s.calls[call]? = some phase ∨ s.calls[call]? = none ∧ phase = Phase.waiting := by
    intro call phase hphase
    rw [List.getElem?_append] at hphase
    split at hphase
    · exact Or.inl hphase
    · rename_i hlen
      rw [List.getElem?_singleton, Option.ite_none_right_eq_some] at hphase
      exact Or.inr ⟨List.getElem?_eq_none (Nat.not_lt.mp hlen), (Option.some.inj hphase.2).symm⟩
  constructor
  case did =>
    intro call phase hphase
    rcases hold hphase with hphase | ⟨hnone, rfl⟩
    · exact hs.did hphase
    · rw [hs.absent hnone]
      exact .waiting
  case absent =>
    intro call hnone
    rw [List.getElem?_eq_none_iff, List.length_append] at hnone
    exact hs.absent (List.getElem?_eq_none (by omega))
  case owner =>
    intro call phase hphase
    rcases hold hphase with hphase | ⟨hnone, rfl⟩
    · exact hs.owner hphase
    · refine ⟨nofun, fun howner => ?_⟩
      obtain ⟨phase, hphase⟩ := hs.locked howner
      exact absurd (hphase.symm.trans hnone) nofun
  case locked =>
    intro call howner
    obtain ⟨phase, hphase⟩ := hs.locked howner
    exact ⟨phase, by rw [List.getElem?_append_left (List.getElem?_eq_some_iff.mp hphase).1, hphase]⟩
  case order => exact hs.order
  case pending =>
    intro call phase c hphase hc
    rcases hold hphase with hphase | ⟨-, rfl⟩
    · exact hs.pending hphase hc
    · cases hc
  case active => exact hs.active

/-- A call that takes a step keeps the invariant: only the owner of the mutex has a candidate, so
its publication is the next one in the order of the loads. -/
theorem Inv.move [DecidableEq M] {initial : M} {before : List (Action M)} {s : State M}
    {a : Action M} {call : ℕ}
    {phase next : Phase M} (hs : Inv initial before s) (hcall : a.call? = some call)
    (hphase : s.calls[call]? = some phase) (hnext : phase.next a = some next)
    (hfree : a = .lock call → s.reloadMutex = none)
    (hcandidate : ∀ accepted after candidate, a = .validate call (.returned accepted after) →
      phase = .validating candidate → after = some candidate) :
    Inv initial (before ++ [a])
      { active := a.activeAfter s.active, reloadMutex := a.mutexAfter s.reloadMutex,
        calls := s.calls.set call next } := by
  have hdid := hs.did hphase
  have hlen := (List.getElem?_eq_some_iff.mp hphase).1
  have hself : (s.calls.set call next)[call]? = some next := List.getElem?_set_self hlen
  have hother : ∀ {i}, call ≠ i → (s.calls.set call next)[i]? = s.calls[i]? :=
    fun hi => List.getElem?_set_ne hi
  have htrace : ∀ {i}, call ≠ i → traceOf i (before ++ [a]) = traceOf i before :=
    fun hi => traceOf_append_of_ne (by rw [hcall]; exact fun h => hi (Option.some.inj h))
  -- a call that holds the mutex is the only one
  have hunique : ∀ {i other}, call ≠ i → s.calls[i]? = some other → phase.holds = true →
      other.holds = false := by
    intro i other hi hget hholds
    refine Bool.eq_false_iff.mpr fun hother => hi ?_
    have howner := (hs.owner hphase).mp hholds
    rw [(hs.owner hget).mp hother] at howner
    exact (Option.some.inj howner).symm
  constructor
  case did =>
    intro i other hget
    by_cases hi : call = i
    · subst hi
      obtain rfl := Option.some.inj (hself.symm.trans hget)
      rw [traceOf_append_of_eq hcall]
      exact hdid.next hcall hnext hcandidate
    · rw [htrace hi]
      exact hs.did ((hother hi).symm.trans hget)
  case absent =>
    intro i hnone
    by_cases hi : call = i
    · subst hi
      exact absurd (hself.symm.trans hnone) nofun
    · rw [htrace hi]
      exact hs.absent ((hother hi).symm.trans hnone)
  case owner =>
    intro i other hget
    by_cases hi : call = i
    · subst hi
      obtain rfl := Option.some.inj (hself.symm.trans hget)
      rcases Phase.holds_next hcall hnext with ⟨rfl, -, hholds⟩ | ⟨rfl, -, hholds⟩ | ⟨h, hholds, ha⟩
      · exact ⟨fun _ => rfl, fun _ => hholds⟩
      · exact ⟨fun h => absurd (h.symm.trans hholds) nofun, nofun⟩
      · rw [ha]
        exact ⟨fun _ => (hs.owner hphase).mp h, fun _ => hholds⟩
    · have hsame : s.calls[i]? = some other := (hother hi).symm.trans hget
      rcases Phase.holds_next hcall hnext with ⟨rfl, -, -⟩ | ⟨rfl, h, -⟩ | ⟨-, -, ha⟩
      · have hnot : ¬ other.holds = true := by
          rw [hs.owner hsame, hfree rfl]
          exact nofun
        exact ⟨fun h => absurd h hnot, fun h => absurd (Option.some.inj h) hi⟩
      · exact ⟨fun h' => absurd (h'.symm.trans (hunique hi hsame h)) nofun, nofun⟩
      · rw [ha]
        exact hs.owner hsame
  case locked =>
    intro i howner
    by_cases hi : call = i
    · exact ⟨next, hi ▸ hself⟩
    · rw [hother hi]
      rcases Phase.holds_next hcall hnext with ⟨rfl, -, -⟩ | ⟨rfl, -, -⟩ | ⟨-, -, ha⟩
      · exact absurd (Option.some.inj howner) hi
      · cases howner
      · rw [ha] at howner
        exact hs.locked howner
  case order =>
    rw [loads_append, publications_append]
    rcases hdid.next_candidate hcall hnext hcandidate with
      ⟨c, hl, hp, -, -⟩ | ⟨c, hl, hp, hc, -, -⟩ | ⟨hl, hp, -, -⟩ <;> rw [hl, hp]
    · exact hs.order.append (List.nil_sublist _)
    · rw [Option.toList_some, Option.toList_none, List.append_nil]
      exact hs.pending hphase hc
    · exact hs.order.append (List.Sublist.refl _)
  case pending =>
    intro i other d hget hd
    rw [loads_append, publications_append]
    rcases hdid.next_candidate hcall hnext hcandidate with
      ⟨c, hl, hp, hc, -⟩ | ⟨c, hl, hp, hc, hnone, -⟩ | ⟨hl, hp, hkept, -⟩ <;>
        rw [hl, hp] <;> simp only [Option.toList_some, Option.toList_none, List.append_nil] <;>
        by_cases hi : call = i
    · subst hi
      obtain rfl := Option.some.inj (hself.symm.trans hget)
      obtain rfl := Option.some.inj (hc.symm.trans hd)
      exact hs.order.append (List.Sublist.refl _)
    · exact (hs.pending ((hother hi).symm.trans hget) hd).trans (List.sublist_append_left _ _)
    · subst hi
      obtain rfl := Option.some.inj (hself.symm.trans hget)
      exact absurd (hnone.symm.trans hd) nofun
    · have hholds := hunique hi ((hother hi).symm.trans hget) (Phase.holds_of_candidate? hc)
      exact absurd (hholds.symm.trans (Phase.holds_of_candidate? hd)) nofun
    · subst hi
      obtain rfl := Option.some.inj (hself.symm.trans hget)
      exact hs.pending hphase (hkept d hd)
    · exact hs.pending ((hother hi).symm.trans hget) hd
  case active =>
    rw [publications_append]
    rcases hdid.next_candidate hcall hnext hcandidate with
      ⟨c, hl, hp, -, ha⟩ | ⟨c, hl, hp, -, -, ha⟩ | ⟨hl, hp, -, ha⟩ <;> rw [hp, ha]
    · simpa using hs.active
    · simp
    · simpa using hs.active

/-! ## Runs -/

section Runs

variable [DecidableEq M]

theorem Inv.step {initial : M} {before : List (Action M)} {s s' : State M} {a : Action M}
    (hs : Inv initial before s) (hleaves : LeavesCandidate s a s') (h : s.step a = some s') :
    Inv initial (before ++ [a]) s' := by
  rcases State.step_effect h with ⟨hcall, rfl⟩ | ⟨rfl, rfl⟩ |
    ⟨call, phase, next, hcall, hphase, hnext, hfree, rfl⟩
  · exact (hs.read hcall).begin
  · exact hs.read rfl
  · refine hs.move hcall hphase hnext hfree ?_
    rintro accepted after candidate rfl rfl
    obtain ⟨candidate', hphase', hafter⟩ := hleaves call accepted after rfl
    rw [← Option.some.inj hcall, hphase'] at hphase
    cases hphase
    exact hafter

/-- **The invariant holds after every run.** -/
theorem Inv.run {initial : M} {actions : List (Action M)} {s₀ s : State M}
    (hs : Inv initial [] s₀) (hleaves : EveryStep State.step s₀ actions LeavesCandidate)
    (h : runSteps State.step s₀ actions = some s) : Inv initial actions s :=
  runSteps_history (fun _ _ _ _ hs hP hstep => hs.step hP hstep) hs hleaves h

end Runs

/-! ## What a call that published has done -/

theorem mem_traceOf {call : ℕ} {actions : List (Action M)} {a : Action M} (h : a ∈ actions)
    (hcall : a.call? = some call) : a ∈ traceOf call actions :=
  List.mem_filter.mpr ⟨h, by simp [hcall]⟩

/-- A call that took a step is somewhere in the body of `reload_state`. -/
theorem Inv.exists_phase {initial : M} {actions : List (Action M)} {s : State M} {a : Action M}
    {call : ℕ} (hs : Inv initial actions s) (ha : a ∈ actions) (hcall : a.call? = some call) :
    ∃ phase, Did call phase (traceOf call actions) := by
  cases hphase : s.calls[call]? with
  | some phase => exact ⟨phase, hs.did hphase⟩
  | none =>
    have hmem := mem_traceOf ha hcall
    rw [hs.absent hphase] at hmem
    exact absurd hmem List.not_mem_nil

/-- A call loaded a candidate, then its validator accepted it. -/
def Accepted (call : ℕ) (candidate : M) (actions : List (Action M)) : Prop :=
  List.Sublist [.load call (.returned (some candidate)),
    .validate call (.returned true (some candidate))] actions

/-- A call failed: its loader threw or returned null, or its validator threw or rejected. -/
def Failed (call : ℕ) (actions : List (Action M)) : Prop :=
  .load call .threw ∈ actions ∨ .load call (.returned none) ∈ actions ∨
    .validate call .threw ∈ actions ∨ ∃ after, .validate call (.returned false after) ∈ actions

/-- **What a call published, it had loaded and its validator had accepted.** -/
theorem Did.accepted_of_publish {call : ℕ} {phase : Phase M} {trace : List (Action M)}
    {stored : Option M} (h : Did call phase trace) (hmem : .publish call stored ∈ trace) :
    ∃ candidate, stored = some candidate ∧ Accepted call candidate trace := by
  induction h with
  | published candidate =>
    simp only [List.mem_cons, reduceCtorEq, false_or, Action.publish.injEq, List.not_mem_nil,
      or_false, true_and] at hmem
    exact ⟨candidate, hmem, by simp [Accepted]⟩
  | returned h ih =>
    obtain ⟨candidate, hstored, haccepted⟩ := ih (by simpa using hmem)
    exact ⟨candidate, hstored, haccepted.trans (List.sublist_append_left _ _)⟩
  | _ => simp at hmem

/-- A call that published did not fail. -/
theorem Did.not_failed_of_publish {call : ℕ} {phase : Phase M} {trace : List (Action M)}
    {stored : Option M} (h : Did call phase trace) (hmem : .publish call stored ∈ trace) :
    ¬ Failed call trace := by
  induction h with
  | published candidate => simp [Failed]
  | returned h ih =>
    have hnot := ih (by simpa using hmem)
    simpa [Failed] using hnot
  | _ => simp at hmem

/-- **A call returns `true` if and only if it published.** -/
theorem Did.result_iff {call : ℕ} {phase : Phase M} {trace : List (Action M)} {result : Bool}
    (h : Did call phase trace) (hphase : phase = .leaving result ∨ phase = .returned result) :
    result = true ↔ ∃ stored, .publish call stored ∈ trace := by
  induction h with
  | published candidate =>
    obtain rfl : true = result := by simpa using hphase
    exact ⟨fun _ => ⟨some candidate, by simp⟩, fun _ => rfl⟩
  | notLoaded | rejected =>
    obtain rfl : false = result := by simpa using hphase
    simp
  | returned h ih => simpa using ih (Or.inl (by simpa using hphase))
  | _ => simp at hphase

/-! ## Order -/

/-- A call loads once. -/
theorem Did.length_loads_le {call : ℕ} {phase : Phase M} {trace : List (Action M)}
    (h : Did call phase trace) : (loads trace).length ≤ 1 := by
  induction h with
  | notLoaded h => rcases h with rfl | rfl <;> simp [loads, List.filterMap_cons, Action.loaded?]
  | returned h ih => simpa [loads_append, Action.loaded?] using ih
  | _ => simp [loads, List.filterMap_cons, Action.loaded?]

theorem count_loads (call : ℕ) (actions : List (Action M)) :
    ((loads actions).map Prod.fst).count call = (loads (traceOf call actions)).length := by
  induction actions using List.reverseRecOn with
  | nil => rfl
  | append_singleton actions a ih =>
    rw [loads_append, List.map_append, List.count_append, ih]
    by_cases hcall : a.call? = some call
    · rw [traceOf_append_of_eq hcall, loads_append, List.length_append]
      congr 1
      cases a with
      | load i loaded =>
        obtain rfl := Option.some.inj hcall
        match loaded with
        | .threw | .returned none | .returned (some _) => simp [Action.loaded?]
      | _ => rfl
    · rw [traceOf_append_of_ne hcall]
      cases a with
      | load i loaded =>
        have hne : i ≠ call := fun h => hcall (congrArg some h)
        match loaded with
        | .threw | .returned none | .returned (some _) => simp [Action.loaded?, hne]
      | _ => rfl

theorem Inv.nodup_loads {initial : M} {actions : List (Action M)} {s : State M}
    (hs : Inv initial actions s) : ((loads actions).map Prod.fst).Nodup := by
  refine List.nodup_iff_count_le_one.mpr fun call => ?_
  rw [count_loads]
  cases hphase : s.calls[call]? with
  | some phase => exact (hs.did hphase).length_loads_le
  | none =>
    rw [hs.absent hphase]
    exact Nat.zero_le 1

/-- The model of the last publication, or the one the slot began with, is active. -/
theorem Inv.active_cases {initial : M} {actions : List (Action M)} {s : State M}
    (hs : Inv initial actions s) :
    s.active = some initial ∨
      ∃ call candidate, s.active = some candidate ∧ Accepted call candidate actions := by
  rw [hs.active]
  cases hlast : (publications actions).getLast? with
  | none => exact Or.inl rfl
  | some p =>
    obtain ⟨a, ha, hpublished⟩ := List.mem_filterMap.mp (List.mem_of_getLast? hlast)
    match a, hpublished with
    | .publish call (some candidate), hpublished =>
      obtain rfl := Option.some.inj hpublished
      obtain ⟨phase, hdid⟩ := hs.exists_phase ha rfl
      obtain ⟨_, hstored, haccepted⟩ := hdid.accepted_of_publish (mem_traceOf ha rfl)
      obtain rfl := Option.some.inj hstored
      exact Or.inr ⟨call, candidate, rfl, haccepted.trans List.filter_sublist⟩

theorem Failed.traceOf {call : ℕ} {actions : List (Action M)} (h : Failed call actions) :
    Failed call (traceOf call actions) := by
  rcases h with h | h | h | ⟨after, h⟩
  · exact Or.inl (mem_traceOf h rfl)
  · exact Or.inr (Or.inl (mem_traceOf h rfl))
  · exact Or.inr (Or.inr (Or.inl (mem_traceOf h rfl)))
  · exact Or.inr (Or.inr (Or.inr ⟨after, mem_traceOf h rfl⟩))

/-- The call that changes the active model publishes. -/
theorem State.step_active [DecidableEq M] {s s' : State M} {a : Action M}
    (h : s.step a = some s') (hno : ∀ call candidate, a ≠ .publish call candidate) :
    s'.active = s.active := by
  rcases step_effect h with ⟨-, rfl⟩ | ⟨-, rfl⟩ | ⟨call, phase, next, -, -, -, -, rfl⟩
  · rfl
  · rfl
  · cases a with
    | publish call candidate => exact absurd rfl (hno call candidate)
    | _ => rfl

/-- **Reloads are safe however they interleave**: a reader sees the first model or one a validator
accepted, a reload that fails changes nothing, a reload returns `true` when it published what it
loaded, and what is published replaces only what was loaded before it. -/
theorem reload_safe [DecidableEq M] {initial : Option M} {s₀ s : State M}
    {actions : List (Action M)} (hmake : make initial = .ok s₀)
    (hleaves : EveryStep State.step s₀ actions LeavesCandidate)
    (hrun : runSteps State.step s₀ actions = some s) :
    (∀ before after model, actions = before ++ .acquire model :: after →
      ∃ m, model = some m ∧ (initial = some m ∨ ∃ call, Accepted call m before)) ∧
    (∀ call, Failed call actions →
      (EveryStep State.step s₀ actions fun t a t' => a.call? = some call → t'.active = t.active) ∧
        s.calls[call]? ≠ some (.returned true)) ∧
    (∀ call result, s.calls[call]? = some (.returned result) →
      (result = true ↔ ∃ candidate, .publish call (some candidate) ∈ actions ∧
        Accepted call candidate actions)) ∧
    (publications actions).Sublist (loads actions) ∧ ((loads actions).map Prod.fst).Nodup ∧
    ∀ before after call candidate, actions = before ++ .publish call (some candidate) :: after →
      ∀ earlier ∈ publications before, [earlier, (call, candidate)].Sublist (loads before) := by
  obtain ⟨model, rfl, hinit⟩ := Inv.init hmake
  have hinv := hinit.run hleaves hrun
  refine ⟨?_, ?_, ?_, hinv.order, hinv.nodup_loads, ?_⟩
  · rintro before after seen rfl
    obtain ⟨t, hbefore, hafter⟩ := runSteps_append_eq_some.mp hrun
    obtain ⟨t', ht', -⟩ := runSteps_cons_eq_some.mp hafter
    rw [State.step, Option.ite_none_right_eq_some] at ht'
    obtain ⟨rfl, -⟩ := ht'
    rcases (hinit.run hleaves.of_append hbefore).active_cases with h | ⟨call, c, h, haccepted⟩
    · exact ⟨model, h, Or.inl rfl⟩
    · exact ⟨c, h, Or.inr ⟨call, haccepted⟩⟩
  · intro call hfailed
    constructor
    · rintro before after a t t' rfl - hstep hcall
      refine State.step_active hstep ?_
      rintro i stored rfl
      obtain rfl := Option.some.inj hcall
      have hmem : .publish i stored ∈ before ++ .publish i stored :: after := by simp
      obtain ⟨phase, hdid⟩ := hinv.exists_phase hmem rfl
      exact hdid.not_failed_of_publish (mem_traceOf hmem rfl) hfailed.traceOf
    · intro hreturned
      have hdid := hinv.did hreturned
      obtain ⟨stored, hmem⟩ := (hdid.result_iff (Or.inr rfl)).mp rfl
      exact hdid.not_failed_of_publish hmem hfailed.traceOf
  · intro call result hreturned
    have hdid := hinv.did hreturned
    rw [hdid.result_iff (Or.inr rfl)]
    constructor
    · rintro ⟨stored, hmem⟩
      obtain ⟨candidate, rfl, haccepted⟩ := hdid.accepted_of_publish hmem
      exact ⟨candidate, (List.mem_filter.mp hmem).1, haccepted.trans List.filter_sublist⟩
    · rintro ⟨candidate, hmem, -⟩
      exact ⟨some candidate, mem_traceOf hmem rfl⟩
  · rintro before after call candidate rfl earlier hearlier
    rw [← List.singleton_append, ← List.append_assoc] at hrun hleaves
    obtain ⟨t, hbefore, -⟩ := runSteps_append_eq_some.mp hrun
    have horder := (hinit.run hleaves.of_append hbefore).order
    rw [publications_append, loads_append] at horder
    refine List.Sublist.trans ?_ (by simpa [Action.loaded?] using horder)
    exact (List.singleton_sublist.mpr hearlier).append (List.Sublist.refl [(call, candidate)])

/-- Model 1 is published while model 0 serves; the next reload, which waited, finds no model. -/
def twoReloads : List (Action ℕ) :=
  [.reload, .reloadAsync, .lock 1, .load 1 (.returned (some 1)), .acquire (some 0),
    .validate 1 (.returned true (some 1)), .publish 1 (some 1), .unlock 1, .lock 0,
    .load 0 (.returned none), .unlock 0, .acquire (some 1)]

theorem reload_safe_twoReloads : ∃ s₀ s,
    make (some 0) = .ok s₀ ∧ runSteps State.step s₀ twoReloads = some s ∧
      s.calls = [.returned false, .returned true] ∧ Accepted 1 1 twoReloads := by
  have hleaves : EveryStep State.step ⟨some 0, none, []⟩ twoReloads LeavesCandidate := by
    refine .cons nofun rfl (.cons nofun rfl (.cons nofun rfl (.cons nofun rfl
      (.cons nofun rfl (.cons ?_ rfl (.cons nofun rfl (.cons nofun rfl (.cons nofun rfl
        (.cons nofun rfl (.cons nofun rfl (.cons nofun rfl (everyStep_nil _ _ _))))))))))))
    rintro call accepted after heq
    cases heq
    exact ⟨1, rfl, rfl⟩
  have hmake : make (some 0) = .ok (⟨some 0, none, []⟩ : State ℕ) := rfl
  have hsafe := reload_safe hmake hleaves rfl
  obtain ⟨candidate, hmem, haccepted⟩ := (hsafe.2.2.1 1 true rfl).mp rfl
  obtain rfl : candidate = 1 := by simpa [twoReloads] using hmem
  exact ⟨_, _, rfl, rfl, rfl, haccepted⟩

end AtomicModelSlot

end FacLpr

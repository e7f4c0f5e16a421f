import Mathlib.Data.List.Forall2

/-!
# Application/Error — the engine's exceptions

An `EngineError` carries a code and a message; the classes derived from it are its values at a
fixed code.  Anything else a provider may throw is `foreign`.
-/

namespace FacLpr

inductive EngineErrorCode where
  | configuration
  | modelLoad
  | inference
  | invalidImage
  | provider
  | cancelled
  | timeout
  | resourceExhausted
  | internal
  deriving DecidableEq, Repr

/-- An exception of the engine: `code()` and `what()`. -/
structure EngineError where
  code : EngineErrorCode
  message : String
  deriving DecidableEq, Repr

/-- What a call may throw: an `EngineError`, or anything else. -/
inductive Exn where
  | engine (error : EngineError)
  | foreign
  deriving DecidableEq, Repr

def configurationError (message : String) : EngineError := ⟨.configuration, message⟩

def inferenceError (message : String) : EngineError := ⟨.inference, message⟩

def modelLoadError (message : String) : EngineError := ⟨.modelLoad, message⟩

def invalidImageError (message : String) : EngineError := ⟨.invalidImage, message⟩

def providerError (message : String) : EngineError := ⟨.provider, message⟩

def cancelledError (message : String) : EngineError := ⟨.cancelled, message⟩

def timeoutError (message : String) : EngineError := ⟨.timeout, message⟩

def resourceExhaustedError (message : String) : EngineError := ⟨.resourceExhausted, message⟩

def internalError (message : String) : EngineError := ⟨.internal, message⟩

/-- Throw unless the check holds. -/
def require (check : Bool) (error : EngineError) : Except EngineError Unit :=
  if check then .ok () else .error error

@[simp] theorem require_eq_ok {check : Bool} {error : EngineError} {u : Unit} :
    require check error = .ok u ↔ check = true := by
  cases check <;> simp [require]

theorem require_eq_error {check : Bool} {error error' : EngineError}
    (h : require check error = .error error') : error' = error := by
  cases check with
  | false => exact (Except.error.inj h).symm
  | true => cases h

/-- A sequence of calls returns when each of them does. -/
theorem except_bind_eq_ok {ε α β : Type} {x : Except ε α} {f : α → Except ε β} {b : β} :
    (x >>= f) = .ok b ↔ ∃ a, x = .ok a ∧ f a = .ok b := by
  cases x with
  | error e => exact ⟨fun h => (nomatch h), fun ⟨_, h, _⟩ => (nomatch h)⟩
  | ok a => exact ⟨fun h => ⟨a, rfl, h⟩, fun ⟨_, h, h'⟩ => by cases h; exact h'⟩

/-- What a sequence of calls throws is thrown by one of them. -/
theorem except_bind_error {ε α β : Type} {x : Except ε α} {f : α → Except ε β} {P : ε → Prop}
    (hx : ∀ e, x = .error e → P e) (hf : ∀ a e, f a = .error e → P e) :
    ∀ e, (x >>= f) = .error e → P e := by
  intro e h
  cases x with
  | error e' => exact hx e (congrArg Except.error (Except.error.inj h))
  | ok a => exact hf a e h

theorem except_mapError_eq_ok {ε ε' α : Type} {x : Except ε α} {f : ε → ε'} {a : α} :
    x.mapError f = .ok a ↔ x = .ok a := by
  cases x with
  | error e => exact ⟨fun h => (nomatch h), fun h => (nomatch h)⟩
  | ok b => exact ⟨fun h => congrArg _ (Except.ok.inj h), fun h => congrArg _ (Except.ok.inj h)⟩

/-- Two sequences agree up to a map when their calls do. -/
theorem except_map_bind {ε α α' β β' : Type} {x : Except ε α} {f : α → Except ε β} {g : α → α'}
    {x' : Except ε α'} {f' : α' → Except ε β'} {h : β → β'} (hx : x.map g = x')
    (hf : ∀ a, x = .ok a → (f a).map h = f' (g a)) : (x >>= f).map h = x' >>= f' := by
  subst hx
  cases x with
  | error e => rfl
  | ok a => exact hf a rfl

/-- Two calls that agree up to an injective map return the same. -/
theorem except_eq_ok_iff_of_map {ε α α' : Type} {x : Except ε α} {g : α → α'} {x' : Except ε α'}
    (hg : Function.Injective g) (h : x.map g = x') {a : α} : x = .ok a ↔ x' = .ok (g a) := by
  subst h
  cases x with
  | error e => simp [Except.map]
  | ok b => simp [Except.map, hg.eq_iff]

/-- A check that holds does nothing. -/
theorem require_bind_of_true {β : Type} {check : Bool} {error : EngineError}
    {f : Unit → Except EngineError β} (h : check = true) : (require check error >>= f) = f () := by
  subst h
  rfl

/-- Two calls that agree up to a map return together. -/
theorem except_exists_eq_ok_of_map {ε α α' : Type} {x : Except ε α} {g : α → α'}
    {x' : Except ε α'} (h : x.map g = x') : (∃ a, x = .ok a) ↔ ∃ a', x' = .ok a' := by
  subst h
  cases x with
  | error e => simp [Except.map]
  | ok a => simp [Except.map]

/-- Two sequences that start with the same check agree when they do after it. -/
theorem require_map_bind {β β' : Type} {check check' : Bool} {error : EngineError}
    {f : Unit → Except EngineError β} {f' : Unit → Except EngineError β'} {h : β → β'}
    (hcheck : check = check') (hf : check = true → (f ()).map h = f' ()) :
    (require check error >>= f).map h = require check' error >>= f' := by
  subst hcheck
  exact except_map_bind (by cases check <;> rfl) fun _ hx => hf (require_eq_ok.mp hx)

/-- A loop of calls returns when each of them does. -/
theorem except_forM_eq_ok {ε α : Type} {l : List α} {f : α → Except ε Unit} {u : Unit} :
    forM l f = .ok u ↔ ∀ a ∈ l, f a = .ok () := by
  induction l with
  | nil => simp [List.forM_nil, pure, Except.pure]
  | cons a l ih =>
    rw [List.forM_cons, except_bind_eq_ok, List.forall_mem_cons]
    exact ⟨fun ⟨_, ha, hl⟩ => ⟨ha, ih.mp hl⟩, fun ⟨ha, hl⟩ => ⟨(), ha, ih.mpr hl⟩⟩

/-- A fold of calls that returns made a call for each element. -/
theorem except_foldlM_eq_ok {ε α β : Type} {l : List α} {f : β → α → Except ε β} {b c : β}
    (h : l.foldlM f b = .ok c) : ∀ a ∈ l, ∃ before after, f before a = .ok after := by
  induction l generalizing b with
  | nil => exact fun a ha => absurd ha List.not_mem_nil
  | cons a l ih =>
    rw [List.foldlM_cons] at h
    obtain ⟨next, ha, hl⟩ := except_bind_eq_ok.mp h
    exact List.forall_mem_cons.mpr ⟨⟨b, next, ha⟩, ih hl⟩

/-- A list of calls that all return is a map. -/
theorem except_mapM_eq_ok {ε α β : Type} {l : List α} {f : α → Except ε β} {g : α → β}
    (h : ∀ a ∈ l, f a = .ok (g a)) : l.mapM f = .ok (l.map g) := by
  induction l with
  | nil => rfl
  | cons a l ih =>
    rw [List.mapM_cons, h a List.mem_cons_self, ih fun b hb => h b (List.mem_cons_of_mem _ hb)]
    rfl

/-- A list of calls that returns made each of them. -/
theorem except_forall₂_of_mapM {ε α β : Type} {l : List α} {f : α → Except ε β} {l' : List β}
    (h : l.mapM f = .ok l') : List.Forall₂ (fun b a => a ∈ l ∧ f a = .ok b) l' l := by
  induction l generalizing l' with
  | nil =>
    obtain rfl := Except.ok.inj h
    exact .nil
  | cons a l ih =>
    rw [List.mapM_cons] at h
    obtain ⟨b, ha, h⟩ := except_bind_eq_ok.mp h
    obtain ⟨bs, hl, h⟩ := except_bind_eq_ok.mp h
    obtain rfl := Except.ok.inj h
    exact .cons ⟨List.mem_cons_self, ha⟩
      ((ih hl).imp fun _ _ h => ⟨List.mem_cons_of_mem _ h.1, h.2⟩)

/-- Two lists of calls that do the same, up to a map of what they return. -/
theorem except_mapM_map {ε α β γ : Type} {l : List α} {f g : α → Except ε β} {drop : β → γ}
    (h : ∀ a ∈ l, drop <$> f a = drop <$> g a) :
    List.map drop <$> l.mapM f = List.map drop <$> l.mapM g := by
  have hcons : ∀ (f : α → Except ε β) (a : α) (l : List α), List.map drop <$> (a :: l).mapM f =
      drop <$> f a >>= fun c => List.map drop <$> l.mapM f >>= fun cs => pure (c :: cs) := by
    intro f a l
    simp only [List.mapM_cons, map_bind, bind_map_left, map_pure, List.map_cons]
  induction l with
  | nil => rfl
  | cons a l ih =>
    rw [hcons, hcons, h a List.mem_cons_self, ih fun b hb => h b (List.mem_cons_of_mem _ hb)]

/-- A fold of calls that fails did so at one of them, and not before. -/
theorem except_foldlM_eq_error {ε α β : Type} {l : List α} {f : β → α → Except ε β} {b : β}
    {e : ε} : l.foldlM f b = .error e ↔ ∃ before a behind c, l = before ++ a :: behind ∧
      before.foldlM f b = .ok c ∧ f c a = .error e := by
  induction l generalizing b with
  | nil => simp [pure, Except.pure]
  | cons a l ih =>
    rw [List.foldlM_cons]
    constructor
    · intro h
      cases ha : f b a with
      | error e' =>
        rw [ha] at h
        obtain rfl := Except.error.inj h
        exact ⟨[], a, l, b, rfl, rfl, ha⟩
      | ok next =>
        rw [ha] at h
        obtain ⟨before, a', behind, c, rfl, hbefore, ha'⟩ := ih.mp h
        refine ⟨a :: before, a', behind, c, rfl, ?_, ha'⟩
        rw [List.foldlM_cons, ha]
        exact hbefore
    · rintro ⟨before, a', behind, c, hl, hbefore, ha'⟩
      cases before with
      | nil =>
        obtain ⟨rfl, rfl⟩ := List.cons.inj hl
        obtain rfl := Except.ok.inj hbefore
        rw [ha']
        rfl
      | cons first before =>
        obtain ⟨rfl, rfl⟩ := List.cons.inj hl
        rw [List.foldlM_cons] at hbefore
        obtain ⟨next, hfirst, hbefore⟩ := except_bind_eq_ok.mp hbefore
        rw [hfirst]
        exact ih.mpr ⟨before, a', behind, c, rfl, hbefore, ha'⟩

/-- A list of calls returns what each of them does. -/
theorem except_mapM_eq_ok_iff {ε α β : Type} {l : List α} {f : α → Except ε β} {l' : List β} :
    l.mapM f = .ok l' ↔ List.Forall₂ (fun a b => f a = .ok b) l l' := by
  constructor
  · intro h
    exact (except_forall₂_of_mapM h).flip.imp fun _ _ h => h.2
  · intro h
    induction h with
    | nil => rfl
    | cons ha _ ih =>
      rw [List.mapM_cons, ha, ih]
      rfl

end FacLpr

import FacLpr.Foundations.OrdMap
import Mathlib.Algebra.BigOperators.Ring.List
import Mathlib.Algebra.BigOperators.Ring.Finset
import Mathlib.Algebra.Order.BigOperators.Group.List
import Mathlib.Algebra.Order.BigOperators.Group.Finset
import Mathlib.Algebra.Order.Ring.Canonical

/-!
# Foundations/WeightedPaths — weighted choices, and the dynamic programs that sum over them

A list of weighted keys is a formal sum: `coeff` is the total weight it gives one key and `pairing`
integrates a function against it.  `bind` follows every entry by a weighted choice, so iterating it
enumerates the weighted paths of a transition system, `paths`.

A forward dynamic program keeps one merged entry for each state instead of one for each path, and
may also drop states.  `coeff_le_paths` says such a program never over-counts;
`coeff_eq_paths_of_kept` says it is exact on the states none of whose predecessors was dropped, and
`mem_keys_paths_of_kept` that it lists exactly those of them some path ends in.
-/

namespace FacLpr

namespace Weighted

variable {κ ι W : Type*}

/-- Add `p` to the entry of its key. -/
def accumulate {μ W : Type*} [LinearOrder μ] [Add W] (m : OrdMap μ W) (p : μ × W) : OrdMap μ W :=
  m.upsert p.1 fun
    | none => p.2
    | some v => v + p.2

section Semiring

variable [CommSemiring W]

/-- The keys of a formal sum. -/
def keys (l : List (κ × W)) : List κ := l.map Prod.fst

/-- The sum of a function against a formal sum. -/
def pairing (l : List (κ × W)) (g : κ → W) : W := (l.map fun p => p.2 * g p.1).sum

/-- Follow every entry by a weighted choice. -/
def bind (l : List (κ × W)) (f : κ → List (ι × W)) : List (ι × W) :=
  l.flatMap fun p => (f p.1).map fun q => (q.1, p.2 * q.2)

@[simp] theorem pairing_nil (g : κ → W) : pairing [] g = 0 := rfl

@[simp] theorem pairing_cons (p : κ × W) (l : List (κ × W)) (g : κ → W) :
    pairing (p :: l) g = p.2 * g p.1 + pairing l g := rfl

@[simp] theorem pairing_append (l l' : List (κ × W)) (g : κ → W) :
    pairing (l ++ l') g = pairing l g + pairing l' g := by simp [pairing]

theorem pairing_perm {l l' : List (κ × W)} (h : l.Perm l') (g : κ → W) :
    pairing l g = pairing l' g := (h.map _).sum_eq

/-- Against a list of blocks, the pairing is the sum over the blocks. -/
theorem pairing_flatMap {α : Type*} (l : List α) (f : α → List (κ × W)) (g : κ → W) :
    pairing (l.flatMap f) g = (l.map fun a => pairing (f a) g).sum := by
  induction l with
  | nil => rfl
  | cons a l ih => rw [List.flatMap_cons, pairing_append, ih, List.map_cons, List.sum_cons]

/-- Functions that agree on the keys have one pairing. -/
theorem pairing_congr_keys {l : List (κ × W)} {g g' : κ → W} (h : ∀ k ∈ keys l, g k = g' k) :
    pairing l g = pairing l g' :=
  congrArg List.sum (List.map_congr_left fun p hp => by rw [h p.1 (List.mem_map_of_mem hp)])

/-- Scaling every weight scales the pairing. -/
theorem pairing_map_mul (l : List (κ × W)) (c : W) (g : κ → W) :
    pairing (l.map fun q => (q.1, c * q.2)) g = c * pairing l g := by
  induction l with
  | nil => simp
  | cons p l ih => rw [List.map_cons, pairing_cons, pairing_cons, ih, mul_add, mul_assoc]

/-- **A bind is integrated one choice at a time.** -/
theorem pairing_bind (l : List (κ × W)) (f : κ → List (ι × W)) (g : ι → W) :
    pairing (bind l f) g = pairing l fun k => pairing (f k) g := by
  rw [bind, pairing_flatMap]
  simp only [pairing_map_mul]
  rfl

theorem pairing_const_mul (l : List (κ × W)) (c : W) (g : κ → W) :
    (pairing l fun k => c * g k) = c * pairing l g := by
  simp only [pairing, mul_left_comm _ c, List.sum_map_mul_left]

/-- A pairing commutes with finite sums. -/
theorem pairing_finset_sum {ι : Type*} (l : List (κ × W)) (S : Finset ι) (g : ι → κ → W) :
    (pairing l fun k => ∑ i ∈ S, g i k) = ∑ i ∈ S, pairing l (g i) := by
  induction l with
  | nil => simp
  | cons p l ih => simp only [pairing_cons, ih, Finset.mul_sum, Finset.sum_add_distrib]

/-- Two pairings may be exchanged. -/
theorem pairing_comm (l : List (κ × W)) (m : List (ι × W)) (g : κ → ι → W) :
    (pairing l fun x => pairing m fun y => g x y) =
      pairing m fun y => pairing l fun x => g x y := by
  induction l with
  | nil => simp [pairing]
  | cons p l ih =>
    have hadd : ∀ h h' : ι → W, (pairing m fun y => h y + h' y) = pairing m h + pairing m h' :=
      fun h h' => by simp [pairing, mul_add, List.sum_map_add]
    simp only [pairing_cons]
    rw [hadd, pairing_const_mul, ih]

omit [CommSemiring W] in
theorem mem_keys {l : List (κ × W)} {k : κ} : k ∈ keys l ↔ ∃ v, (k, v) ∈ l := by
  simp [keys]

/-- A bind lists the keys its choices list. -/
theorem mem_keys_bind {l : List (κ × W)} {f : κ → List (ι × W)} {i : ι} :
    i ∈ keys (bind l f) ↔ ∃ k ∈ keys l, i ∈ keys (f k) := by
  simp only [keys, bind, List.mem_map, List.mem_flatMap]
  constructor
  · rintro ⟨_, ⟨p, hp, q, hq, rfl⟩, rfl⟩
    exact ⟨p.1, ⟨p, hp, rfl⟩, q, hq, rfl⟩
  · rintro ⟨_, ⟨p, hp, rfl⟩, q, hq, rfl⟩
    exact ⟨_, ⟨p, hp, q, hq, rfl⟩, rfl⟩

/-! ## Coefficients -/

section Coeff

variable [DecidableEq κ] [DecidableEq ι]

/-- The total weight a formal sum gives the key `k`. -/
def coeff (l : List (κ × W)) (k : κ) : W := pairing l fun j => if j = k then 1 else 0

@[simp] theorem coeff_nil (k : κ) : coeff ([] : List (κ × W)) k = 0 := rfl

@[simp] theorem coeff_cons (p : κ × W) (l : List (κ × W)) (k : κ) :
    coeff (p :: l) k = (if p.1 = k then p.2 else 0) + coeff l k := by simp [coeff]

/-- A key that is not listed has weight zero. -/
theorem coeff_eq_zero {l : List (κ × W)} {k : κ} (h : k ∉ keys l) : coeff l k = 0 := by
  induction l with
  | nil => rfl
  | cons p l ih =>
    simp only [keys, List.map_cons, List.mem_cons, not_or] at h
    rw [coeff_cons, if_neg fun hp => h.1 hp.symm, zero_add]
    exact ih h.2

/-- A key that is listed once has the weight of its entry. -/
theorem coeff_of_mem {l : List (κ × W)} {k : κ} {v : W} (hl : (keys l).Nodup) (h : (k, v) ∈ l) :
    coeff l k = v := by
  induction l with
  | nil => cases h
  | cons p l ih =>
    obtain ⟨hnot, hl⟩ := List.nodup_cons.mp hl
    rw [coeff_cons]
    rcases List.mem_cons.mp h with rfl | h
    · rw [if_pos rfl, coeff_eq_zero hnot, add_zero]
    · have hne : p.1 ≠ k := fun hk => hnot (mem_keys.mpr ⟨v, hk ▸ h⟩)
      rw [if_neg hne, ih hl h, zero_add]

theorem coeff_flatMap {α : Type*} (l : List α) (f : α → List (κ × W)) (k : κ) :
    coeff (l.flatMap f) k = (l.map fun a => coeff (f a) k).sum := pairing_flatMap l f _

omit [DecidableEq κ] in
theorem coeff_bind (l : List (κ × W)) (f : κ → List (ι × W)) (i : ι) :
    coeff (bind l f) i = pairing l fun k => coeff (f k) i := pairing_bind l f _

omit [DecidableEq κ] in
/-- Renaming the keys collects the weights of each new key. -/
theorem coeff_map_keys (l : List (κ × W)) (f : κ → ι) (i : ι) :
    coeff (l.map fun p => (f p.1, p.2)) i = pairing l fun k => if f k = i then 1 else 0 := by
  simp only [coeff, pairing, List.map_map, Function.comp_def]

/-- Entries of other keys may be left out. -/
theorem coeff_map_filter {α : Type*} (l : List α) (p : α → Bool) (f : α → κ × W) {k : κ}
    (h : ∀ a ∈ l, (f a).1 = k → p a = true) :
    coeff ((l.filter p).map f) k = coeff (l.map f) k := by
  induction l with
  | nil => rfl
  | cons a l ih =>
    have ih := ih fun b hb => h b (List.mem_cons_of_mem _ hb)
    by_cases hp : p a = true
    · rw [List.filter_cons_of_pos hp, List.map_cons, List.map_cons, coeff_cons, coeff_cons, ih]
    · have hk : (f a).1 ≠ k := fun hk => hp (h a List.mem_cons_self hk)
      rw [List.filter_cons_of_neg hp, List.map_cons, coeff_cons, if_neg hk, zero_add, ih]

/-- A pairing is a sum over any set of keys that contains the listed ones. -/
theorem pairing_eq_sum (l : List (κ × W)) (S : Finset κ) (g : κ → W) (h : ∀ k ∈ keys l, k ∈ S) :
    pairing l g = ∑ k ∈ S, coeff l k * g k := by
  induction l with
  | nil => simp [coeff]
  | cons p l ih =>
    have hp : ∑ k ∈ S, (if p.1 = k then p.2 else 0) * g k = p.2 * g p.1 := by
      simp only [ite_mul, zero_mul]
      rw [Finset.sum_ite_eq, if_pos (h p.1 List.mem_cons_self)]
    simp only [pairing_cons, coeff_cons, add_mul, Finset.sum_add_distrib]
    rw [hp, ih fun q hq => h q (List.mem_cons_of_mem _ hq)]

/-- **A pairing sees only the coefficients**, and only where the functions are not zero. -/
theorem pairing_congr {l l' : List (κ × W)} {g g' : κ → W}
    (h : ∀ k, coeff l k * g k = coeff l' k * g' k) : pairing l g = pairing l' g' := by
  rw [pairing_eq_sum l (keys l ++ keys l').toFinset g (by simp +contextual),
    pairing_eq_sum l' (keys l ++ keys l').toFinset g' (by simp +contextual)]
  exact Finset.sum_congr rfl fun k _ => h k

end Coeff

/-! ## Merging entries of one key -/

section Merge

variable {μ : Type*} [LinearOrder μ] [DecidableEq μ]

/-- Merging `p` adds its weight to its own key. -/
theorem getD_accumulate (m : OrdMap μ W) (p : μ × W) (k : μ) :
    ((accumulate m p).find? k).getD 0 = (m.find? k).getD 0 + if p.1 = k then p.2 else 0 := by
  rw [accumulate]
  by_cases hk : p.1 = k
  · subst hk
    rw [OrdMap.find?_upsert_self, if_pos rfl]
    cases m.find? p.1 with
    | none => simp
    | some v => rfl
  · rw [OrdMap.find?_upsert_of_ne _ _ (Ne.symm hk), if_neg hk, add_zero]

/-- **Merging a formal sum into a map adds the coefficients.** -/
theorem getD_foldl_accumulate (l : List (μ × W)) (m : OrdMap μ W) (k : μ) :
    ((l.foldl accumulate m).find? k).getD 0 = (m.find? k).getD 0 + coeff l k := by
  induction l generalizing m with
  | nil => simp [coeff]
  | cons p l ih => rw [List.foldl_cons, ih, getD_accumulate, coeff_cons, add_assoc]

/-- The merged map stores exactly the keys of the sum, and those it had. -/
theorem isSome_foldl_accumulate (l : List (μ × W)) (m : OrdMap μ W) (k : μ) :
    ((l.foldl accumulate m).find? k).isSome ↔ (m.find? k).isSome ∨ k ∈ keys l := by
  induction l generalizing m with
  | nil => simp [keys]
  | cons p l ih =>
    have hkeys : k ∈ keys (p :: l) ↔ k = p.1 ∨ k ∈ keys l := by simp [keys]
    rw [List.foldl_cons, ih, accumulate, hkeys]
    by_cases hk : p.1 = k
    · subst hk
      simp
    · rw [OrdMap.find?_upsert_of_ne _ _ (Ne.symm hk)]
      simp [Ne.symm hk]

/-- The coefficients of a map's entries are the values stored. -/
theorem coeff_entries (m : OrdMap μ W) (k : μ) : coeff m.entries k = (m.find? k).getD 0 := by
  cases hfind : m.find? k with
  | none =>
    have hnot : k ∉ keys m.entries := fun hmem => by
      obtain ⟨v, hv⟩ := mem_keys.mp hmem
      rw [OrdMap.mem_entries, hfind] at hv
      cases hv
    exact coeff_eq_zero hnot
  | some v => exact coeff_of_mem m.nodup_keys (OrdMap.mem_entries.mpr hfind)

omit [DecidableEq μ] [CommSemiring W] in
/-- The keys of a map's entries are the keys stored. -/
theorem mem_keys_entries (m : OrdMap μ W) (k : μ) : k ∈ keys m.entries ↔ (m.find? k).isSome := by
  rw [mem_keys, Option.isSome_iff_exists]
  exact exists_congr fun v => OrdMap.mem_entries

/-- **Merging a formal sum keeps its coefficients…** -/
theorem coeff_merged (l : List (μ × W)) (k : μ) :
    coeff (l.foldl accumulate OrdMap.empty).entries k = coeff l k := by
  rw [coeff_entries, getD_foldl_accumulate, OrdMap.find?_empty, Option.getD_none, zero_add]

/-- **…and its keys.** -/
theorem mem_keys_merged (l : List (μ × W)) (k : μ) :
    k ∈ keys (l.foldl accumulate OrdMap.empty).entries ↔ k ∈ keys l := by
  rw [mem_keys_entries, isSome_foldl_accumulate, OrdMap.find?_empty]
  simp

end Merge

/-! ## Weighted paths -/

/-- The weighted paths of length `n` from `init`, by their end state. -/
def paths (init : κ) (δ : ℕ → κ → List (κ × W)) : ℕ → List (κ × W)
  | 0 => [(init, 1)]
  | n + 1 => bind (paths init δ n) (δ n)

section Exact

variable {init : κ} {δ δ' : ℕ → κ → List (κ × W)} {beam : ℕ → List (κ × W)} {R : κ → Prop} {T : ℕ}

/-- **A program that drops no state a relevant one is reached from is exact on the relevant
states** `R`. -/
theorem coeff_eq_paths_of_kept [DecidableEq κ] (h0 : beam 0 = [(init, 1)])
    (hstep : ∀ n < T, ∀ k, coeff (beam (n + 1)) k = coeff (bind (beam n) (δ' n)) k)
    (hkept : ∀ n < T, ∀ k k', R k' → coeff (δ' n k) k' = coeff (δ n k) k')
    (hback : ∀ n < T, ∀ k k', R k' → k' ∈ keys (δ n k) → R k) :
    ∀ n ≤ T, ∀ k, R k → coeff (beam n) k = coeff (paths init δ n) k := by
  intro n
  induction n with
  | zero => intro _ k _; rw [h0, paths]
  | succ n ih =>
    intro hn k' hk'
    rw [hstep n hn, paths, coeff_bind, coeff_bind]
    refine pairing_congr fun k => ?_
    rw [hkept n hn k k' hk']
    by_cases hmem : k' ∈ keys (δ n k)
    · rw [ih (Nat.le_of_lt hn) k (hback n hn k k' hk' hmem)]
    · rw [coeff_eq_zero hmem, mul_zero, mul_zero]

/-- **…and lists exactly the relevant states some path ends in.** -/
theorem mem_keys_paths_of_kept (h0 : beam 0 = [(init, 1)])
    (hstep : ∀ n < T, ∀ k, k ∈ keys (beam (n + 1)) ↔ k ∈ keys (bind (beam n) (δ' n)))
    (hkept : ∀ n < T, ∀ k k', R k' → (k' ∈ keys (δ' n k) ↔ k' ∈ keys (δ n k)))
    (hback : ∀ n < T, ∀ k k', R k' → k' ∈ keys (δ n k) → R k) :
    ∀ n ≤ T, ∀ k, R k → (k ∈ keys (beam n) ↔ k ∈ keys (paths init δ n)) := by
  intro n
  induction n with
  | zero => intro _ k _; rw [h0, paths]
  | succ n ih =>
    intro hn k' hk'
    rw [hstep n hn, paths, mem_keys_bind, mem_keys_bind]
    refine exists_congr fun k => ?_
    rw [hkept n hn k k' hk']
    exact and_congr_left fun hmem =>
      ih (Nat.le_of_lt hn) k (hback n hn k k' hk' hmem)

end Exact

end Semiring

section Ordered

variable [CommSemiring W] [PartialOrder W] [IsOrderedRing W] [CanonicallyOrderedAdd W]
variable [DecidableEq κ] [DecidableEq ι]

/-- **A pairing is monotone** in the coefficients and in the function. -/
theorem pairing_mono {l l' : List (κ × W)} {g g' : κ → W} (hl : ∀ k, coeff l k ≤ coeff l' k)
    (hg : ∀ k, g k ≤ g' k) : pairing l g ≤ pairing l' g' := by
  rw [pairing_eq_sum l (keys l ++ keys l').toFinset g (by simp +contextual),
    pairing_eq_sum l' (keys l ++ keys l').toFinset g' (by simp +contextual)]
  exact Finset.sum_le_sum fun k _ => mul_le_mul' (hl k) (hg k)

/-- Dropping entries drops weight. -/
theorem coeff_le_of_subperm {l l' : List (κ × W)} (h : l.Subperm l') (k : κ) :
    coeff l k ≤ coeff l' k := by
  obtain ⟨m, hperm, hsub⟩ := h
  rw [← show coeff m k = coeff l k from pairing_perm hperm _]
  exact (hsub.map _).sum_le_sum fun _ _ => zero_le

/-- Dropping choices drops weight. -/
theorem coeff_flatMap_le {α : Type*} {l l' : List α} {f f' : α → List (κ × W)} {k : κ}
    (hl : l.Subperm l') (hf : ∀ a, coeff (f a) k ≤ coeff (f' a) k) :
    coeff (l.flatMap f) k ≤ coeff (l'.flatMap f') k := by
  obtain ⟨m, hperm, hsub⟩ := hl
  have hm : coeff (l.flatMap f) k = coeff (m.flatMap f) k :=
    pairing_perm (hperm.symm.flatMap fun _ _ => List.Perm.refl _) _
  rw [hm, coeff_flatMap, coeff_flatMap]
  exact (List.sum_le_sum fun a _ => hf a).trans ((hsub.map _).sum_le_sum fun _ _ => zero_le)

/-- **A program that only merges and drops never over-counts.** -/
theorem coeff_le_paths {init : κ} {δ δ' : ℕ → κ → List (κ × W)} {beam : ℕ → List (κ × W)} {T : ℕ}
    (h0 : beam 0 = [(init, 1)])
    (hstep : ∀ n < T, ∀ k, coeff (beam (n + 1)) k ≤ coeff (bind (beam n) (δ' n)) k)
    (hdrop : ∀ n < T, ∀ k k', coeff (δ' n k) k' ≤ coeff (δ n k) k') :
    ∀ n ≤ T, ∀ k, coeff (beam n) k ≤ coeff (paths init δ n) k := by
  intro n
  induction n with
  | zero => intro _ k; rw [h0, paths]
  | succ n ih =>
    intro hn k'
    refine (hstep n hn k').trans ?_
    rw [paths, coeff_bind, coeff_bind]
    exact pairing_mono (ih (Nat.le_of_lt hn)) fun k => hdrop n hn k k'

omit [DecidableEq κ] [CanonicallyOrderedAdd W] in
/-- **A step that raises the potential of no entry** does not raise that of the whole. -/
theorem pairing_bind_le {l : List (κ × W)} {f : κ → List (κ × W)} {g : κ → W}
    (h : ∀ p ∈ l, p.2 * pairing (f p.1) g ≤ p.2 * g p.1) :
    pairing (bind l f) g ≤ pairing l g := by
  rw [pairing_bind]
  exact List.sum_le_sum h

end Ordered

end Weighted

end FacLpr

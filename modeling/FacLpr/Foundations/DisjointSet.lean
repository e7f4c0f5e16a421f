import Mathlib.Data.Finset.Lattice.Fold
import Mathlib.Data.Fintype.Basic
import Mathlib.Logic.Relation
import Mathlib.Order.Lattice.Nat

/-!
# Foundations/DisjointSet — union-find with path compression and union by rank

A forest over `Fin n` whose ranks grow towards the roots: that is what makes `find` terminate, so a
`DisjointSet` carries it.  `find` redirects what it walks over and leaves every root as it was
(`root_find`); `unite` makes two trees one (`root_unite_eq_iff`).  After any list of unions, two
elements have one root exactly when the united pairs connect them (`joins_foldl_unite`).
-/

namespace FacLpr

/-- A union-find forest. -/
structure DisjointSet (n : ℕ) where
  parent : Fin n → Fin n
  rank : Fin n → ℕ
  rank_lt : ∀ i, parent i ≠ i → rank i < rank (parent i)

namespace DisjointSet

variable {n : ℕ} {s : DisjointSet n} {i j r : Fin n}

/-- Every element is a root. -/
def make (n : ℕ) : DisjointSet n := ⟨id, fun _ => 0, fun _ h => absurd rfl h⟩

/-- The largest rank. -/
def top (s : DisjointSet n) : ℕ := Finset.univ.sup s.rank

theorem rank_le_top (s : DisjointSet n) (i : Fin n) : s.rank i ≤ s.top :=
  Finset.le_sup (f := s.rank) (Finset.mem_univ i)

/-! ## The root of an element -/

/-- Following parents from `i` ends at `r`. -/
inductive RootOf (s : DisjointSet n) : Fin n → Fin n → Prop where
  | root {r : Fin n} : s.parent r = r → RootOf s r r
  | up {i r : Fin n} : s.parent i ≠ i → RootOf s (s.parent i) r → RootOf s i r

theorem RootOf.isRoot (h : s.RootOf i r) : s.parent r = r := by
  induction h with
  | root hr => exact hr
  | up _ _ ih => exact ih

theorem RootOf.rank_le (h : s.RootOf i r) : s.rank i ≤ s.rank r := by
  induction h with
  | root _ => exact le_refl _
  | up hi _ ih => exact le_of_lt ((s.rank_lt _ hi).trans_le ih)

theorem RootOf.eq_of_isRoot (h : s.RootOf i r) (hi : s.parent i = i) : r = i := by
  cases h with
  | root _ => rfl
  | up hne _ => exact absurd hi hne

theorem RootOf.unique {r' : Fin n} (h : s.RootOf i r) (h' : s.RootOf i r') : r = r' := by
  induction h with
  | root hr => exact (h'.eq_of_isRoot hr).symm
  | up hi _ ih =>
    cases h' with
    | root hr => exact absurd hr hi
    | up _ hup => exact ih hup

/-! ## Finding a root -/

/-- `parent[value] = root`. -/
def redirect (s : DisjointSet n) (value root : Fin n) (h : s.rank value < s.rank root) :
    DisjointSet n where
  parent := Function.update s.parent value root
  rank := s.rank
  rank_lt i hi := by
    by_cases hiv : i = value
    · subst hiv
      simpa using h
    · rw [Function.update_of_ne hiv] at hi ⊢
      exact s.rank_lt i hi

/-- **Path compression moves nothing to another root.** -/
theorem rootOf_redirect {value root : Fin n} (h : s.rank value < s.rank root)
    (hroot : s.RootOf value root) : (s.redirect value root h).RootOf i r ↔ s.RootOf i r := by
  have hne : root ≠ value := fun heq => by
    rw [heq] at h
    exact lt_irrefl _ h
  have hself : (s.redirect value root h).parent value = root := Function.update_self ..
  have hother : ∀ {k : Fin n}, k ≠ value → (s.redirect value root h).parent k = s.parent k :=
    fun hk => Function.update_of_ne hk _ _
  have htop : (s.redirect value root h).RootOf root root :=
    .root ((hother hne).trans hroot.isRoot)
  constructor
  · intro hi
    induction hi with
    | root hr =>
      rename_i r
      by_cases hrv : r = value
      · rw [hrv, hself] at hr
        exact absurd hr hne
      · exact .root ((hother hrv).symm.trans hr)
    | up hi _ ih =>
      rename_i i r _
      by_cases hiv : i = value
      · rw [hiv, hself] at ih
        rw [hiv, ih.eq_of_isRoot hroot.isRoot]
        exact hroot
      · rw [hother hiv] at hi ih
        exact .up hi ih
  · intro hi
    induction hi with
    | root hr =>
      rename_i r
      have hrv : r ≠ value := fun heq => by
        rw [heq] at hr
        exact hne (hroot.eq_of_isRoot hr)
      exact .root ((hother hrv).trans hr)
    | up hi hup ih =>
      rename_i i r
      by_cases hiv : i = value
      · subst hiv
        rw [RootOf.unique (.up hi hup) hroot]
        exact .up (by rw [hself]; exact hne) (by rw [hself]; exact htop)
      · exact .up (by rw [hother hiv]; exact hi) (by rw [hother hiv]; exact ih)

/-- What `find` returns: the forest it compressed, and the root. -/
structure Found (s : DisjointSet n) (value : Fin n) where
  set : DisjointSet n
  root : Fin n
  rank_eq : set.rank = s.rank
  rootOf_iff : ∀ i r, set.RootOf i r ↔ s.RootOf i r
  rootOf : s.RootOf value root

/-- `find`, with path compression. -/
def find (s : DisjointSet n) (value : Fin n) : Found s value :=
  if h : s.parent value = value then ⟨s, value, rfl, fun _ _ => Iff.rfl, .root h⟩
  else
    let found := find s (s.parent value)
    have hroot : s.RootOf value found.root := .up h found.rootOf
    have hlt : found.set.rank value < found.set.rank found.root := by
      rw [found.rank_eq]
      exact (s.rank_lt value h).trans_le found.rootOf.rank_le
    ⟨found.set.redirect value found.root hlt, found.root, found.rank_eq, fun i r =>
      (rootOf_redirect hlt ((found.rootOf_iff _ _).mpr hroot)).trans (found.rootOf_iff i r), hroot⟩
termination_by s.top - s.rank value
decreasing_by
  have hlt := s.rank_lt value h
  have hle := s.rank_le_top (s.parent value)
  omega

theorem find_of_isRoot {value : Fin n} (h : s.parent value = value) :
    (s.find value).root = value ∧ (s.find value).set = s := by
  rw [find, dif_pos h]
  exact ⟨rfl, rfl⟩

/-- Finding redirects an element once it has found the root of its parent. -/
theorem find_of_not_isRoot {value : Fin n} (h : s.parent value ≠ value) :
    (s.find value).root = (s.find (s.parent value)).root ∧
      (s.find value).set.parent =
        Function.update (s.find (s.parent value)).set.parent value
          (s.find (s.parent value)).root := by
  rw [find, dif_neg h]
  exact ⟨rfl, rfl⟩

/-- The root `find` returns. -/
def root (s : DisjointSet n) (i : Fin n) : Fin n := (s.find i).root

theorem root_eq_iff : s.root i = r ↔ s.RootOf i r :=
  ⟨fun h => h ▸ (s.find i).rootOf, (s.find i).rootOf.unique⟩

theorem rootOf_root (s : DisjointSet n) (i : Fin n) : s.RootOf i (s.root i) := (s.find i).rootOf

/-- A root is its own. -/
theorem root_of_isRoot (h : s.parent r = r) : s.root r = r := root_eq_iff.mpr (.root h)

/-- **Finding changes no root.** -/
@[simp] theorem root_find (s : DisjointSet n) (value i : Fin n) :
    (s.find value).set.root i = s.root i :=
  root_eq_iff.mpr (((s.find value).rootOf_iff _ _).mpr (s.rootOf_root i))

@[simp] theorem root_make (i : Fin n) : (make n).root i = i := root_of_isRoot rfl

/-! ## Uniting two trees -/

/-- `parent[lower] = upper`, and one more rank for `upper` when both had the same. -/
def link (s : DisjointSet n) (upper lower : Fin n) (hupper : s.parent upper = upper)
    (hne : lower ≠ upper) (hle : s.rank lower ≤ s.rank upper) : DisjointSet n where
  parent := Function.update s.parent lower upper
  rank := if s.rank upper = s.rank lower then Function.update s.rank upper (s.rank upper + 1)
    else s.rank
  rank_lt i hi := by
    have hgrow : ∀ k, s.rank k ≤ (if s.rank upper = s.rank lower then
        Function.update s.rank upper (s.rank upper + 1) else s.rank) k := by
      intro k
      split
      · by_cases hk : k = upper
        · rw [hk, Function.update_self]
          exact Nat.le_succ _
        · rw [Function.update_of_ne hk]
      · exact le_refl _
    have hkeep : ∀ {k}, k ≠ upper → (if s.rank upper = s.rank lower then
        Function.update s.rank upper (s.rank upper + 1) else s.rank) k = s.rank k := by
      intro k hk
      split
      · exact Function.update_of_ne hk _ _
      · rfl
    by_cases hil : i = lower
    · subst hil
      rw [Function.update_self, hkeep hne]
      split
      · rw [Function.update_self]
        omega
      · omega
    · rw [Function.update_of_ne hil] at hi ⊢
      have hiu : i ≠ upper := fun heq => by
        rw [heq] at hi
        exact hi hupper
      rw [hkeep hiu]
      exact (s.rank_lt i hi).trans_le (hgrow _)

/-- **Linking hands one tree to the root of the other.** -/
theorem root_link {upper lower : Fin n} (hupper : s.parent upper = upper)
    (hlower : s.parent lower = lower) (hne : lower ≠ upper) (hle : s.rank lower ≤ s.rank upper)
    (i : Fin n) : (s.link upper lower hupper hne hle).root i =
      if s.root i = lower then upper else s.root i := by
  have hself : (s.link upper lower hupper hne hle).parent lower = upper :=
    Function.update_self ..
  have hother : ∀ {k}, k ≠ lower → (s.link upper lower hupper hne hle).parent k = s.parent k :=
    fun hk => Function.update_of_ne hk _ _
  have htop : (s.link upper lower hupper hne hle).RootOf upper upper :=
    .root ((hother hne.symm).trans hupper)
  refine root_eq_iff.mpr ?_
  have hroot := s.rootOf_root i
  generalize s.root i = r at hroot
  induction hroot with
  | root hr =>
    rename_i r
    split
    · rename_i hrl
      subst hrl
      exact .up (by rw [hself]; exact hne.symm) (by rw [hself]; exact htop)
    · rename_i hrl
      exact .root ((hother hrl).trans hr)
  | up hi _ ih =>
    rename_i i r _
    have hil : i ≠ lower := fun heq => by
      rw [heq] at hi
      exact hi hlower
    exact .up (by rw [hother hil]; exact hi) (by rw [hother hil]; exact ih)

/-- `unite`. -/
def unite (s : DisjointSet n) (lhs rhs : Fin n) : DisjointSet n :=
  let left := s.find lhs
  let right := left.set.find rhs
  have hleft : right.set.parent left.root = left.root :=
    ((right.rootOf_iff _ _).mpr ((left.rootOf_iff _ _).mpr left.rootOf)).isRoot
  have hright : right.set.parent right.root = right.root :=
    ((right.rootOf_iff _ _).mpr right.rootOf).isRoot
  if heq : left.root = right.root then right.set
  else if hlt : right.set.rank left.root < right.set.rank right.root then
    right.set.link right.root left.root hright heq (le_of_lt hlt)
  else right.set.link left.root right.root hleft (Ne.symm heq) (not_lt.mp hlt)

/-- What a union does to the roots: one of the two is handed to the other. -/
theorem root_unite_cases (s : DisjointSet n) (lhs rhs : Fin n) : ∃ kept lost,
    ((kept = s.root lhs ∧ lost = s.root rhs) ∨ (kept = s.root rhs ∧ lost = s.root lhs)) ∧
      ∀ i, (s.unite lhs rhs).root i = if s.root i = lost then kept else s.root i := by
  have hright : ((s.find lhs).set.find rhs).root = s.root rhs := root_find s lhs rhs
  have hroots : ∀ i, ((s.find lhs).set.find rhs).set.root i = s.root i := fun i => by
    rw [root_find, root_find]
  unfold unite
  simp only
  split
  · rename_i heq
    refine ⟨s.root lhs, s.root rhs, Or.inl ⟨rfl, rfl⟩, fun i => ?_⟩
    have hsame : s.root lhs = s.root rhs := heq.trans hright
    rw [hroots, hsame]
    split
    · assumption
    · rfl
  · split
    · refine ⟨s.root rhs, s.root lhs, Or.inr ⟨rfl, rfl⟩, fun i => ?_⟩
      rw [root_link, hroots, hright]
      · rfl
      · exact (((((s.find lhs).set.find rhs).rootOf_iff _ _).mpr
          (((s.find lhs).rootOf_iff _ _).mpr (s.find lhs).rootOf))).isRoot
    · refine ⟨s.root lhs, s.root rhs, Or.inl ⟨rfl, rfl⟩, fun i => ?_⟩
      rw [root_link, hroots, hright]
      · rfl
      · exact ((((s.find lhs).set.find rhs).rootOf_iff _ _).mpr
          ((s.find lhs).set.find rhs).rootOf).isRoot

/-- **A union joins two trees and nothing else.** -/
theorem root_unite_eq_iff {lhs rhs : Fin n} :
    (s.unite lhs rhs).root i = (s.unite lhs rhs).root j ↔ s.root i = s.root j ∨
      (s.root i = s.root lhs ∧ s.root j = s.root rhs) ∨
      (s.root i = s.root rhs ∧ s.root j = s.root lhs) := by
  obtain ⟨kept, lost, hends, hroot⟩ := s.root_unite_cases lhs rhs
  rw [hroot, hroot]
  by_cases hi : s.root i = lost <;> by_cases hj : s.root j = lost <;> grind

/-- **A union** finds two roots, and links the one of lower rank to the other. -/
theorem unite_cases (s : DisjointSet n) (lhs rhs : Fin n) :
    let left := s.find lhs
    let right := left.set.find rhs
    let upper := if right.set.rank left.root < right.set.rank right.root then right.root
      else left.root
    let lower := if right.set.rank left.root < right.set.rank right.root then left.root
      else right.root
    (left.root = right.root ∧ s.unite lhs rhs = right.set) ∨
      left.root ≠ right.root ∧
        (s.unite lhs rhs).parent = Function.update right.set.parent lower upper ∧
        (s.unite lhs rhs).rank = if right.set.rank upper = right.set.rank lower then
          Function.update right.set.rank upper (right.set.rank upper + 1) else right.set.rank := by
  unfold unite
  simp only
  split
  · exact Or.inl ⟨‹_›, rfl⟩
  · rename_i hne
    refine Or.inr ⟨hne, ?_⟩
    split <;> exact ⟨rfl, rfl⟩

/-! ## A list of unions -/

/-- The roots of `s` tell apart what `R` does not connect. -/
def Joins (s : DisjointSet n) (R : Fin n → Fin n → Prop) : Prop :=
  ∀ i j, s.root i = s.root j ↔ Relation.EqvGen R i j

theorem joins_make : (make n).Joins fun _ _ => False := by
  intro i j
  rw [root_make, root_make]
  constructor
  · rintro rfl
    exact .refl i
  · intro h
    induction h with
    | rel _ _ h => exact h.elim
    | refl _ => rfl
    | symm _ _ _ ih => exact ih.symm
    | trans _ _ _ _ _ ih ih' => exact ih.trans ih'

/-- **One more pair.** -/
theorem Joins.unite {R : Fin n → Fin n → Prop} (h : s.Joins R) (lhs rhs : Fin n) :
    (s.unite lhs rhs).Joins fun i j => R i j ∨ (i = lhs ∧ j = rhs) := by
  have hold : ∀ {i j}, s.root i = s.root j →
      Relation.EqvGen (fun i j => R i j ∨ (i = lhs ∧ j = rhs)) i j := fun hij =>
    ((h _ _).mp hij).mono fun _ _ => Or.inl
  have hnew : Relation.EqvGen (fun i j => R i j ∨ (i = lhs ∧ j = rhs)) lhs rhs :=
    .rel _ _ (Or.inr ⟨rfl, rfl⟩)
  intro i j
  constructor
  · intro hij
    rcases root_unite_eq_iff.mp hij with hij | ⟨hi, hj⟩ | ⟨hi, hj⟩
    · exact hold hij
    · exact (hold hi).trans _ _ _ (hnew.trans _ _ _ ((hold hj).symm _ _))
    · exact (hold hi).trans _ _ _ ((hnew.symm _ _).trans _ _ _ ((hold hj).symm _ _))
  · intro hij
    induction hij with
    | rel i j hij =>
      rcases hij with hij | ⟨rfl, rfl⟩
      · exact root_unite_eq_iff.mpr (Or.inl ((h i j).mpr (.rel _ _ hij)))
      · exact root_unite_eq_iff.mpr (Or.inr (Or.inl ⟨rfl, rfl⟩))
    | refl _ => rfl
    | symm _ _ _ ih => exact ih.symm
    | trans _ _ _ _ _ ih ih' => exact ih.trans ih'

theorem Joins.foldl_unite {R : Fin n → Fin n → Prop} (h : s.Joins R)
    (pairs : List (Fin n × Fin n)) :
    (pairs.foldl (fun s pair => s.unite pair.1 pair.2) s).Joins fun i j =>
      R i j ∨ (i, j) ∈ pairs := by
  induction pairs generalizing s R with
  | nil => simpa using h
  | cons pair pairs ih =>
    rw [List.foldl_cons]
    have hrest := ih (h.unite pair.1 pair.2)
    simpa only [List.mem_cons, Prod.ext_iff, or_assoc] using hrest

/-- **After any list of unions**, two elements have one root exactly when the united pairs connect
them. -/
theorem joins_foldl_unite (pairs : List (Fin n × Fin n)) :
    (pairs.foldl (fun s pair => s.unite pair.1 pair.2) (make n)).Joins
      fun i j => (i, j) ∈ pairs := by
  simpa only [false_or] using joins_make.foldl_unite pairs

end DisjointSet

end FacLpr

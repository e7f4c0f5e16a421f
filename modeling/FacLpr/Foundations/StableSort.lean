import Mathlib.Data.Fintype.EquivFin
import Mathlib.Data.List.FinRange
import Mathlib.Data.List.Sort
import Mathlib.Order.RelClasses

/-!
# Foundations/StableSort — `std::stable_sort` and `std::sort`

`stableSort less l` orders `l` by a strict comparator and keeps the order of equivalent elements.
Everything a client needs follows from three facts: the output is a permutation, it is sorted, and
a list that is already sorted is left alone.

`std::sort` leaves the order of equivalent elements open, so it is any `StdSort`.
-/

namespace FacLpr

variable {α : Type*}

/-- A comparator `std::stable_sort` accepts: the elements not ordered by it form a total
preorder. -/
structure StrictWeakOrder (less : α → α → Bool) : Prop where
  asymm : ∀ a b, less a b = true → less b a = false
  negTrans : ∀ a b c, less b a = false → less c b = false → less c a = false

/-- `std::stable_sort`: insertion from the right, an element going before those it is not greater
than. -/
def stableSort (less : α → α → Bool) (l : List α) : List α :=
  l.insertionSort fun a b => less b a = false

theorem stableSort_perm (less : α → α → Bool) (l : List α) : (stableSort less l).Perm l :=
  List.perm_insertionSort _ l

@[simp] theorem mem_stableSort {less : α → α → Bool} {l : List α} {a : α} :
    a ∈ stableSort less l ↔ a ∈ l := (stableSort_perm less l).mem_iff

@[simp] theorem length_stableSort (less : α → α → Bool) (l : List α) :
    (stableSort less l).length = l.length := (stableSort_perm less l).length_eq

/-- **The output is sorted** — no element is greater than a later one. -/
theorem pairwise_stableSort {less : α → α → Bool} (h : StrictWeakOrder less) (l : List α) :
    (stableSort less l).Pairwise fun a b => less b a = false := by
  have : Std.Total fun a b => less b a = false := ⟨fun a b => by
    cases hab : less b a with
    | false => exact Or.inl rfl
    | true => exact Or.inr (h.asymm _ _ hab)⟩
  have : IsTrans α fun a b => less b a = false := ⟨fun a b c => h.negTrans a b c⟩
  exact List.pairwise_insertionSort _ l

/-- **A comparator that is not a strict weak order** may still sort by a coarser one: what it puts
first, and what it leaves where it is, is no greater. -/
theorem pairwise_stableSort_of {less : α → α → Bool} {R : α → α → Prop}
    (htrans : ∀ a b c, R a b → R b c → R a c) {l : List α}
    (hless : ∀ a ∈ l, ∀ b ∈ l, less a b = true → R a b)
    (hkeep : ∀ a ∈ l, ∀ b ∈ l, less b a = false → R a b) : (stableSort less l).Pairwise R := by
  induction l with
  | nil => exact List.Pairwise.nil
  | cons a l ih =>
    have hsorted := ih
      (fun b hb c hc => hless b (List.mem_cons_of_mem a hb) c (List.mem_cons_of_mem a hc))
      (fun b hb c hc => hkeep b (List.mem_cons_of_mem a hb) c (List.mem_cons_of_mem a hc))
    have hmem : ∀ b ∈ stableSort less l, b ∈ a :: l := fun b hb =>
      List.mem_cons_of_mem a (mem_stableSort.mp hb)
    change (List.orderedInsert (fun a b => less b a = false) a (stableSort less l)).Pairwise R
    -- inserting `a` walks over what it is greater than
    generalize stableSort less l = sorted at hsorted hmem
    induction sorted with
    | nil => exact List.pairwise_singleton R a
    | cons b sorted ih =>
      obtain ⟨hhead, htail⟩ := List.pairwise_cons.mp hsorted
      rw [List.orderedInsert]
      split
      · rename_i hstop
        have hab : R a b := hkeep a List.mem_cons_self b (hmem b List.mem_cons_self) hstop
        refine List.pairwise_cons.mpr ⟨List.forall_mem_cons.mpr ⟨hab, fun c hc => ?_⟩, hsorted⟩
        exact htrans a b c hab (hhead c hc)
      · rename_i hpass
        have hba : R b a := hless b (hmem b List.mem_cons_self) a List.mem_cons_self
          (by simpa using hpass)
        refine List.pairwise_cons.mpr ⟨fun c hc => ?_,
          ih htail fun c hc => hmem c (List.mem_cons_of_mem b hc)⟩
        rcases List.mem_orderedInsert _ |>.mp hc with rfl | hc
        · exact hba
        · exact hhead c hc

/-- A sorted list is left alone. -/
theorem stableSort_eq_self {less : α → α → Bool} {l : List α}
    (h : l.Pairwise fun a b => less b a = false) : stableSort less l = l :=
  h.insertionSort_eq

/-- A map that keeps the comparisons commutes with the sort. -/
theorem map_stableSort {β : Type*} {less : α → α → Bool} {less' : β → β → Bool} {f : α → β}
    {l : List α} (h : ∀ a ∈ l, ∀ b ∈ l, less a b = less' (f a) (f b)) :
    (stableSort less l).map f = stableSort less' (l.map f) :=
  List.map_insertionSort _ _ _ _ fun a ha b hb => by rw [h b hb a ha]

/-- A sort sees its elements through the comparator only. -/
theorem stableSort_congr {less less' : α → α → Bool} {l : List α}
    (h : ∀ a ∈ l, ∀ b ∈ l, less a b = less' a b) : stableSort less l = stableSort less' l := by
  have hid : (stableSort less l).map id = stableSort less' (l.map id) := map_stableSort h
  rwa [List.map_id, List.map_id] at hid

/-- **Sorting permutes the positions.** -/
theorem exists_perm_stableSort (less : α → α → Bool) {n : ℕ} (f : Fin n → α) :
    ∃ σ : Equiv.Perm (Fin n), stableSort less (List.ofFn f) = List.ofFn (f ∘ σ) := by
  have hmap : (stableSort (fun i j => less (f i) (f j)) (List.finRange n)).map f =
      stableSort less (List.ofFn f) := by
    rw [List.ofFn_eq_map]
    exact map_stableSort fun _ _ _ _ => rfl
  have hperm := stableSort_perm (fun i j => less (f i) (f j)) (List.finRange n)
  generalize stableSort (fun i j => less (f i) (f j)) (List.finRange n) = l at hmap hperm
  have hlength : l.length = n := hperm.length_eq.trans List.length_finRange
  have hinjective : Function.Injective fun i : Fin n => l.get (i.cast hlength.symm) :=
    fun i j h => by
      have hcast := List.nodup_iff_injective_get.mp (hperm.nodup_iff.mpr (List.nodup_finRange n)) h
      exact Fin.cast_injective _ hcast
  refine ⟨Equiv.ofBijective _ (Finite.injective_iff_bijective.mp hinjective), ?_⟩
  rw [← hmap]
  refine List.ext_getElem (by simp [hlength]) fun i hi hi' => ?_
  simp

/-- **The elements a cut keeps** are those with fewer elements ahead of them than it keeps. -/
theorem mem_take_iff_countP_lt {less : α → α → Bool}
    (hless : ∀ a b, less a b = true → less b a = false) {l : List α}
    (hsorted : l.Pairwise fun a b => less a b = true) {a : α} (ha : a ∈ l) (n : ℕ) :
    a ∈ l.take n ↔ l.countP (fun b => less b a) < n := by
  have hirrefl : less a a = false := by
    cases h : less a a with
    | false => rfl
    | true => exact h.symm.trans (hless a a h)
  induction l generalizing n with
  | nil => cases ha
  | cons b l ih =>
    obtain ⟨hhead, htail⟩ := List.pairwise_cons.mp hsorted
    cases n with
    | zero => simp
    | succ n =>
      rw [List.take_succ_cons, List.mem_cons, List.countP_cons]
      rcases List.mem_cons.mp ha with rfl | ha
      · have hnone : l.countP (fun b => less b a) = 0 :=
          List.countP_eq_zero.mpr fun c hc => by simp [hless _ _ (hhead c hc)]
        simp [hnone, hirrefl]
      · have hne : a ≠ b := fun h => by
          have hba := hhead a ha
          rw [h] at hirrefl hba
          cases hirrefl.symm.trans hba
        have hrest := ih htail ha n
        simp [hne, hrest, hhead a ha]

/-! ## Comparators by keys -/

/-- Comparing by one key. -/
theorem strictWeakOrder_key {κ : Type*} [LinearOrder κ] (key : α → κ) :
    StrictWeakOrder fun a b => decide (key a < key b) where
  asymm _ _ h := decide_eq_false (not_lt.mpr (le_of_lt (of_decide_eq_true h)))
  negTrans _ _ _ hba hcb := decide_eq_false (not_lt.mpr
    ((not_lt.mp (of_decide_eq_false hba)).trans (not_lt.mp (of_decide_eq_false hcb))))

/-- Compare by a key, and by what comes next when the keys are equal. -/
def lexOrder {κ : Type*} [BEq κ] (key : α → κ) (lt : κ → κ → Prop) [DecidableRel lt]
    (less : α → α → Bool) (a b : α) : Bool :=
  if key a != key b then decide (lt (key a) (key b)) else less a b

section Lex

variable {κ : Type*} [BEq κ] [LawfulBEq κ] {key : α → κ} {lt : κ → κ → Prop} [DecidableRel lt]
  {less : α → α → Bool} {a b : α}

theorem lexOrder_of_eq (h : key a = key b) : lexOrder key lt less a b = less a b :=
  if_neg (by simp [h])

theorem lexOrder_of_ne (h : key a ≠ key b) :
    lexOrder key lt less a b = decide (lt (key a) (key b)) :=
  if_pos (by simpa using h)

variable [IsStrictTotalOrder κ lt]

/-- What a comparison by key leaves open is left to the next one. -/
theorem lexOrder_tie (h : lexOrder key lt less a b = false)
    (h' : lexOrder key lt less b a = false) :
    key a = key b ∧ less a b = false ∧ less b a = false := by
  by_cases heq : key a = key b
  · rw [lexOrder_of_eq heq] at h
    rw [lexOrder_of_eq heq.symm] at h'
    exact ⟨heq, h, h'⟩
  · rw [lexOrder_of_ne heq] at h
    rw [lexOrder_of_ne (Ne.symm heq)] at h'
    rcases trichotomous_of lt (key a) (key b) with hlt | hab | hlt
    · exact absurd hlt (of_decide_eq_false h)
    · exact absurd hab heq
    · exact absurd hlt (of_decide_eq_false h')

/-- **Comparing by one more key** is still a comparator. -/
theorem StrictWeakOrder.lexOrder (hless : StrictWeakOrder less) :
    StrictWeakOrder (lexOrder key lt less) where
  asymm a b h := by
    by_cases heq : key a = key b
    · rw [lexOrder_of_eq heq] at h
      rw [lexOrder_of_eq heq.symm]
      exact hless.asymm a b h
    · rw [lexOrder_of_ne heq] at h
      rw [lexOrder_of_ne (Ne.symm heq)]
      exact decide_eq_false (asymm_of lt (of_decide_eq_true h))
  negTrans a b c hba hcb := by
    by_cases hab : key a = key b
    · rw [lexOrder_of_eq hab.symm] at hba
      by_cases hbc : key b = key c
      · rw [lexOrder_of_eq hbc.symm] at hcb
        rw [lexOrder_of_eq (hab.trans hbc).symm]
        exact hless.negTrans a b c hba hcb
      · rw [lexOrder_of_ne (Ne.symm hbc)] at hcb
        rw [lexOrder_of_ne (by rw [hab]; exact Ne.symm hbc), hab]
        exact hcb
    · rw [lexOrder_of_ne (Ne.symm hab)] at hba
      have hlt : lt (key a) (key b) := ((trichotomous_of lt (key a) (key b)).resolve_right
        fun h => h.elim hab (of_decide_eq_false hba))
      by_cases hbc : key b = key c
      · rw [lexOrder_of_ne (by rw [← hbc]; exact Ne.symm hab), ← hbc]
        exact hba
      · rw [lexOrder_of_ne (Ne.symm hbc)] at hcb
        have hlt' : lt (key b) (key c) := ((trichotomous_of lt (key b) (key c)).resolve_right
          fun h => h.elim hbc (of_decide_eq_false hcb))
        have hac : lt (key a) (key c) := trans_of lt hlt hlt'
        have hne : key c ≠ key a := fun h => irrefl_of lt (key a) (by rwa [h] at hac)
        rw [lexOrder_of_ne hne]
        exact decide_eq_false (asymm_of lt hac)

end Lex

/-! ## `std::min_element` -/

/-- The loop of `std::min_element`: the index of the least element so far. -/
def minElementFrom (less : α → α → Bool) (best : α) (bestIndex index : ℕ) : List α → ℕ
  | [] => bestIndex
  | a :: l =>
      if less a best then minElementFrom less a index (index + 1) l
      else minElementFrom less best bestIndex (index + 1) l

/-- `std::min_element`, as an index: the first element that no other is less than. -/
def minElement (less : α → α → Bool) : List α → ℕ
  | [] => 0
  | a :: l => minElementFrom less a 0 1 l

/-! ## `std::sort` -/

/-- An implementation of `std::sort`: it orders, and it sees its elements through the comparator
only. -/
structure StdSort where
  sort : {α : Type} → (α → α → Bool) → List α → List α
  perm : ∀ {α : Type} (less : α → α → Bool) (l : List α), (sort less l).Perm l
  pairwise : ∀ {α : Type} {less : α → α → Bool}, StrictWeakOrder less → ∀ l : List α,
    (sort less l).Pairwise fun a b => less b a = false
  map : ∀ {α β : Type} (f : α → β) (less : β → β → Bool) (l : List α),
    sort less (l.map f) = (sort (fun a b => less (f a) (f b)) l).map f

/-- A stable sort is one. -/
def StdSort.stable : StdSort where
  sort := stableSort
  perm := stableSort_perm
  pairwise h l := pairwise_stableSort h l
  map f _ l := (List.map_insertionSort _ _ f l fun _ _ _ _ => Iff.rfl).symm

/-- **Sorting forgets the order it was given**, up to what the comparator cannot tell apart. -/
theorem StdSort.sort_eq_of_perm {α : Type} (std : StdSort) {less : α → α → Bool}
    (hless : StrictWeakOrder less) {l l' : List α}
    (hties : ∀ a ∈ l, ∀ b ∈ l, less a b = false → less b a = false → a = b) (h : l.Perm l') :
    std.sort less l = std.sort less l' := by
  have hperm : (std.sort less l).Perm (std.sort less l') :=
    ((std.perm less l).trans h).trans (std.perm less l').symm
  refine List.Perm.eq_of_pairwise ?_ (std.pairwise hless l) (std.pairwise hless l') hperm
  intro a b ha hb hab hba
  have hal : a ∈ l := (std.perm less l).mem_iff.mp ha
  have hbl : b ∈ l := h.mem_iff.mpr ((std.perm less l').mem_iff.mp hb)
  exact hties a hal b hbl hba hab

end FacLpr

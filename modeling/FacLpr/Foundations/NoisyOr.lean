import Mathlib.Algebra.BigOperators.Group.List.Basic
import Mathlib.Algebra.Order.Ring.Defs
import Mathlib.Data.List.Forall2
import Mathlib.Tactic.Linarith

/-!
# Foundations/NoisyOr — one of several independent events

`noisyOr l` is the probability that one of independent events of the probabilities `l` happens.  It
does not see the order of `l` or the impossible events in it, stays in the unit interval, and grows
with each of its arguments.
-/

namespace FacLpr

section

variable {K : Type*} [CommRing K]

/-- One minus the probability that no event happens. -/
def noisyOr (l : List K) : K := 1 - (l.map fun x => 1 - x).prod

/-- Impossible events do not count. -/
theorem noisyOr_filter {α : Type*} {l : List α} {p : α → Bool} {f : α → K}
    (h : ∀ a ∈ l, p a = false → f a = 0) :
    noisyOr ((l.filter p).map f) = noisyOr (l.map f) := by
  simp only [noisyOr, List.map_map, Function.comp_def]
  congr 1
  induction l with
  | nil => rfl
  | cons a l ih =>
    obtain ⟨ha, hl⟩ := List.forall_mem_cons.mp h
    rw [List.map_cons, List.prod_cons, ← ih hl]
    cases hp : p a with
    | true => rw [List.filter_cons_of_pos hp, List.map_cons, List.prod_cons]
    | false => rw [List.filter_cons_of_neg (by simp [hp]), ha hp, sub_zero, one_mul]

end

section

variable {K : Type*} [CommRing K] [LinearOrder K] [IsStrictOrderedRing K]

/-- Nothing happens with a probability. -/
theorem prod_one_sub_mem {l : List K} (h : ∀ x ∈ l, 0 ≤ x ∧ x ≤ 1) :
    0 ≤ (l.map fun x => 1 - x).prod ∧ (l.map fun x => 1 - x).prod ≤ 1 := by
  induction l with
  | nil => exact ⟨zero_le_one, le_refl _⟩
  | cons x l ih =>
    obtain ⟨⟨h0, h1⟩, hl⟩ := List.forall_mem_cons.mp h
    obtain ⟨ih0, ih1⟩ := ih hl
    rw [List.map_cons, List.prod_cons]
    exact ⟨mul_nonneg (by linarith) ih0, mul_le_one₀ (by linarith) ih0 ih1⟩

/-- **It is a probability.** -/
theorem noisyOr_mem {l : List K} (h : ∀ x ∈ l, 0 ≤ x ∧ x ≤ 1) :
    0 ≤ noisyOr l ∧ noisyOr l ≤ 1 := by
  obtain ⟨h0, h1⟩ := prod_one_sub_mem h
  rw [noisyOr]
  constructor <;> linarith

/-- **It is no less than any of the probabilities.** -/
theorem le_noisyOr {l : List K} (h : ∀ x ∈ l, 0 ≤ x ∧ x ≤ 1) {x : K} (hx : x ∈ l) :
    x ≤ noisyOr l := by
  have hprod : (l.map fun y => 1 - y).prod ≤ 1 - x := by
    induction l with
    | nil => exact absurd hx List.not_mem_nil
    | cons y l ih =>
      obtain ⟨⟨h0, h1⟩, hl⟩ := List.forall_mem_cons.mp h
      obtain ⟨hprod0, hprod1⟩ := prod_one_sub_mem hl
      rw [List.map_cons, List.prod_cons]
      rcases List.mem_cons.mp hx with rfl | hx
      · exact mul_le_of_le_one_right (by linarith) hprod1
      · exact (mul_le_of_le_one_left hprod0 (by linarith)).trans (ih hl hx)
  rw [noisyOr]
  linarith

/-- **It grows with its arguments.** -/
theorem noisyOr_mono {l l' : List K} (h : List.Forall₂ (fun x y => x ≤ y ∧ y ≤ 1) l l') :
    noisyOr l ≤ noisyOr l' := by
  have hprod : 0 ≤ (l'.map fun y => 1 - y).prod ∧
      (l'.map fun y => 1 - y).prod ≤ (l.map fun x => 1 - x).prod := by
    induction h with
    | nil => exact ⟨zero_le_one, le_refl _⟩
    | @cons x y l l' hxy _ ih =>
      obtain ⟨ih0, ih1⟩ := ih
      simp only [List.map_cons, List.prod_cons]
      exact ⟨mul_nonneg (by linarith [hxy.2]) ih0,
        mul_le_mul (by linarith [hxy.1]) ih1 ih0 (by linarith [hxy.1, hxy.2])⟩
  rw [noisyOr, noisyOr]
  linarith [hprod.2]

end

end FacLpr

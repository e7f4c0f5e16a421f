import FacLpr.Foundations.Scalar
import Mathlib.Data.Real.Basic

/-!
# Foundations/DefinedReal — the reals, and a value for what has none

A quotient by zero has no value, and neither has anything computed from it.  So a computation over
`DefinedReal` that ends in a real never left the domain of an operation.
-/

namespace FacLpr

/-- A real, or what an operation gives outside its domain. -/
inductive DefinedReal where
  | value (x : ℝ)
  | undefined

namespace DefinedReal

/-- An operation that is defined everywhere, on values that are. -/
noncomputable def lift₂ (op : ℝ → ℝ → ℝ) : DefinedReal → DefinedReal → DefinedReal
  | value a, value b => value (op a b)
  | _, _ => undefined

open Classical in
/-- The quotient, which a divisor of zero does not have. -/
noncomputable def div : DefinedReal → DefinedReal → DefinedReal
  | value a, value b => if b = 0 then undefined else value (a / b)
  | _, _ => undefined

/-- A comparison, which holds of values only. -/
def Holds (relation : ℝ → ℝ → Prop) : DefinedReal → DefinedReal → Prop
  | value a, value b => relation a b
  | _, _ => False

open Classical in
/-- A value is what the code calls finite; what has no value is not, and compares with nothing. -/
noncomputable instance : Scalar DefinedReal where
  add := lift₂ (· + ·)
  sub := lift₂ (· - ·)
  mul := lift₂ (· * ·)
  div := div
  zero := value 0
  one := value 1
  lt := Holds (· < ·)
  le := Holds (· ≤ ·)
  beq a b := decide (Holds (· = ·) a b)
  isFinite
    | value _ => true
    | undefined => false
  ofRat q := value q
  decLt _ _ := inferInstance
  decLe _ _ := inferInstance

variable {a b : ℝ}

/-- What is finite is a real. -/
theorem isFinite_iff {v : DefinedReal} : Scalar.isFinite v = true ↔ ∃ x, v = value x := by
  cases v with
  | value x => exact ⟨fun _ => ⟨x, rfl⟩, fun _ => rfl⟩
  | undefined => exact ⟨fun h => (nomatch h), fun ⟨_, h⟩ => (nomatch h)⟩

@[simp] theorem isFinite_value : Scalar.isFinite (value a) = true := rfl

theorem zero_eq : (0 : DefinedReal) = value 0 := rfl

theorem one_eq : (1 : DefinedReal) = value 1 := rfl

@[simp] theorem ofRat_eq (q : ℚ) : (Scalar.ofRat q : DefinedReal) = value q := rfl

@[simp] theorem value_add : value a + value b = value (a + b) := rfl

@[simp] theorem value_sub : value a - value b = value (a - b) := rfl

@[simp] theorem value_mul : value a * value b = value (a * b) := rfl

/-- A quotient of reals is one, unless the divisor is zero. -/
theorem value_div (hb : b ≠ 0) : value a / value b = value (a / b) := if_neg hb

/-- The order of values is that of the reals. -/
@[simp] theorem value_lt : value a < value b ↔ a < b := Iff.rfl

@[simp] theorem value_le : value a ≤ value b ↔ a ≤ b := Iff.rfl

/-- Clamping a real clamps it between reals. -/
theorem value_clamp {v lo hi : ℝ} (h : lo ≤ hi) :
    Scalar.clamp (value v) (value lo) (value hi) = value (lo ⊔ (v ⊓ hi)) := by
  unfold Scalar.clamp
  by_cases hlow : v < lo
  · rw [if_pos (value_lt.mpr hlow), max_eq_left ((min_le_left v hi).trans hlow.le)]
  · rw [if_neg (mt value_lt.mp hlow)]
    by_cases hhigh : hi < v
    · rw [if_pos (value_lt.mpr hhigh), min_eq_right hhigh.le, max_eq_right h]
    · rw [if_neg (mt value_lt.mp hhigh), min_eq_left (not_lt.mp hhigh),
        max_eq_right (not_lt.mp hlow)]

/-- A value already in the unit interval is left alone. -/
theorem value_clamp01_of_mem (h0 : 0 ≤ a) (h1 : a ≤ 1) : Scalar.clamp01 (value a) = value a := by
  unfold Scalar.clamp01
  rw [zero_eq, one_eq, value_clamp zero_le_one, min_eq_left h1, max_eq_right h0]

/-- A probability is a real of the unit interval. -/
theorem isProbability_value : Scalar.isProbability (value a) = true ↔ 0 ≤ a ∧ a ≤ 1 := by
  simp [Scalar.isProbability, zero_eq, one_eq]

end DefinedReal

end FacLpr

import FacLpr.Foundations.Scalar

/-!
# Foundations/ExactFloat — exact arithmetic with infinities and NaN

The values of a floating-point type without rounding or overflow: a finite value is a rational, and
the operations on infinities and NaN are those of IEEE arithmetic.  The sign of a zero is not kept.

On finite values everything is as for rationals (`finite_add`, `finite_lt`, …); a comparison with a
NaN is false, so `<` orders the values only where there is none (`le_of_not_lt`).
-/

namespace FacLpr

/-- A value of exact arithmetic, an infinity or a NaN. -/
inductive ExactFloat where
  | finite (q : ℚ)
  | infinite (negative : Bool)
  | nan
  deriving DecidableEq

namespace ExactFloat

/-- `+`: opposite infinities have no sum. -/
def add : ExactFloat → ExactFloat → ExactFloat
  | finite a, finite b => finite (a + b)
  | finite _, infinite n => infinite n
  | infinite n, finite _ => infinite n
  | infinite n, infinite m => if n = m then infinite n else nan
  | _, _ => nan

/-- The unary `-`. -/
def neg : ExactFloat → ExactFloat
  | finite a => finite (-a)
  | infinite n => infinite (!n)
  | nan => nan

/-- `*`: an infinity times zero is a NaN. -/
def mul : ExactFloat → ExactFloat → ExactFloat
  | finite a, finite b => finite (a * b)
  | finite a, infinite n => if a = 0 then nan else infinite (decide (a < 0) != n)
  | infinite n, finite a => if a = 0 then nan else infinite (n != decide (a < 0))
  | infinite n, infinite m => infinite (n != m)
  | _, _ => nan

/-- `/`: what is not zero divided by zero is an infinity. -/
def div : ExactFloat → ExactFloat → ExactFloat
  | finite a, finite b =>
      if b = 0 then if a = 0 then nan else infinite (decide (a < 0)) else finite (a / b)
  | finite _, infinite _ => finite 0
  | infinite n, finite b => infinite (n != decide (b < 0))
  | _, _ => nan

/-- `<`: nothing is less than a NaN, nor greater. -/
def less : ExactFloat → ExactFloat → Bool
  | finite a, finite b => decide (a < b)
  | finite _, infinite n => !n
  | infinite n, finite _ => n
  | infinite n, infinite m => n && !m
  | _, _ => false

/-- `==`: a NaN is not equal to itself. -/
def equal : ExactFloat → ExactFloat → Bool
  | nan, _ => false
  | a, b => decide (a = b)

/-- `a - b` is `a + (-b)`, and `a <= b` is `a < b || a == b`. -/
instance : Scalar ExactFloat where
  add := add
  sub a b := add a (neg b)
  mul := mul
  div := div
  zero := finite 0
  one := finite 1
  lt a b := less a b = true
  le a b := (less a b || equal a b) = true
  beq := equal
  isFinite
    | finite _ => true
    | _ => false
  ofRat := finite
  decLt _ _ := inferInstanceAs (Decidable (_ = true))
  decLe _ _ := inferInstanceAs (Decidable (_ = true))

variable {a b : ℚ}

/-- What is finite is a rational. -/
theorem isFinite_iff {x : ExactFloat} : Scalar.isFinite x = true ↔ ∃ q, x = finite q := by
  cases x with
  | finite q => exact ⟨fun _ => ⟨q, rfl⟩, fun _ => rfl⟩
  | infinite n => exact ⟨fun h => (nomatch h), fun ⟨_, h⟩ => (nomatch h)⟩
  | nan => exact ⟨fun h => (nomatch h), fun ⟨_, h⟩ => (nomatch h)⟩

@[simp] theorem isFinite_finite : Scalar.isFinite (finite a) = true := rfl

theorem zero_eq : (0 : ExactFloat) = finite 0 := rfl

theorem one_eq : (1 : ExactFloat) = finite 1 := rfl

@[simp] theorem ofRat_eq : (Scalar.ofRat a : ExactFloat) = finite a := rfl

/-- On finite values the operations are those of the rationals. -/
@[simp] theorem finite_add : finite a + finite b = finite (a + b) := rfl

@[simp] theorem finite_sub : finite a - finite b = finite (a - b) :=
  congrArg finite (sub_eq_add_neg a b).symm

@[simp] theorem finite_mul : finite a * finite b = finite (a * b) := rfl

/-- The quotient too, unless the divisor is zero. -/
theorem finite_div (hb : b ≠ 0) : finite a / finite b = finite (a / b) := if_neg hb

/-- And the comparisons. -/
@[simp] theorem finite_lt : finite a < finite b ↔ a < b := decide_eq_true_iff

@[simp] theorem finite_le : finite a ≤ finite b ↔ a ≤ b := by
  change (decide (a < b) || decide (finite a = finite b)) = true ↔ _
  rw [Bool.or_eq_true, decide_eq_true_eq, decide_eq_true_eq, finite.injEq, le_iff_lt_or_eq]

@[simp] theorem finite_beq : (finite a == finite b) = (a == b) := by
  change (decide (finite a = finite b)) = decide (a = b)
  simp

/-- A value between finite ones is finite. -/
theorem isFinite_of_le_of_le {x : ExactFloat} (h : finite a ≤ x) (h' : x ≤ finite b) :
    Scalar.isFinite x = true := by
  cases x with
  | finite q => rfl
  | infinite n =>
    change (less (finite a) (infinite n) || equal (finite a) (infinite n)) = true at h
    change (less (infinite n) (finite b) || equal (infinite n) (finite b)) = true at h'
    simp_all [less, equal]
  | nan => exact nomatch h

/-- What is less is at most. -/
protected theorem le_of_lt {x y : ExactFloat} (h : x < y) : x ≤ y :=
  Bool.or_eq_true_iff.mpr (Or.inl h)

theorem le_of_beq {x y : ExactFloat} (h : (x == y) = true) : x ≤ y :=
  Bool.or_eq_true_iff.mpr (Or.inr h)

/-- Equality is symmetric, also where there are NaN. -/
protected theorem beq_comm (x y : ExactFloat) : (x == y) = (y == x) := by
  change equal x y = equal y x
  cases x <;> cases y <;> simp [equal, eq_comm]

/-- What is less is not equal. -/
theorem bne_of_lt {x y : ExactFloat} (h : x < y) : (y != x) = true := by
  change less x y = true at h
  change (!equal y x) = true
  cases x <;> cases y <;> simp_all [less, equal]
  exact h.ne'

/-- Two values compare unless one is a NaN. -/
protected theorem le_of_not_lt {x y : ExactFloat} (hx : x ≠ nan) (hy : y ≠ nan) (h : ¬ y < x) :
    x ≤ y := by
  change ¬ less y x = true at h
  change (less x y || equal x y) = true
  cases x <;> cases y <;> simp_all [less, equal]
  · exact le_iff_lt_or_eq.mp h
  · grind

/-- A NaN is not below anything. -/
theorem not_nan_lt (x : ExactFloat) : ¬ nan < x := fun h => nomatch h

/-- Nor is anything below it. -/
theorem not_lt_nan (x : ExactFloat) : ¬ x < nan := by
  change ¬ less x nan = true
  cases x <;> exact fun h => nomatch h

/-- The order is transitive, also where there are NaN. -/
protected theorem le_trans {x y z : ExactFloat} (hxy : x ≤ y) (hyz : y ≤ z) : x ≤ z := by
  change (less x y || equal x y) = true at hxy
  change (less y z || equal y z) = true at hyz
  change (less x z || equal x z) = true
  cases x <;> cases y <;> cases z <;> simp_all [less, equal]
  · grind
  · grind

/-- The larger of two rationals. -/
theorem finite_max : Scalar.max (finite a) (finite b) = finite (Scalar.max a b) := by
  simp only [Scalar.max, finite_lt, apply_ite finite]

theorem finite_min : Scalar.min (finite a) (finite b) = finite (Scalar.min a b) := by
  simp only [Scalar.min, finite_lt, apply_ite finite]

/-- Clamping a rational clamps it between rationals. -/
theorem finite_clamp {v : ℚ} :
    Scalar.clamp (finite v) (finite a) (finite b) = finite (Scalar.clamp v a b) := by
  simp only [Scalar.clamp, finite_lt, apply_ite finite]

/-! ## Cutting to a range -/

/-- The nearest value of the range from zero to `extent`. -/
def cut (extent : ℚ) : ExactFloat → ExactFloat
  | finite v => finite (0 ⊔ (v ⊓ extent))
  | infinite negative => finite (if negative then 0 else extent)
  | nan => nan

variable {extent : ℚ}

/-- `std::clamp` from zero cuts to the range, whatever it is given. -/
theorem clamp_eq_cut (h : 0 ≤ extent) (v : ExactFloat) :
    Scalar.clamp v 0 (finite extent) = cut extent v := by
  cases v with
  | finite v => rw [zero_eq, finite_clamp, Scalar.clamp_rat h, cut]
  | infinite n => cases n <;> rfl
  | nan => rfl

/-- What is left after a cut is in the range. -/
theorem mem_of_cut_eq (h : 0 ≤ extent) {v : ExactFloat} {q : ℚ} (hcut : cut extent v = finite q) :
    0 ≤ q ∧ q ≤ extent := by
  cases v with
  | finite v =>
    rw [cut, finite.injEq] at hcut
    exact hcut ▸ ⟨le_max_left _ _, max_le h (min_le_right _ _)⟩
  | infinite n =>
    rw [cut, finite.injEq] at hcut
    cases n
    · exact hcut ▸ ⟨h, le_refl _⟩
    · exact hcut ▸ ⟨le_refl _, h⟩
  | nan => cases hcut

/-- **A cut low end** bounds the range as the end itself does, if anything is left above it. -/
theorem le_iff_of_cut_eq {v : ExactFloat} {low p : ℚ} (hcut : cut extent v = finite low)
    (hleft : low < extent) (hp : 0 ≤ p) : v ≤ finite p ↔ low ≤ p := by
  cases v with
  | finite v =>
    rw [cut, finite.injEq] at hcut
    subst hcut
    have hv : v < extent := by
      refine lt_of_not_ge fun hge => hleft.not_ge ?_
      rw [min_eq_right hge]
      exact le_max_right _ _
    rw [finite_le, min_eq_left hv.le, max_le_iff, and_iff_right hp]
  | infinite n =>
    rw [cut, finite.injEq] at hcut
    cases n
    · exact absurd hcut hleft.ne'
    · exact iff_of_true rfl ((if_pos rfl).symm.trans hcut ▸ hp)
  | nan => cases hcut

/-- **And a cut high end.** -/
theorem le_iff_of_cut_eq' {v : ExactFloat} {high p : ℚ} (hcut : cut extent v = finite high)
    (hleft : 0 < high) (hp : p ≤ extent) : finite p ≤ v ↔ p ≤ high := by
  cases v with
  | finite v =>
    rw [cut, finite.injEq] at hcut
    subst hcut
    have hv : 0 < v ⊓ extent := by
      refine lt_of_not_ge fun hge => hleft.not_ge ?_
      rw [max_eq_left hge]
    rw [finite_le, max_eq_right hv.le, le_min_iff, and_iff_left hp]
  | infinite n =>
    rw [cut, finite.injEq] at hcut
    cases n
    · exact iff_of_true rfl (hcut ▸ hp)
    · exact absurd hcut hleft.ne
  | nan => cases hcut

/-! ## The laws -/

/-- `<` is a strict order, and among finite values it is total. -/
instance : UnitScalar ExactFloat where
  lt_irrefl a := by
    cases a with
    | finite q => simp
    | infinite n => cases n <;> exact fun h => nomatch h
    | nan => exact fun h => nomatch h
  lt_trans {a b c} hab hbc := by
    change less a b = true at hab
    change less b c = true at hbc
    change less a c = true
    cases a <;> cases b <;> cases c <;> simp_all [less]
    exact hab.trans hbc
  zero_lt_one := finite_lt.mpr zero_lt_one
  lt_of_not_lt {a b c} ha hb hnot h := by
    obtain ⟨p, rfl⟩ := isFinite_iff.mp ha
    obtain ⟨q, rfl⟩ := isFinite_iff.mp hb
    rw [finite_lt, not_lt] at hnot
    cases c with
    | finite r => exact finite_lt.mpr (hnot.trans_lt (finite_lt.mp h))
    | infinite n => exact h
    | nan => exact h
  isFinite_zero := rfl
  isFinite_one := rfl

/-- The rational of a finite value. -/
def toRat : ExactFloat → ℚ
  | finite q => q
  | _ => 0

/-- The finite values are ordered as their rationals. -/
instance : OrderedScalar ExactFloat where
  exists_key := by
    refine ⟨toRat, fun {a b} ha hb => ?_, fun {a b} ha hb => ?_, fun {a b} ha hb => ?_⟩
    all_goals
      obtain ⟨p, rfl⟩ := isFinite_iff.mp ha
      obtain ⟨q, rfl⟩ := isFinite_iff.mp hb
    · exact finite_lt
    · exact finite_le
    · rw [finite_beq, beq_iff_eq]
      rfl
  isFinite_of_mem h h' := isFinite_of_le_of_le h h'

/-- What is checked to be a probability is a rational one. -/
theorem isProbability_iff {x : ExactFloat} :
    Scalar.isProbability x = true ↔ ∃ q, x = finite q ∧ 0 ≤ q ∧ q ≤ 1 := by
  constructor
  · intro h
    obtain ⟨q, rfl⟩ := isFinite_iff.mp (Scalar.isFinite_of_isProbability h)
    refine ⟨q, rfl, ?_⟩
    simpa [Scalar.isProbability, zero_eq, one_eq] using h
  · rintro ⟨q, rfl, h⟩
    simpa [Scalar.isProbability, zero_eq, one_eq] using h

/-- A product of probabilities is one, as it is for rationals. -/
instance : ProbabilityScalar ExactFloat where
  isProbability_mul ha hb := by
    obtain ⟨p, rfl, hp⟩ := isProbability_iff.mp ha
    obtain ⟨q, rfl, hq⟩ := isProbability_iff.mp hb
    exact isProbability_iff.mpr
      ⟨p * q, rfl, mul_nonneg hp.1 hq.1, mul_le_one₀ hp.2 hq.1 hq.2⟩

end ExactFloat

end FacLpr

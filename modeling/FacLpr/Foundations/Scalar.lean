import Mathlib.Algebra.Order.BigOperators.Group.List
import Mathlib.Algebra.Order.Field.Rat
import Mathlib.Algebra.Order.Ring.Rat
import Mathlib.Algebra.Order.Field.Canonical
import Mathlib.Tactic.Linarith
import Mathlib.Tactic.NormNum

/-!
# Foundations/Scalar — the arithmetic the engine is written in

The engine computes with `float` and `double`.  `Scalar` lists the operations it uses and assumes
no law, so a result stated over an arbitrary `Scalar` holds of IEEE arithmetic with all its
rounding; a result about exact arithmetic is stated over the instance at `ℚ` (or `ℚ≥0`, for the
weights of the decoder).
-/

namespace FacLpr

/-- The operations of a floating-point type. -/
class Scalar (F : Type) extends Add F, Sub F, Mul F, Div F, Zero F, One F, LT F, LE F, BEq F where
  /-- `std::isfinite`. -/
  isFinite : F → Bool
  /-- The value of a literal, or of a converted integer. -/
  ofRat : ℚ → F
  decLt : DecidableLT F
  decLe : DecidableLE F

attribute [instance, reducible] Scalar.decLt Scalar.decLe

/-- Exact arithmetic. -/
instance : Scalar ℚ where
  toBEq := inferInstance
  isFinite _ := true
  ofRat q := q
  decLt := inferInstance
  decLe := inferInstance

/-- Exact arithmetic on nonnegative values. -/
instance : Scalar ℚ≥0 where
  toBEq := inferInstance
  isFinite _ := true
  ofRat q := q.toNNRat
  decLt := inferInstance
  decLe := inferInstance

/-- The laws of comparison that IEEE arithmetic shares with exact arithmetic. -/
class LawfulScalar (F : Type) [Scalar F] : Prop where
  lt_irrefl (a : F) : ¬ a < a
  lt_trans {a b c : F} : a < b → b < c → a < c
  zero_lt_one : (0 : F) < 1
  /-- Two finite values compare. -/
  lt_of_not_lt {a b c : F} : Scalar.isFinite a = true → Scalar.isFinite b = true →
    ¬ b < a → b < c → a < c

instance : LawfulScalar ℚ where
  lt_irrefl := lt_irrefl
  lt_trans := lt_trans
  zero_lt_one := zero_lt_one
  lt_of_not_lt _ _ h h' := lt_of_le_of_lt (not_lt.mp h) h'

/-- The bounds of the unit interval are finite. -/
class UnitScalar (F : Type) [Scalar F] : Prop extends LawfulScalar F where
  isFinite_zero : Scalar.isFinite (0 : F) = true
  isFinite_one : Scalar.isFinite (1 : F) = true

instance : UnitScalar ℚ where
  isFinite_zero := rfl
  isFinite_one := rfl

/-- On finite values the comparisons are those of the keys. -/
structure Scalar.IsKey {F : Type} [Scalar F] (key : F → ℚ) : Prop where
  lt_iff {a b : F} : Scalar.isFinite a = true → Scalar.isFinite b = true →
    (a < b ↔ key a < key b)
  le_iff {a b : F} : Scalar.isFinite a = true → Scalar.isFinite b = true →
    (a ≤ b ↔ key a ≤ key b)
  beq_iff {a b : F} : Scalar.isFinite a = true → Scalar.isFinite b = true →
    ((a == b) = true ↔ key a = key b)

/-- The finite values are linearly ordered by their comparisons, and the unit interval is finite. -/
class OrderedScalar (F : Type) [Scalar F] : Prop where
  exists_key : ∃ key : F → ℚ, Scalar.IsKey key
  isFinite_of_mem {a : F} : 0 ≤ a → a ≤ 1 → Scalar.isFinite a = true

instance : OrderedScalar ℚ where
  exists_key := ⟨id, fun _ _ => Iff.rfl, fun _ _ => Iff.rfl, fun _ _ => beq_iff_eq⟩
  isFinite_of_mem _ _ := rfl

/-- Up to `1024` positive values of the unit interval add up to a positive finite value, and a
positive finite value is the whole of itself. -/
class ShareScalar (F : Type) [Scalar F] : Prop extends UnitScalar F, OrderedScalar F where
  sum_pos (l : List F) : l ≠ [] → l.length ≤ 1024 → (∀ x ∈ l, 0 < x ∧ x ≤ 1) →
    Scalar.isFinite (l.foldl (· + ·) 0) = true ∧ 0 < l.foldl (· + ·) 0
  div_self {a : F} : Scalar.isFinite a = true → 0 < a → a / a = 1
  zero_div {a : F} : Scalar.isFinite a = true → 0 < a → 0 / a = 0
  one_sub_zero : (1 : F) - 0 = 1

instance : ShareScalar ℚ where
  sum_pos l hne _ h := by
    refine ⟨rfl, ?_⟩
    rw [← List.sum_eq_foldl]
    exact List.sum_pos l (fun x hx => (h x hx).1) hne
  div_self _ h := div_self h.ne'
  zero_div _ _ := zero_div _
  one_sub_zero := sub_zero 1

namespace Scalar

variable {F : Type} [Scalar F]

/-- `std::max`: the first argument unless it is less than the second. -/
def max (a b : F) : F := if a < b then b else a

/-- `std::min`: the first argument unless the second is less. -/
def min (a b : F) : F := if b < a then b else a

/-- `std::clamp`. -/
def clamp (v lo hi : F) : F := if v < lo then lo else if hi < v then hi else v

/-- `std::clamp(value, 0.0F, 1.0F)`. -/
def clamp01 (v : F) : F := clamp v 0 1

/-- The checks `!isfinite(v) || v < 0 || v > 1` the engine rejects a probability by. -/
def isProbability (v : F) : Bool := isFinite v && !decide (v < 0) && !decide (1 < v)

theorem clamp01_zero [LawfulScalar F] : clamp01 (0 : F) = 0 := by
  have hone : ¬ (1 : F) < 0 := fun h =>
    LawfulScalar.lt_irrefl _ (LawfulScalar.lt_trans h LawfulScalar.zero_lt_one)
  unfold clamp01 clamp
  rw [if_neg (LawfulScalar.lt_irrefl _), if_neg hone]

theorem max_self [LawfulScalar F] (a : F) : max a a = a := if_neg (LawfulScalar.lt_irrefl a)

/-! ## Finite values -/

theorem isFinite_max {a b : F} (ha : isFinite a = true) (hb : isFinite b = true) :
    isFinite (max a b) = true := by
  unfold max
  split
  · exact hb
  · exact ha

theorem isFinite_of_isProbability {a : F} (ha : isProbability a = true) : isFinite a = true := by
  simp only [isProbability, Bool.and_eq_true] at ha
  exact ha.1.1

/-- The larger of two probabilities is one of them. -/
theorem isProbability_max {a b : F} (ha : isProbability a = true)
    (hb : isProbability b = true) : isProbability (max a b) = true := by
  unfold max
  split
  · exact hb
  · exact ha

theorem isProbability_foldl_max {l : List F} {a : F} (ha : isProbability a = true)
    (hl : ∀ x ∈ l, isProbability x = true) : isProbability (l.foldl max a) = true :=
  List.foldlRecOn (motive := fun a => isProbability a = true) l max ha
    fun _ h x hx => isProbability_max h (hl x hx)

section Finite

variable [UnitScalar F] {a b m : F}

/-- Clamping keeps a value finite. -/
theorem isFinite_clamp01 (ha : isFinite a = true) : isFinite (clamp01 a) = true := by
  unfold clamp01 clamp
  split
  · exact UnitScalar.isFinite_zero
  · split
    · exact UnitScalar.isFinite_one
    · exact ha

/-- The maximum of numbers is below what both are below. -/
theorem max_lt_iff (ha : isFinite a = true) (hb : isFinite b = true) :
    max a b < m ↔ a < m ∧ b < m := by
  unfold max
  split
  · rename_i hab
    exact ⟨fun h => ⟨LawfulScalar.lt_trans hab h, h⟩, And.right⟩
  · rename_i hab
    exact ⟨fun h => ⟨h, LawfulScalar.lt_of_not_lt hb ha hab h⟩, And.left⟩

/-- **A running maximum is small when everything is.** -/
theorem foldl_max_lt_iff (l : List F) (ha : isFinite a = true)
    (hl : ∀ x ∈ l, isFinite x = true) :
    l.foldl max a < m ↔ a < m ∧ ∀ x ∈ l, x < m := by
  induction l generalizing a with
  | nil => simp
  | cons x l ih =>
    have hx := hl x List.mem_cons_self
    rw [List.foldl_cons, ih (isFinite_max ha hx) fun y hy => hl y (List.mem_cons_of_mem x hy),
      max_lt_iff ha hx, List.forall_mem_cons, and_assoc]

end Finite

section Ordered

variable [OrderedScalar F] {a b : F}

theorem not_le_of_lt (ha : isFinite a = true) (hb : isFinite b = true) (h : a < b) : ¬ b ≤ a := by
  obtain ⟨key, hkey⟩ := OrderedScalar.exists_key (F := F)
  rw [hkey.le_iff hb ha, not_le]
  exact (hkey.lt_iff ha hb).mp h

theorem not_lt_of_le (ha : isFinite a = true) (hb : isFinite b = true) (h : a ≤ b) : ¬ b < a := by
  obtain ⟨key, hkey⟩ := OrderedScalar.exists_key (F := F)
  rw [hkey.lt_iff hb ha, not_lt]
  exact (hkey.le_iff ha hb).mp h

theorem le_of_not_lt (ha : isFinite a = true) (hb : isFinite b = true) (h : ¬ b < a) : a ≤ b := by
  obtain ⟨key, hkey⟩ := OrderedScalar.exists_key (F := F)
  rw [hkey.le_iff ha hb]
  exact not_lt.mp fun hlt => h ((hkey.lt_iff hb ha).mpr hlt)

theorem lt_of_lt_of_le {c : F} (ha : isFinite a = true) (hb : isFinite b = true)
    (hc : isFinite c = true) (h : a < b) (h' : b ≤ c) : a < c := by
  obtain ⟨key, hkey⟩ := OrderedScalar.exists_key (F := F)
  rw [hkey.lt_iff ha hc]
  exact ((hkey.lt_iff ha hb).mp h).trans_le ((hkey.le_iff hb hc).mp h')

end Ordered

/-! ## Exact arithmetic -/

/-- A clamp of rationals is a lattice expression, -/
theorem clamp_rat {v lo hi : ℚ} (h : lo ≤ hi) : clamp v lo hi = lo ⊔ (v ⊓ hi) := by
  unfold clamp
  split
  · rename_i hlow
    exact (max_eq_left ((min_le_left _ _).trans hlow.le)).symm
  · rename_i hlow
    split
    · rename_i hhigh
      rw [min_eq_right hhigh.le, max_eq_right h]
    · rename_i hhigh
      rw [min_eq_left (not_lt.mp hhigh), max_eq_right (not_lt.mp hlow)]

/-- monotone, -/
theorem clamp_mono {v w lo hi : ℚ} (h : lo ≤ hi) (hvw : v ≤ w) : clamp v lo hi ≤ clamp w lo hi := by
  rw [clamp_rat h, clamp_rat h]
  exact max_le_max_left _ (min_le_min_right _ hvw)

/-- and within its bounds. -/
theorem clamp_mem {v lo hi : ℚ} (h : lo ≤ hi) : lo ≤ clamp v lo hi ∧ clamp v lo hi ≤ hi := by
  rw [clamp_rat h]
  exact ⟨le_max_left _ _, max_le h (min_le_right _ _)⟩

/-- Clamping moves a value towards every value of the range. -/
theorem abs_clamp_sub_le {v p lo hi : ℚ} (hlo : lo ≤ p) (hhi : p ≤ hi) :
    |clamp v lo hi - p| ≤ |v - p| := by
  unfold clamp
  split
  · rename_i hlow
    rw [abs_of_nonpos (by linarith), abs_of_nonpos (by linarith)]
    linarith
  · split
    · rename_i hhigh
      rw [abs_of_nonneg (by linarith), abs_of_nonneg (by linarith)]
      linarith
    · exact le_rfl

theorem min_rat (a b : ℚ) : min a b = a ⊓ b := by
  unfold min
  split
  · exact (min_eq_right (le_of_lt ‹_›)).symm
  · exact (min_eq_left (not_lt.mp ‹_›)).symm

@[simp] theorem isFinite_rat (q : ℚ) : isFinite q = true := rfl

@[simp] theorem ofRat_rat (q : ℚ) : (ofRat q : ℚ) = q := rfl

theorem max_rat (a b : ℚ) : max a b = a ⊔ b := by
  unfold max
  split
  · exact (max_eq_right (le_of_lt ‹_›)).symm
  · exact (max_eq_left (not_lt.mp ‹_›)).symm

theorem clamp01_nonneg (v : ℚ) : 0 ≤ clamp01 v := (clamp_mem zero_le_one).1

theorem clamp01_le_one (v : ℚ) : clamp01 v ≤ 1 := (clamp_mem zero_le_one).2

theorem clamp01_mono {v w : ℚ} (h : v ≤ w) : clamp01 v ≤ clamp01 w := clamp_mono zero_le_one h

/-- A value already in the unit interval is left alone. -/
theorem clamp01_of_mem {v : ℚ} (h0 : 0 ≤ v) (h1 : v ≤ 1) : clamp01 v = v := by
  unfold clamp01 clamp
  rw [if_neg (not_lt.mpr h0), if_neg (not_lt.mpr h1)]

/-- The probabilities of exact arithmetic. -/
theorem isProbability_rat {v : ℚ} : isProbability v = true ↔ 0 ≤ v ∧ v ≤ 1 := by
  simp [isProbability]

end Scalar

/-! ## Probabilities -/

/-- A product of probabilities is one. -/
class ProbabilityScalar (F : Type) [Scalar F] : Prop extends UnitScalar F, OrderedScalar F where
  isProbability_mul {a b : F} : Scalar.isProbability a = true → Scalar.isProbability b = true →
    Scalar.isProbability (a * b) = true

instance : ProbabilityScalar ℚ where
  isProbability_mul ha hb := by
    rw [Scalar.isProbability_rat] at ha hb ⊢
    exact ⟨mul_nonneg ha.1 hb.1, mul_le_one₀ ha.2 hb.1 hb.2⟩

namespace ProbabilityScalar

variable {F : Type} [Scalar F] [ProbabilityScalar F] {a b : F}

theorem isProbability_iff : Scalar.isProbability a = true ↔
    Scalar.isFinite a = true ∧ 0 ≤ a ∧ a ≤ 1 := by
  have hzero := UnitScalar.isFinite_zero (F := F)
  have hone := UnitScalar.isFinite_one (F := F)
  simp only [Scalar.isProbability, Bool.and_eq_true, Bool.not_eq_true', decide_eq_false_iff_not,
    and_assoc]
  exact and_congr_right fun ha =>
    ⟨fun h => ⟨Scalar.le_of_not_lt hzero ha h.1, Scalar.le_of_not_lt ha hone h.2⟩,
      fun h => ⟨Scalar.not_lt_of_le hzero ha h.1, Scalar.not_lt_of_le ha hone h.2⟩⟩

theorem isProbability_zero : Scalar.isProbability (0 : F) = true := by
  simp only [Scalar.isProbability, Bool.and_eq_true, Bool.not_eq_true', decide_eq_false_iff_not]
  exact ⟨⟨UnitScalar.isFinite_zero, LawfulScalar.lt_irrefl _⟩, fun h =>
    LawfulScalar.lt_irrefl _ (LawfulScalar.lt_trans h LawfulScalar.zero_lt_one)⟩

theorem isProbability_one : Scalar.isProbability (1 : F) = true := by
  simp only [Scalar.isProbability, Bool.and_eq_true, Bool.not_eq_true', decide_eq_false_iff_not]
  exact ⟨⟨UnitScalar.isFinite_one, fun h =>
    LawfulScalar.lt_irrefl _ (LawfulScalar.lt_trans h LawfulScalar.zero_lt_one)⟩,
    LawfulScalar.lt_irrefl _⟩

/-- A clamped number is a probability. -/
theorem isProbability_clamp01 (ha : Scalar.isFinite a = true) :
    Scalar.isProbability (Scalar.clamp01 a) = true := by
  unfold Scalar.clamp01 Scalar.clamp
  split
  · exact isProbability_zero
  · split
    · exact isProbability_one
    · simp [Scalar.isProbability, *]

end ProbabilityScalar

end FacLpr

import Mathlib.Algebra.Order.Field.Rat
import Mathlib.Algebra.Order.Ring.Abs
import Mathlib.Data.Nat.Log
import Mathlib.Data.Rat.Lemmas
import Mathlib.Order.Monotone.Basic
import Mathlib.Tactic.FieldSimp
import Mathlib.Tactic.Linarith
import Mathlib.Tactic.Positivity
import Mathlib.Tactic.Ring

/-!
# Foundations/FloatFormat — binary floating-point arithmetic

A datum is a sign and a magnitude, the bit pattern without the sign.  Finite magnitudes are points
of a grid of multiples of the least subnormal, in increasing order, so an operation is the exact one
in `ℚ` followed by rounding to the nearest point, ties to even (`FloatFormat.round`).
-/

namespace FacLpr

/-! ## Rounding to a grid -/

namespace Grid

/-- The last of the `2 ^ bits` indices from `base` on whose point is not above `n / d`. -/
def floorIndex (units : ℕ → ℕ) (n d : ℕ) : ℕ → ℕ → ℕ
  | 0, base => base
  | bits + 1, base =>
      if units (base + 2 ^ bits) * d ≤ n then floorIndex units n d bits (base + 2 ^ bits)
      else floorIndex units n d bits base

/-- The index of the point nearest to `n / d`, the even one of two. -/
def nearest (units : ℕ → ℕ) (bits n d : ℕ) : ℕ :=
  let below := floorIndex units n d bits 0
  let middle := (units below + units (below + 1)) * d
  if 2 * n < middle then below
  else if 2 * n = middle then below + below % 2
  else below + 1

variable {units : ℕ → ℕ} {n d : ℕ}

/-- The search returns an index whose units fit, -/
theorem floorIndex_le (bits : ℕ) {base : ℕ} (h : units base * d ≤ n) :
    units (floorIndex units n d bits base) * d ≤ n := by
  induction bits generalizing base with
  | zero => exact h
  | succ bits ih =>
    unfold floorIndex
    split
    · rename_i hle
      exact ih hle
    · exact ih h

/-- and the last one that does. -/
theorem le_floorIndex (hunits : StrictMono units) (bits : ℕ) {base k : ℕ}
    (hk : k < base + 2 ^ bits) (h : units k * d ≤ n) :
    k ≤ floorIndex units n d bits base := by
  induction bits generalizing base with
  | zero => exact Nat.lt_succ_iff.mp hk
  | succ bits ih =>
    unfold floorIndex
    split
    · refine ih ?_
      rwa [add_assoc, ← two_mul, ← pow_succ']
    · rename_i hgt
      refine ih (lt_of_not_ge fun hge => hgt (le_trans ?_ h))
      exact Nat.mul_le_mul_right d (hunits.monotone hge)

/-- **Rounding does not pass a point above.** -/
theorem nearest_le (hunits : StrictMono units) (hzero : units 0 = 0) (hd : 0 < d) {bits k : ℕ}
    (h : n ≤ units k * d) : nearest units bits n d ≤ k := by
  have hbelow : units (floorIndex units n d bits 0) * d ≤ n :=
    floorIndex_le bits (by rw [hzero, Nat.zero_mul]; exact Nat.zero_le n)
  have hle : floorIndex units n d bits 0 ≤ k :=
    hunits.le_iff_le.mp (Nat.le_of_mul_le_mul_right (hbelow.trans h) hd)
  rcases hle.lt_or_eq with hlt | heq
  · unfold nearest
    grind
  · have hstep : units k * d < units (k + 1) * d :=
      Nat.mul_lt_mul_of_pos_right (hunits (Nat.lt_succ_self k)) hd
    have hmiddle : 2 * n < (units k + units (k + 1)) * d := by
      rw [Nat.add_mul]
      omega
    unfold nearest
    rw [heq]
    exact le_of_eq (if_pos hmiddle)

/-- **Rounding does not pass a point below.** -/
theorem le_nearest (hunits : StrictMono units) {bits k : ℕ} (hk : k < 2 ^ bits)
    (h : units k * d ≤ n) : k ≤ nearest units bits n d := by
  have hle : k ≤ floorIndex units n d bits 0 := le_floorIndex hunits bits (by simpa using hk) h
  unfold nearest
  grind

end Grid

/-! ## A format -/

/-- A binary interchange format, by the widths of its fields. -/
structure FloatFormat where
  mantissaBits : ℕ
  exponentBits : ℕ
  wide : 2 ≤ exponentBits

/-- A sign, and the bit pattern without it. -/
structure FloatDatum where
  sign : Bool
  magnitude : ℕ

namespace FloatFormat

variable (f : FloatFormat)

/-- The bits of a magnitude. -/
def bits : ℕ := f.mantissaBits + f.exponentBits

/-- The pattern of infinity; larger magnitudes are NaNs. -/
def infinity : ℕ := (2 ^ f.exponentBits - 1) * 2 ^ f.mantissaBits

/-- The pattern of one. -/
def one : ℕ := (2 ^ (f.exponentBits - 1) - 1) * 2 ^ f.mantissaBits

/-- A magnitude as a multiple of the least subnormal. -/
def units (k : ℕ) : ℕ :=
  if k / 2 ^ f.mantissaBits = 0 then k
  else (2 ^ f.mantissaBits + k % 2 ^ f.mantissaBits) * 2 ^ (k / 2 ^ f.mantissaBits - 1)

/-- The least subnormals in one. -/
def scale : ℕ := 2 ^ (2 ^ (f.exponentBits - 1) - 2 + f.mantissaBits)

/-- The value of a magnitude. -/
def value (k : ℕ) : ℚ := f.units k / f.scale

/-- The magnitude nearest to a number; past the middle between the last finite one and the next
power of two it is infinity. -/
def roundMagnitude (q : ℚ) : ℕ :=
  Min.min (Grid.nearest f.units f.bits (q.num.natAbs * f.scale) q.den) f.infinity

theorem units_zero : f.units 0 = 0 := by simp [units]

/-- Magnitudes are in the order of their values. -/
theorem units_strictMono : StrictMono f.units := by
  refine strictMono_nat_of_lt_succ fun k => ?_
  have hpos : 0 < 2 ^ f.mantissaBits := by positivity
  have hk := Nat.div_add_mod k (2 ^ f.mantissaBits)
  have hr := Nat.mod_lt k hpos
  set m := 2 ^ f.mantissaBits with hm
  have hunits : ∀ e r, r < m → f.units (m * e + r) =
      if e = 0 then r else (m + r) * 2 ^ (e - 1) := by
    intro e r hr
    have hdiv : (m * e + r) / m = e := by
      rw [Nat.mul_add_div hpos, Nat.div_eq_of_lt hr, Nat.add_zero]
    have hmod : (m * e + r) % m = r := by rw [Nat.mul_add_mod, Nat.mod_eq_of_lt hr]
    simp only [units, ← hm, hdiv, hmod]
    split
    · rename_i h
      rw [h, Nat.mul_zero, Nat.zero_add]
    · rfl
  rw [← hk]
  rcases Nat.lt_or_ge (k % m + 1) m with hlt | hge
  · rw [Nat.add_assoc, hunits _ _ hr, hunits _ _ hlt]
    split
    · exact Nat.lt_succ_self _
    · exact Nat.mul_lt_mul_of_pos_right (by omega) (by positivity)
  · have hcarry : m * (k / m) + k % m + 1 = m * (k / m + 1) + 0 := by
      rw [Nat.mul_add]
      omega
    rw [hcarry, hunits _ _ hr, hunits _ _ hpos, if_neg (Nat.succ_ne_zero _), Nat.add_sub_cancel,
      Nat.add_zero]
    split
    · rename_i hzero
      rw [hzero, pow_zero, Nat.mul_one]
      exact hr
    · rename_i hne
      obtain ⟨e, he⟩ := Nat.exists_eq_succ_of_ne_zero hne
      rw [he, Nat.succ_sub_one, Nat.pow_succ', ← Nat.mul_assoc]
      exact Nat.mul_lt_mul_of_pos_right (by omega) (by positivity)

theorem scale_pos : 0 < f.scale := by
  unfold scale
  positivity

@[simp] theorem value_zero : f.value 0 = 0 := by simp [value, units_zero]

theorem value_strictMono : StrictMono f.value := by
  intro k l hkl
  have hscale : (0 : ℚ) < f.scale := Nat.cast_pos.mpr f.scale_pos
  exact div_lt_div_of_pos_right (Nat.cast_lt.mpr (f.units_strictMono hkl)) hscale

theorem value_nonneg (k : ℕ) : 0 ≤ f.value k := by
  rw [← f.value_zero]
  exact f.value_strictMono.monotone (Nat.zero_le k)

/-- The magnitude of one has the value one. -/
theorem value_one : f.value f.one = 1 := by
  have hpos : 0 < 2 ^ f.mantissaBits := by positivity
  have hwide := f.wide
  have hexponent : 2 ≤ 2 ^ (f.exponentBits - 1) := by
    calc 2 = 2 ^ 1 := rfl
      _ ≤ 2 ^ (f.exponentBits - 1) := Nat.pow_le_pow_right (by norm_num) (by omega)
  have hunits : f.units f.one = f.scale := by
    simp only [units, one, Nat.mul_div_cancel _ hpos, Nat.mul_mod_left, Nat.add_zero]
    rw [if_neg (by omega), scale, ← pow_add, Nat.sub_sub]
    congr 1
    omega
  rw [value, hunits]
  exact div_self (Nat.cast_ne_zero.mpr f.scale_pos.ne')

theorem infinity_lt : f.infinity < 2 ^ f.bits := by
  have hpos : 0 < 2 ^ f.exponentBits := by positivity
  unfold infinity bits
  rw [pow_add, Nat.mul_comm (2 ^ f.mantissaBits)]
  exact Nat.mul_lt_mul_of_pos_right (by omega) (by positivity)

theorem one_lt_infinity : f.one < f.infinity := by
  have hwide := f.wide
  have hlt : 2 ^ (f.exponentBits - 1) < 2 ^ f.exponentBits :=
    Nat.pow_lt_pow_right (by norm_num) (by omega)
  have hpos : 0 < 2 ^ (f.exponentBits - 1) := by positivity
  exact Nat.mul_lt_mul_of_pos_right (by omega) (by positivity)

theorem one_pos : 0 < f.one := by
  have hwide := f.wide
  have hlt : 1 < 2 ^ (f.exponentBits - 1) := Nat.one_lt_two_pow (by omega)
  exact Nat.mul_pos (by omega) (by positivity)

theorem abs_eq_natAbs_div (q : ℚ) : |q| = (q.num.natAbs : ℚ) / q.den := by
  have hden : (0 : ℚ) < q.den := Nat.cast_pos.mpr q.den_pos
  conv_lhs => rw [← Rat.num_div_den q]
  rw [abs_div, abs_of_pos hden, ← Int.cast_abs, Int.abs_eq_natAbs, Int.cast_natCast]

/-- The comparison of a number with a point, in whole numbers. -/
theorem abs_le_value_iff (q : ℚ) (k : ℕ) :
    |q| ≤ f.value k ↔ q.num.natAbs * f.scale ≤ f.units k * q.den := by
  have hscale : (0 : ℚ) < f.scale := Nat.cast_pos.mpr f.scale_pos
  have hden : (0 : ℚ) < q.den := Nat.cast_pos.mpr q.den_pos
  rw [abs_eq_natAbs_div, value, div_le_div_iff₀ hden hscale]
  exact_mod_cast Iff.rfl

/-- Values are compared with rationals in whole numbers. -/
theorem value_le_abs_iff (q : ℚ) (k : ℕ) :
    f.value k ≤ |q| ↔ f.units k * q.den ≤ q.num.natAbs * f.scale := by
  have hscale : (0 : ℚ) < f.scale := Nat.cast_pos.mpr f.scale_pos
  have hden : (0 : ℚ) < q.den := Nat.cast_pos.mpr q.den_pos
  rw [abs_eq_natAbs_div, value, div_le_div_iff₀ hscale hden]
  exact_mod_cast Iff.rfl

variable {f}

/-- **A number below a point** is rounded to a point below it. -/
theorem roundMagnitude_le {q : ℚ} {k : ℕ} (h : |q| ≤ f.value k) : f.roundMagnitude q ≤ k :=
  (Nat.min_le_left _ _).trans
    (Grid.nearest_le f.units_strictMono f.units_zero q.den_pos ((f.abs_le_value_iff q k).mp h))

/-- **A number above a finite point** is rounded to a point above it. -/
theorem le_roundMagnitude {q : ℚ} {k : ℕ} (hk : k ≤ f.infinity) (h : f.value k ≤ |q|) :
    k ≤ f.roundMagnitude q :=
  Nat.le_min.mpr ⟨Grid.le_nearest f.units_strictMono (hk.trans_lt f.infinity_lt)
    ((f.value_le_abs_iff q k).mp h), hk⟩

/-- Rounding gives a number or an infinity. -/
theorem roundMagnitude_le_infinity (q : ℚ) : f.roundMagnitude q ≤ f.infinity :=
  Nat.min_le_right _ _

/-! ## Operations -/

variable (f)

def isNan (x : FloatDatum) : Bool := decide (f.infinity < x.magnitude)

def isInfinite (x : FloatDatum) : Bool := x.magnitude == f.infinity

def isFinite (x : FloatDatum) : Bool := decide (x.magnitude < f.infinity)

/-- The quiet NaN an invalid operation gives. -/
def nan : FloatDatum := ⟨false, f.infinity + 2 ^ (f.mantissaBits - 1)⟩

/-- The number a finite datum stands for. -/
def toRat (x : FloatDatum) : ℚ := if x.sign then -f.value x.magnitude else f.value x.magnitude

/-- The datum nearest to a number; the operation chooses the sign of an exact zero. -/
def round (zeroSign : Bool) (q : ℚ) : FloatDatum :=
  ⟨if q = 0 then zeroSign else decide (q < 0), f.roundMagnitude q⟩

def neg (x : FloatDatum) : FloatDatum := ⟨!x.sign, x.magnitude⟩

/-- The sum, rounded; opposite infinities have none. -/
def add (x y : FloatDatum) : FloatDatum :=
  if f.isNan x || f.isNan y then f.nan
  else if f.isInfinite x then if f.isInfinite y && x.sign != y.sign then f.nan else x
  else if f.isInfinite y then y
  else f.round (x.sign && y.sign) (f.toRat x + f.toRat y)

def sub (x y : FloatDatum) : FloatDatum := f.add x (neg y)

/-- The product, rounded; zero times an infinity has none. -/
def mul (x y : FloatDatum) : FloatDatum :=
  if f.isNan x || f.isNan y then f.nan
  else if f.isInfinite x || f.isInfinite y then
    if x.magnitude == 0 || y.magnitude == 0 then f.nan else ⟨x.sign != y.sign, f.infinity⟩
  else f.round (x.sign != y.sign) (f.toRat x * f.toRat y)

/-- The quotient, rounded. -/
def div (x y : FloatDatum) : FloatDatum :=
  if f.isNan x || f.isNan y then f.nan
  else if f.isInfinite x then
    if f.isInfinite y then f.nan else ⟨x.sign != y.sign, f.infinity⟩
  else if f.isInfinite y then ⟨x.sign != y.sign, 0⟩
  else if y.magnitude == 0 then
    if x.magnitude == 0 then f.nan else ⟨x.sign != y.sign, f.infinity⟩
  else f.round (x.sign != y.sign) (f.toRat x / f.toRat y)

/-- The order of the data that are numbers; the two zeros are equal. -/
def key (x : FloatDatum) : ℤ := if x.sign then -x.magnitude else x.magnitude

/-- Comparisons with a NaN are false. -/
def lt (x y : FloatDatum) : Bool := !f.isNan x && !f.isNan y && decide (key x < key y)

def le (x y : FloatDatum) : Bool := !f.isNan x && !f.isNan y && decide (key x ≤ key y)

def beq (x y : FloatDatum) : Bool := !f.isNan x && !f.isNan y && decide (key x = key y)

/-! ## What an operation keeps -/

section Facts

variable {f} {x y : FloatDatum}

/-- The datum is a number, possibly infinite, and not negative. -/
def IsNonneg (f : FloatFormat) (x : FloatDatum) : Prop :=
  f.isNan x = false ∧ (x.sign = false ∨ x.magnitude = 0)

/-- The datum lies in the unit interval. -/
def IsUnit (f : FloatFormat) (x : FloatDatum) : Prop :=
  x.magnitude ≤ f.one ∧ (x.sign = false ∨ x.magnitude = 0)

theorem isNan_eq_false : f.isNan x = false ↔ x.magnitude ≤ f.infinity := by simp [isNan]

theorem isNan_of_isFinite (h : f.isFinite x = true) :
    f.isNan x = false ∧ f.isInfinite x = false := by
  simp only [isFinite, isNan, isInfinite, decide_eq_true_eq, decide_eq_false_iff_not, not_lt,
    beq_eq_false_iff_ne] at h ⊢
  exact ⟨h.le, h.ne⟩

theorem IsUnit.isFinite (h : f.IsUnit x) : f.isFinite x = true :=
  decide_eq_true (h.1.trans_lt f.one_lt_infinity)

theorem toRat_nonneg (h : x.sign = false ∨ x.magnitude = 0) : 0 ≤ f.toRat x := by
  unfold toRat
  rcases h with h | h
  · rw [h]
    exact f.value_nonneg _
  · rw [h]
    simp

/-- The magnitude without the sign. -/
theorem abs_toRat (x : FloatDatum) : |f.toRat x| = f.value x.magnitude := by
  unfold toRat
  split
  · rw [abs_neg, abs_of_nonneg (f.value_nonneg _)]
  · rw [abs_of_nonneg (f.value_nonneg _)]

/-- A datum between zero and one has such a value. -/
theorem IsUnit.toRat_mem (h : f.IsUnit x) : 0 ≤ f.toRat x ∧ f.toRat x ≤ 1 := by
  have hnonneg : 0 ≤ f.toRat x := toRat_nonneg h.2
  refine ⟨hnonneg, ?_⟩
  rw [← abs_of_nonneg hnonneg, abs_toRat, ← f.value_one]
  exact f.value_strictMono.monotone h.1

theorem roundMagnitude_zero : f.roundMagnitude 0 = 0 :=
  Nat.le_zero.mp (roundMagnitude_le (by simp))

/-- Rounding makes nothing negative. -/
theorem round_sign (z : Bool) {q : ℚ} (h : 0 ≤ q) :
    (f.round z q).sign = false ∨ (f.round z q).magnitude = 0 := by
  rcases h.eq_or_lt with h | h
  · rw [← h]
    exact Or.inr roundMagnitude_zero
  · exact Or.inl (by simp [round, h.ne', not_lt.mpr h.le])

theorem isNan_round (z : Bool) (q : ℚ) : f.isNan (f.round z q) = false :=
  isNan_eq_false.mpr (roundMagnitude_le_infinity q)

theorem isNonneg_round (z : Bool) {q : ℚ} (h : 0 ≤ q) : f.IsNonneg (f.round z q) :=
  ⟨isNan_round z q, round_sign z h⟩

/-- **A number of the unit interval** is rounded into it. -/
theorem isUnit_round (z : Bool) {q : ℚ} (h : 0 ≤ q) (hone : q ≤ 1) : f.IsUnit (f.round z q) := by
  refine ⟨roundMagnitude_le ?_, round_sign z h⟩
  rwa [abs_of_nonneg h, f.value_one]

/-- An operation on finite data rounds the exact result. -/
theorem add_of_isFinite (hx : f.isFinite x = true) (hy : f.isFinite y = true) :
    f.add x y = f.round (x.sign && y.sign) (f.toRat x + f.toRat y) := by
  simp [add, isNan_of_isFinite hx, isNan_of_isFinite hy]

theorem toRat_neg (x : FloatDatum) : f.toRat (neg x) = -f.toRat x := by
  unfold toRat neg
  cases x.sign <;> simp

/-- Operations on numbers are the exact ones, rounded. -/
theorem sub_of_isFinite (hx : f.isFinite x = true) (hy : f.isFinite y = true) :
    f.sub x y = f.round (x.sign && !y.sign) (f.toRat x - f.toRat y) := by
  have hneg : f.isFinite (neg y) = true := hy
  rw [sub, add_of_isFinite hx hneg, toRat_neg, ← sub_eq_add_neg]
  rfl

theorem mul_of_isFinite (hx : f.isFinite x = true) (hy : f.isFinite y = true) :
    f.mul x y = f.round (x.sign != y.sign) (f.toRat x * f.toRat y) := by
  simp [mul, isNan_of_isFinite hx, isNan_of_isFinite hy]

theorem div_of_isFinite (hx : f.isFinite x = true) (hy : f.isFinite y = true)
    (hne : y.magnitude ≠ 0) :
    f.div x y = f.round (x.sign != y.sign) (f.toRat x / f.toRat y) := by
  simp [div, isNan_of_isFinite hx, isNan_of_isFinite hy, hne]

/-- One is a point. -/
theorem round_one (z : Bool) : f.round z 1 = ⟨false, f.one⟩ := by
  have hle : f.roundMagnitude 1 ≤ f.one := roundMagnitude_le (by rw [f.value_one, abs_one])
  have hge : f.one ≤ f.roundMagnitude 1 :=
    le_roundMagnitude f.one_lt_infinity.le (by rw [f.value_one, abs_one])
  simp [round, le_antisymm hle hge]

theorem round_zero (z : Bool) : f.round z 0 = ⟨z, 0⟩ := by simp [round, roundMagnitude_zero]

/-- **A sum of a nonnegative and a positive number** is positive, and below any point that the exact
sum is below. -/
theorem add_pos (hx : f.isFinite x = true) (hxsign : x.sign = false ∨ x.magnitude = 0)
    (hy : f.isFinite y = true) (hysign : y.sign = false) (hpos : 0 < y.magnitude) {k : ℕ}
    (hk : f.toRat x + f.toRat y ≤ f.value k) :
    (f.add x y).sign = false ∧ 0 < (f.add x y).magnitude ∧ (f.add x y).magnitude ≤ k := by
  have hyvalue : f.toRat y = f.value y.magnitude := by simp [toRat, hysign]
  have hypos : 0 < f.toRat y := by
    rw [hyvalue, ← f.value_zero]
    exact f.value_strictMono hpos
  have hxnonneg := toRat_nonneg (f := f) hxsign
  have hsum : 0 < f.toRat x + f.toRat y := by linarith
  have habs : |f.toRat x + f.toRat y| = f.toRat x + f.toRat y := abs_of_pos hsum
  rw [add_of_isFinite hx hy]
  refine ⟨by simp [round, hsum.ne', hsum.le], ?_, roundMagnitude_le (habs.le.trans hk)⟩
  refine hpos.trans_le (le_roundMagnitude (of_decide_eq_true hy).le ?_)
  rw [habs, ← hyvalue]
  linarith

/-- A product of two probabilities is one, -/
theorem isUnit_mul (hx : f.IsUnit x) (hy : f.IsUnit y) : f.IsUnit (f.mul x y) := by
  obtain ⟨hx0, hx1⟩ := hx.toRat_mem
  obtain ⟨hy0, hy1⟩ := hy.toRat_mem
  rw [mul_of_isFinite hx.isFinite hy.isFinite]
  exact isUnit_round _ (mul_nonneg hx0 hy0) (mul_le_one₀ hx1 hy0 hy1)

/-- and so is what is missing to one. -/
theorem isUnit_one_sub (hx : f.IsUnit x) : f.IsUnit (f.sub ⟨false, f.one⟩ x) := by
  obtain ⟨hx0, hx1⟩ := hx.toRat_mem
  have hone : f.IsUnit ⟨false, f.one⟩ := ⟨le_refl _, Or.inl rfl⟩
  rw [sub_of_isFinite hone.isFinite hx.isFinite,
    show f.toRat ⟨false, f.one⟩ = 1 from f.value_one]
  exact isUnit_round _ (sub_nonneg.mpr hx1) (sub_le_self 1 hx0)

/-- **A sum of nonnegative numbers** is one; no infinities cancel. -/
theorem isNonneg_add (hx : f.IsNonneg x) (hy : f.IsNonneg y) : f.IsNonneg (f.add x y) := by
  have hpos : 0 < f.infinity := f.one_pos.trans f.one_lt_infinity
  have hsign : ∀ {z : FloatDatum}, f.IsNonneg z → f.isInfinite z = true → z.sign = false := by
    intro z hz hinfinite
    refine hz.2.resolve_right fun hzero => ?_
    rw [isInfinite, hzero, beq_iff_eq] at hinfinite
    omega
  unfold add
  rw [hx.1, hy.1]
  simp only [Bool.or_self, Bool.false_eq_true, if_false]
  split
  · rename_i hxi
    split
    · rename_i hcancel
      rw [Bool.and_eq_true] at hcancel
      rw [hsign hx hxi, hsign hy hcancel.1] at hcancel
      exact absurd hcancel.2 (by decide)
    · exact hx
  · split
    · exact hy
    · exact isNonneg_round _ (add_nonneg (toRat_nonneg hx.2) (toRat_nonneg hy.2))

/-- A quotient by a finite number other than zero is a number. -/
theorem isNan_div (hx : f.isNan x = false) (hy : f.isFinite y = true) (hne : y.magnitude ≠ 0) :
    f.isNan (f.div x y) = false := by
  obtain ⟨hynan, hyinf⟩ := isNan_of_isFinite hy
  unfold div
  rw [hx, hynan, hyinf]
  simp only [Bool.or_self, Bool.false_eq_true, if_false, beq_iff_eq, hne]
  split
  · exact isNan_eq_false.mpr (le_refl _)
  · exact isNan_round _ _

/-- **Dividing by one or more** does not raise a magnitude. -/
theorem magnitude_div_le (hx : f.isFinite x = true) (hy : f.isFinite y = true)
    (hone : f.one ≤ y.magnitude) : (f.div x y).magnitude ≤ x.magnitude := by
  have hden : 1 ≤ |f.toRat y| := by
    rw [abs_toRat, ← f.value_one]
    exact f.value_strictMono.monotone hone
  rw [div_of_isFinite hx hy (f.one_pos.trans_le hone).ne']
  refine roundMagnitude_le ?_
  rw [abs_div, ← abs_toRat]
  exact div_le_self (abs_nonneg _) hden

theorem isNonneg_div (hx : f.isFinite x = true) (hy : f.isFinite y = true)
    (hne : y.magnitude ≠ 0) (hxsign : x.sign = false ∨ x.magnitude = 0)
    (hysign : y.sign = false ∨ y.magnitude = 0) : f.IsNonneg (f.div x y) := by
  rw [div_of_isFinite hx hy hne]
  exact isNonneg_round _ (div_nonneg (toRat_nonneg hxsign) (toRat_nonneg hysign))

end Facts

end FloatFormat

end FacLpr

import FacLpr.Foundations.Binary
import FacLpr.Foundations.FloatFormat
import FacLpr.Foundations.Scalar

/-!
# Foundations/BinaryScalar — `float` and `double` as scalars

The arithmetic of a `Scalar` on the bit patterns of a format, rounding included.  The comparison
laws hold of it, so what is stated over a `LawfulScalar` holds of the machine's numbers.
-/

namespace FacLpr

open FloatFormat

/-- A type whose values are the data of a format. -/
class FloatEncoding (B : Type) where
  format : FloatFormat
  datum : B → FloatDatum
  ofDatum : FloatDatum → B
  datum_ofDatum (x : FloatDatum) : x.magnitude < 2 ^ format.bits → datum (ofDatum x) = x

section

variable {B : Type} [FloatEncoding B]

open FloatEncoding

instance : Scalar B where
  add a b := ofDatum ((format B).add (datum a) (datum b))
  sub a b := ofDatum ((format B).sub (datum a) (datum b))
  mul a b := ofDatum ((format B).mul (datum a) (datum b))
  div a b := ofDatum ((format B).div (datum a) (datum b))
  zero := ofDatum ⟨false, 0⟩
  one := ofDatum ⟨false, (format B).one⟩
  lt a b := (format B).lt (datum a) (datum b) = true
  le a b := (format B).le (datum a) (datum b) = true
  beq a b := (format B).beq (datum a) (datum b)
  isFinite a := (format B).isFinite (datum a)
  ofRat q := ofDatum ((format B).round false q)
  decLt _ _ := inferInstanceAs (Decidable (_ = true))
  decLe _ _ := inferInstanceAs (Decidable (_ = true))

theorem datum_ofDatum_of_le {x : FloatDatum} (h : x.magnitude ≤ (format B).infinity) :
    datum (ofDatum x : B) = x :=
  datum_ofDatum x (h.trans_lt (format B).infinity_lt)

@[simp] theorem datum_zero : datum (0 : B) = ⟨false, 0⟩ := datum_ofDatum_of_le (Nat.zero_le _)

@[simp] theorem datum_one : datum (1 : B) = ⟨false, (format B).one⟩ :=
  datum_ofDatum_of_le (format B).one_lt_infinity.le

/-- Numbers are compared by their keys. -/
theorem lt_iff_key {a b : B} : a < b ↔ (format B).isNan (datum a) = false ∧
    (format B).isNan (datum b) = false ∧ key (datum a) < key (datum b) := by
  change (format B).lt (datum a) (datum b) = true ↔ _
  simp [FloatFormat.lt, and_assoc]

theorem key_zero : key (datum (0 : B)) = 0 := by simp [key]

theorem key_one : key (datum (1 : B)) = (format B).one := by simp [key]

theorem isNan_zero : (format B).isNan (datum (0 : B)) = false := by simp [isNan]

theorem isNan_one : (format B).isNan (datum (1 : B)) = false := by
  rw [datum_one]
  exact isNan_eq_false.mpr (format B).one_lt_infinity.le

/-- **The comparison laws.** -/
instance : UnitScalar B where
  lt_irrefl a h := lt_irrefl _ (lt_iff_key.mp h).2.2
  lt_trans h h' := by
    obtain ⟨ha, -, hab⟩ := lt_iff_key.mp h
    obtain ⟨-, hc, hbc⟩ := lt_iff_key.mp h'
    exact lt_iff_key.mpr ⟨ha, hc, hab.trans hbc⟩
  zero_lt_one := by
    refine lt_iff_key.mpr ⟨isNan_zero, isNan_one, ?_⟩
    rw [key_zero, key_one]
    exact_mod_cast (format B).one_pos
  lt_of_not_lt ha hb hnot h := by
    obtain ⟨-, hc, hbc⟩ := lt_iff_key.mp h
    have hanan := (isNan_of_isFinite ha).1
    refine lt_iff_key.mpr ⟨hanan, hc, lt_of_le_of_lt (not_lt.mp fun hlt => hnot ?_) hbc⟩
    exact lt_iff_key.mpr ⟨(isNan_of_isFinite hb).1, hanan, hlt⟩
  isFinite_zero := by
    change (format B).isFinite (datum (0 : B)) = true
    rw [datum_zero]
    exact decide_eq_true ((format B).one_pos.trans (format B).one_lt_infinity)
  isFinite_one := by
    change (format B).isFinite (datum (1 : B)) = true
    rw [datum_one]
    exact decide_eq_true (format B).one_lt_infinity

/-! ## The unit interval -/

theorem isFinite_eq (a : B) : Scalar.isFinite a = (format B).isFinite (datum a) := rfl

theorem key_nonneg {x : FloatDatum} : 0 ≤ key x ↔ x.sign = false ∨ x.magnitude = 0 := by
  unfold key
  cases x.sign <;> simp

theorem key_le_natCast {x : FloatDatum} {k : ℕ} (h : 0 ≤ key x) :
    key x ≤ k ↔ x.magnitude ≤ k := by
  unfold key at h ⊢
  split at h
  · rename_i hsign
    rw [if_pos hsign]
    omega
  · rename_i hsign
    rw [if_neg hsign]
    exact Nat.cast_le

/-- The finite data of a format are ordered by their keys. -/
instance : OrderedScalar B where
  exists_key := by
    refine ⟨fun a => key (datum a), fun {a b} ha hb => ?_, fun {a b} ha hb => ?_,
      fun {a b} ha hb => ?_⟩
    all_goals
      have hanan := (isNan_of_isFinite ha).1
      have hbnan := (isNan_of_isFinite hb).1
    · rw [lt_iff_key, Int.cast_lt]
      exact and_iff_right hanan |>.trans (and_iff_right hbnan)
    · change (format B).le (datum a) (datum b) = true ↔ _
      simp [FloatFormat.le, hanan, hbnan]
    · change (format B).beq (datum a) (datum b) = true ↔ _
      simp [FloatFormat.beq, hanan, hbnan]
  isFinite_of_mem {a} h h' := by
    have hle : ∀ {x y : B}, x ≤ y → (format B).isNan (datum x) = false ∧
        (format B).isNan (datum y) = false ∧ key (datum x) ≤ key (datum y) := by
      intro x y hxy
      change (format B).le (datum x) (datum y) = true at hxy
      simpa [FloatFormat.le, and_assoc] using hxy
    have hlow := (hle h).2.2
    have hhigh := (hle h').2.2
    rw [key_zero] at hlow
    rw [key_one, key_le_natCast hlow] at hhigh
    exact decide_eq_true (hhigh.trans_lt (format B).one_lt_infinity)

/-- **A probability** is a datum of the unit interval. -/
theorem isProbability_iff {a : B} :
    Scalar.isProbability a = true ↔ (format B).IsUnit (datum a) := by
  simp only [Scalar.isProbability, Bool.and_eq_true, Bool.not_eq_true', decide_eq_false_iff_not,
    lt_iff_key, isNan_zero, isNan_one, key_zero, key_one, true_and, isFinite_eq]
  constructor
  · rintro ⟨⟨hfinite, hzero⟩, hone⟩
    have hnan := (isNan_of_isFinite hfinite).1
    have hnonneg : 0 ≤ key (datum a) := not_lt.mp fun h => hzero ⟨hnan, h⟩
    exact ⟨(key_le_natCast hnonneg).mp (not_lt.mp fun h => hone ⟨hnan, h⟩), key_nonneg.mp hnonneg⟩
  · intro h
    have hnonneg : 0 ≤ key (datum a) := key_nonneg.mpr h.2
    exact ⟨⟨h.isFinite, fun hlt => absurd hlt.2 (not_lt.mpr hnonneg)⟩,
      fun hlt => absurd hlt.2 (not_lt.mpr ((key_le_natCast hnonneg).mpr h.1))⟩

/-- A value between zero and one is a probability. -/
theorem isProbability_of_mem {a : B} (h0 : 0 < a) (h1 : a ≤ 1) : Scalar.isProbability a = true := by
  have hle : (format B).le (datum a) (datum (1 : B)) = true := h1
  simp only [FloatFormat.le, Bool.and_eq_true, Bool.not_eq_true', decide_eq_true_eq, key_one] at hle
  have hpos := (lt_iff_key.mp h0).2.2
  rw [key_zero] at hpos
  exact isProbability_iff.mpr ⟨(key_le_natCast hpos.le).mp hle.2, key_nonneg.mp hpos.le⟩

/-- The value is a number, possibly infinite. -/
def IsNumber (a : B) : Prop := (format B).isNan (datum a) = false

theorem isNumber_of_isFinite {a : B} (h : Scalar.isFinite a = true) : IsNumber a :=
  (isNan_of_isFinite h).1

theorem isProbability_zero : Scalar.isProbability (0 : B) = true :=
  isProbability_iff.mpr (by rw [datum_zero]; exact ⟨Nat.zero_le _, Or.inl rfl⟩)

theorem isProbability_one : Scalar.isProbability (1 : B) = true :=
  isProbability_iff.mpr (by rw [datum_one]; exact ⟨le_refl _, Or.inl rfl⟩)

/-- **Clamping a number** gives a probability. -/
theorem isProbability_clamp01 {a : B} (h : IsNumber a) :
    Scalar.isProbability (Scalar.clamp01 a) = true := by
  unfold Scalar.clamp01 Scalar.clamp
  split
  · exact isProbability_zero
  · rename_i hzero
    split
    · exact isProbability_one
    · rename_i hone
      have hnonneg : 0 ≤ key (datum a) := not_lt.mp fun hlt =>
        hzero (lt_iff_key.mpr ⟨h, isNan_zero, by rwa [key_zero]⟩)
      have hle : key (datum a) ≤ ((format B).one : ℤ) := not_lt.mp fun hlt =>
        hone (lt_iff_key.mpr ⟨isNan_one, h, by rwa [key_one]⟩)
      exact isProbability_iff.mpr ⟨(key_le_natCast hnonneg).mp hle, key_nonneg.mp hnonneg⟩

/-! ## Operations -/

/-- A rounded datum is encoded without loss. -/
theorem datum_ofDatum_round (z : Bool) (q : ℚ) :
    datum (ofDatum ((format B).round z q) : B) = (format B).round z q :=
  datum_ofDatum_of_le (roundMagnitude_le_infinity q)

/-- A difference of finite values is a number. -/
theorem isNumber_sub {a b : B} (ha : Scalar.isFinite a = true) (hb : Scalar.isFinite b = true) :
    IsNumber (a - b) := by
  change (format B).isNan (datum (ofDatum ((format B).sub (datum a) (datum b)) : B)) = false
  rw [sub_of_isFinite ha hb, datum_ofDatum_round]
  exact isNan_round _ _

/-- Probabilities are closed under products -/
theorem isProbability_mul {a b : B} (ha : Scalar.isProbability a = true)
    (hb : Scalar.isProbability b = true) : Scalar.isProbability (a * b) = true := by
  have hunit := isUnit_mul (isProbability_iff.mp ha) (isProbability_iff.mp hb)
  refine isProbability_iff.mpr ?_
  change (format B).IsUnit (datum (ofDatum ((format B).mul (datum a) (datum b)) : B))
  rwa [datum_ofDatum_of_le (hunit.1.trans (format B).one_lt_infinity.le)]

instance : ProbabilityScalar B where
  isProbability_mul := isProbability_mul

/-- and complements. -/
theorem isProbability_one_sub {a : B} (ha : Scalar.isProbability a = true) :
    Scalar.isProbability (1 - a) = true := by
  have hunit := isUnit_one_sub (isProbability_iff.mp ha)
  refine isProbability_iff.mpr ?_
  change (format B).IsUnit (datum (ofDatum ((format B).sub (datum (1 : B)) (datum a)) : B))
  rwa [datum_one, datum_ofDatum_of_le (hunit.1.trans (format B).one_lt_infinity.le)]

/-- The value is a number, possibly infinite, and not negative. -/
def IsNonnegNumber (a : B) : Prop := (format B).IsNonneg (datum a)

theorem isNonnegNumber_of_isProbability {a : B} (ha : Scalar.isProbability a = true) :
    IsNonnegNumber a :=
  have hunit := isProbability_iff.mp ha
  ⟨(isNan_of_isFinite hunit.isFinite).1, hunit.2⟩

/-- Sums of numbers that are not negative are not either. -/
theorem isNonnegNumber_add {a b : B} (ha : IsNonnegNumber a) (hb : IsNonnegNumber b) :
    IsNonnegNumber (a + b) := by
  have hsum := isNonneg_add ha hb
  change (format B).IsNonneg (datum (ofDatum ((format B).add (datum a) (datum b)) : B))
  rwa [datum_ofDatum_of_le (isNan_eq_false.mp hsum.1)]

/-- A quotient by a positive finite value is a number. -/
theorem isNumber_div {a b : B} (ha : IsNumber a) (hb : Scalar.isFinite b = true)
    (hpos : ¬ b ≤ 0) : IsNumber (a / b) := by
  have hne : (datum b).magnitude ≠ 0 := by
    intro hzero
    refine hpos ?_
    change (format B).le (datum b) (datum (0 : B)) = true
    have hkey : key (datum b) = 0 := by simp [key, hzero]
    rw [FloatFormat.le, isNan_zero, (isNan_of_isFinite hb).1, hkey, key_zero]
    rfl
  have hnan := isNan_div ha hb hne
  change (format B).isNan (datum (ofDatum ((format B).div (datum a) (datum b)) : B)) = false
  rwa [datum_ofDatum_of_le (isNan_eq_false.mp hnan)]

end

/-! ## Shares of a sum -/

section Share

variable {B : Type} [FloatEncoding B]

open FloatEncoding

/-- A positive value has a positive pattern. -/
theorem pos_iff_datum {a : B} (ha : Scalar.isFinite a = true) :
    0 < a ↔ (datum a).sign = false ∧ 0 < (datum a).magnitude := by
  rw [lt_iff_key, key_zero]
  have hnan := (isNan_of_isFinite ha).1
  simp only [isNan_zero, hnan, true_and, key]
  cases (datum a).sign <;> simp

/-- A finite sum of at most `n`, and not negative. -/
structure BoundedSum (n : ℕ) (a : B) : Prop where
  isFinite : Scalar.isFinite a = true
  nonneg : (datum a).sign = false ∨ (datum a).magnitude = 0
  toRat_le : (format B).toRat (datum a) ≤ n

theorem boundedSum_zero : BoundedSum 0 (0 : B) where
  isFinite := UnitScalar.isFinite_zero
  nonneg := Or.inr (by rw [datum_zero])
  toRat_le := by
    rw [datum_zero, Nat.cast_zero]
    exact (format B).value_zero.le

/-- One more share, in a format that holds the next count. -/
theorem BoundedSum.add {n k : ℕ} {a x : B} (h : BoundedSum n a) (hx : 0 < x ∧ x ≤ 1)
    (hk : k < (format B).infinity) (hvalue : (format B).value k = (n + 1 : ℕ)) :
    BoundedSum (n + 1) (a + x) ∧ 0 < a + x := by
  have hunit := isProbability_iff.mp (isProbability_of_mem hx.1 hx.2)
  obtain ⟨hxsign, hxpos⟩ := (pos_iff_datum hunit.isFinite).mp hx.1
  have hbound : (format B).toRat (datum a) + (format B).toRat (datum x) ≤ (format B).value k := by
    rw [hvalue]
    push_cast
    exact add_le_add h.toRat_le hunit.toRat_mem.2
  obtain ⟨hsign, hpos, hle⟩ := add_pos h.isFinite h.nonneg hunit.isFinite hxsign hxpos hbound
  have hdatum : datum (a + x) = (format B).add (datum a) (datum x) :=
    datum_ofDatum_of_le (hle.trans hk.le)
  have hfinite : Scalar.isFinite (a + x) = true := by
    rw [isFinite_eq, hdatum]
    exact decide_eq_true (hle.trans_lt hk)
  rw [← hdatum] at hsign hpos hle
  refine ⟨⟨hfinite, Or.inl hsign, ?_⟩, (pos_iff_datum hfinite).mpr ⟨hsign, hpos⟩⟩
  rw [FloatFormat.toRat, if_neg (by simp [hsign]), ← hvalue]
  exact (format B).value_strictMono.monotone hle

/-- **A sum of shares**, in a format that holds the counts up to `m`. -/
theorem boundedSum_foldl {m : ℕ}
    (hcounts : ∀ n ≤ m, ∃ k < (format B).infinity, (format B).value k = (n : ℕ)) (l : List B)
    (hlength : l.length ≤ m) (h : ∀ x ∈ l, 0 < x ∧ x ≤ 1) :
    BoundedSum l.length (l.foldl (· + ·) 0) ∧ (l ≠ [] → 0 < l.foldl (· + ·) 0) := by
  induction l using List.reverseRecOn with
  | nil => exact ⟨boundedSum_zero, fun h => absurd rfl h⟩
  | append_singleton l x ih =>
    rw [List.length_append, List.length_singleton] at hlength ⊢
    obtain ⟨hsum, -⟩ := ih (by omega) fun y hy => h y (List.mem_append_left _ hy)
    obtain ⟨k, hk, hvalue⟩ := hcounts (l.length + 1) hlength
    obtain ⟨hadd, hpos⟩ := hsum.add (h x (List.mem_append_right _ (List.mem_singleton_self x))) hk
      hvalue
    rw [List.foldl_append]
    exact ⟨hadd, fun _ => hpos⟩

/-- **Sums and shares in a format** that holds the counts up to `1024`. -/
theorem shareScalar_of_counts
    (hcounts : ∀ n ≤ 1024, ∃ k < (format B).infinity, (format B).value k = (n : ℕ)) :
    ShareScalar B where
  sum_pos l hne hlength h := by
    obtain ⟨hsum, hpos⟩ := boundedSum_foldl hcounts l hlength h
    exact ⟨hsum.isFinite, hpos hne⟩
  div_self {a} ha hpos := by
    obtain ⟨hsign, hmagnitude⟩ := (pos_iff_datum ha).mp hpos
    have hne : (format B).toRat (datum a) ≠ 0 := by
      rw [FloatFormat.toRat, if_neg (by simp [hsign]), ← (format B).value_zero]
      exact ((format B).value_strictMono hmagnitude).ne'
    change ofDatum ((format B).div (datum a) (datum a)) = ofDatum ⟨false, (format B).one⟩
    rw [div_of_isFinite ha ha hmagnitude.ne', div_self hne, round_one]
  zero_div {a} ha hpos := by
    obtain ⟨hsign, hmagnitude⟩ := (pos_iff_datum ha).mp hpos
    have hzero : Scalar.isFinite (0 : B) = true := UnitScalar.isFinite_zero
    change ofDatum ((format B).div (datum (0 : B)) (datum a)) = ofDatum ⟨false, 0⟩
    rw [div_of_isFinite hzero ha hmagnitude.ne', datum_zero, hsign,
      show (format B).toRat ⟨false, 0⟩ = 0 from (format B).value_zero, zero_div, round_zero]
    rfl
  one_sub_zero := by
    have hone : Scalar.isFinite (1 : B) = true := UnitScalar.isFinite_one
    have hzero : Scalar.isFinite (0 : B) = true := UnitScalar.isFinite_zero
    change ofDatum ((format B).sub (datum (1 : B)) (datum (0 : B))) =
      ofDatum ⟨false, (format B).one⟩
    rw [sub_of_isFinite hone hzero, datum_one, datum_zero,
      show (format B).toRat ⟨false, 0⟩ = 0 from (format B).value_zero,
      show (format B).toRat ⟨false, (format B).one⟩ = 1 from (format B).value_one, sub_zero,
      round_one]

end Share

/-! ## The two formats -/

/-- IEEE single precision. -/
def binary32 : FloatFormat := ⟨23, 8, by decide⟩

/-- IEEE double precision. -/
def binary64 : FloatFormat := ⟨52, 11, by decide⟩

instance : FloatEncoding Binary32 where
  format := binary32
  datum v := ⟨v.sign, v.magnitude⟩
  ofDatum x := ⟨UInt32.ofNat ((if x.sign then 2 ^ 31 else 0) + x.magnitude)⟩
  datum_ofDatum x h := by
    obtain ⟨sign, magnitude⟩ := x
    have hlt : magnitude < 2 ^ 31 := h
    cases sign <;> simp [Binary32.sign, Binary32.magnitude] <;> omega

instance : FloatEncoding Binary64 where
  format := binary64
  datum v := ⟨v.sign, v.magnitude⟩
  ofDatum x := ⟨UInt64.ofNat ((if x.sign then 2 ^ 63 else 0) + x.magnitude)⟩
  datum_ofDatum x h := by
    obtain ⟨sign, magnitude⟩ := x
    have hlt : magnitude < 2 ^ 63 := h
    cases sign <;> simp [Binary64.sign, Binary64.magnitude] <;> omega

/-- The pattern of a count as a `float`. -/
def Binary32.ofCount (n : ℕ) : ℕ :=
  if n = 0 then 0
  else (127 + Nat.log2 n) * 2 ^ 23 + (n - 2 ^ Nat.log2 n) * 2 ^ (23 - Nat.log2 n)

instance : ShareScalar Binary32 := by
  have hcounts : ∀ n < 1025, Binary32.ofCount n < binary32.infinity ∧
      binary32.units (Binary32.ofCount n) = n * binary32.scale := by decide +kernel
  refine shareScalar_of_counts fun n hn => ⟨Binary32.ofCount n, ?_⟩
  obtain ⟨hlt, hunits⟩ := hcounts n (Nat.lt_succ_of_le hn)
  have hscale : (binary32.scale : ℚ) ≠ 0 := Nat.cast_ne_zero.mpr binary32.scale_pos.ne'
  refine ⟨hlt, ?_⟩
  change binary32.value _ = _
  rw [FloatFormat.value, hunits, Nat.cast_mul, mul_div_assoc, div_self hscale, mul_one]

/-! ## Counts -/

/-- The pattern of `2 ^ 64`, as a `double`. -/
def Binary64.twoPow64 : ℕ := 0x43F0000000000000

/-- The encoding of 2^64. -/
theorem value_twoPow64 : binary64.value Binary64.twoPow64 = 2 ^ 64 := by
  have hunits : binary64.units Binary64.twoPow64 = 2 ^ 64 * binary64.scale := by decide +kernel
  have hscale : (binary64.scale : ℚ) ≠ 0 := Nat.cast_ne_zero.mpr binary64.scale_pos.ne'
  rw [FloatFormat.value, hunits, Nat.cast_mul, mul_div_assoc, div_self hscale]
  norm_num

/-- A 64-bit count as a `double`. -/
theorem datum_ofRat (q : ℚ) :
    FloatEncoding.datum (Scalar.ofRat q : Binary64) = binary64.round false q :=
  datum_ofDatum_round false q

/-- **A quotient of a count by a number from one on** does not pass `2 ^ 64`. -/
theorem magnitude_count_div_le {q r : ℚ} (hq : |q| ≤ 2 ^ 64) (hr : 1 ≤ r) (hr' : r ≤ 2 ^ 64) :
    (Scalar.ofRat q / Scalar.ofRat r : Binary64).magnitude ≤ Binary64.twoPow64 ∧
      (0 ≤ q → (Scalar.ofRat q / Scalar.ofRat r : Binary64).isNegative = false) := by
  have hlarge : Binary64.twoPow64 < binary64.infinity := by decide +kernel
  have hrabs : |r| = r := abs_of_nonneg (zero_le_one.trans hr)
  set x := binary64.round false q with hx
  set y := binary64.round false r with hy
  have hxle : x.magnitude ≤ Binary64.twoPow64 := roundMagnitude_le (by rwa [value_twoPow64])
  have hyle : y.magnitude ≤ Binary64.twoPow64 := roundMagnitude_le (by rwa [value_twoPow64, hrabs])
  have hyone : binary64.one ≤ y.magnitude :=
    le_roundMagnitude binary64.one_lt_infinity.le (by rwa [value_one, hrabs])
  have hxfinite : binary64.isFinite x = true := decide_eq_true (hxle.trans_lt hlarge)
  have hyfinite : binary64.isFinite y = true := decide_eq_true (hyle.trans_lt hlarge)
  have hdiv : (binary64.div x y).magnitude ≤ Binary64.twoPow64 :=
    (magnitude_div_le hxfinite hyfinite hyone).trans hxle
  have hdatum : FloatEncoding.datum (Scalar.ofRat q / Scalar.ofRat r : Binary64) =
      binary64.div x y := by
    change FloatEncoding.datum (FloatEncoding.ofDatum (binary64.div
      (FloatEncoding.datum (Scalar.ofRat q : Binary64))
      (FloatEncoding.datum (Scalar.ofRat r : Binary64))) : Binary64) = _
    rw [datum_ofRat, datum_ofRat]
    exact datum_ofDatum_of_le (hdiv.trans hlarge.le)
  constructor
  · change (FloatEncoding.datum (Scalar.ofRat q / Scalar.ofRat r : Binary64)).magnitude ≤ _
    rwa [hdatum]
  · intro hnonneg
    have hsign := (isNonneg_div hxfinite hyfinite (binary64.one_pos.trans_le hyone).ne'
      (round_sign false hnonneg) (round_sign false (zero_le_one.trans hr))).2
    rw [← hdatum] at hsign
    exact Binary64.isNegative_eq_false.mpr hsign

end FacLpr

import FacLpr.Foundations.BinaryScalar
import FacLpr.Foundations.ExactFloat
import Mathlib.Data.Nat.Log
import Mathlib.Data.Rat.Floor

/-!
# Foundations/PixelArithmetic — conversions between scores, coordinates and sizes

The conversions the image code makes, over any two scalars, in exact arithmetic and of the machine.
`LawfulImageArithmetic` says what sampling a grid by a scaled coordinate needs of them: the
coordinate is finite, and clamped to an index it does not pass it.  `LawfulTileArithmetic` says
that a part of a size, below a half, is smaller than the size; `LawfulBoundArithmetic` says that
what is clamped between two sizes is a size between them.
-/

namespace FacLpr

/-- The conversions between scores, coordinates and sizes. -/
class PixelArithmetic (F D : Type) where
  /-- `static_cast<std::size_t>(std::floor(v))`. -/
  floor : F → ℕ
  /-- `static_cast<std::size_t>(std::ceil(v))`. -/
  ceil : F → ℕ
  floorWide : D → ℕ
  widen : F → D
  narrow : D → F

instance : PixelArithmetic ℚ ℚ where
  floor q := ⌊q⌋.toNat
  ceil q := ⌈q⌉.toNat
  floorWide q := ⌊q⌋.toNat
  widen q := q
  narrow q := q

/-- Exact arithmetic; the conversions to sizes of a finite value. -/
instance : PixelArithmetic ExactFloat ExactFloat where
  floor v := ⌊v.toRat⌋.toNat
  ceil v := ⌈v.toRat⌉.toNat
  floorWide v := ⌊v.toRat⌋.toNat
  widen v := v
  narrow v := v

/-- The conversions of the machine; those to sizes of a finite value. -/
instance : PixelArithmetic Binary32 Binary64 where
  floor v := ⌊binary32.toRat (FloatEncoding.datum v)⌋.toNat
  ceil v := ⌈binary32.toRat (FloatEncoding.datum v)⌉.toNat
  floorWide v := ⌊binary64.toRat (FloatEncoding.datum v)⌋.toNat
  widen v :=
    if v.isFinite then
      FloatEncoding.ofDatum (binary64.round v.sign (binary32.toRat (FloatEncoding.datum v)))
    else if v.magnitude = Binary32.infinity then FloatEncoding.ofDatum ⟨v.sign, Binary64.infinity⟩
    else FloatEncoding.ofDatum binary64.nan
  narrow v := v.narrow

/-- What the pixel loops use beyond the conversions. -/
class ImageArithmetic (F D : Type) extends PixelArithmetic F D where
  /-- `std::abs`. -/
  absolute : F → F
  /-- `static_cast<std::size_t>(std::llround(v))`, of a value that is not negative. -/
  roundWide : D → ℕ

instance : ImageArithmetic ℚ ℚ where
  absolute q := |q|
  roundWide q := ⌊q + 1 / 2⌋.toNat

instance : ImageArithmetic Binary32 Binary64 where
  absolute v := FloatEncoding.ofDatum ⟨false, v.magnitude⟩
  roundWide v := ⌊binary64.toRat (FloatEncoding.datum v) + 1 / 2⌋.toNat

/-- Where the sample `i` of a grid lies in one that is `scale` times as fine. -/
def sourceCoordinate {D : Type} [Scalar D] (i : ℕ) (scale : D) : D :=
  (Scalar.ofRat i + Scalar.ofRat (1 / 2)) * scale - Scalar.ofRat (1 / 2)

class LawfulImageArithmetic (F D : Type) [Scalar D] [PixelArithmetic F D] : Prop where
  /-- The coordinates of a 64-bit grid are finite. -/
  isFinite_sourceCoordinate {i n m : ℕ} : i < 2 ^ 64 → n < 2 ^ 64 → 0 < m → m < 2 ^ 64 →
    Scalar.isFinite (sourceCoordinate i (Scalar.ofRat n / Scalar.ofRat m : D)) = true
  /-- An index without rounding bounds the cell of what is clamped to it. -/
  floorWide_clamp_le {x : D} {n : ℕ} : Scalar.isFinite x = true → n < 2 ^ 53 →
    PixelArithmetic.floorWide F (Scalar.clamp x 0 (Scalar.ofRat n)) ≤ n

instance : LawfulImageArithmetic ℚ ℚ where
  isFinite_sourceCoordinate _ _ _ _ := rfl
  floorWide_clamp_le {x n} _ _ := by
    have hclamp : Scalar.clamp x 0 (n : ℚ) ≤ n := by
      unfold Scalar.clamp
      split
      · exact Nat.cast_nonneg n
      · split
        · exact le_refl _
        · exact not_lt.mp ‹_›
    exact Int.toNat_le.mpr (Int.floor_le_iff.mpr (hclamp.trans_lt (by push_cast; linarith)))

/-- What cutting a part below a half off a size needs of the conversions. -/
class LawfulTileArithmetic (F D : Type) [Scalar F] [Scalar D] [PixelArithmetic F D] : Prop where
  /-- A part below a half of a size is smaller than the size. -/
  floorWide_mul_lt {n : ℕ} {r : F} : 0 < n → n < 2 ^ 64 → Scalar.isFinite r = true → ¬ r < 0 →
    ¬ (Scalar.ofRat (50 / 100) : F) ≤ r →
      PixelArithmetic.floorWide F ((Scalar.ofRat n : D) * PixelArithmetic.widen r) < n

instance : LawfulTileArithmetic ℚ ℚ where
  floorWide_mul_lt {n r} hpos _ _ _ hhalf := by
    have hr : r < 50 / 100 := not_le.mp hhalf
    have hn : (0 : ℚ) < n := by exact_mod_cast hpos
    refine (Int.toNat_lt' hpos).mpr (Int.floor_lt.mpr ?_)
    change (n : ℚ) * r < ((n : ℕ) : ℤ)
    push_cast
    nlinarith

/-- What bounding a measure by two sizes needs of the conversions. -/
class LawfulBoundArithmetic (F D : Type) [Scalar D] [PixelArithmetic F D] : Prop where
  /-- What is clamped between two sizes is a size between them. -/
  floorWide_clamp_mem {q : ℚ} {m n : ℕ} : m ≤ n → n < 2 ^ 53 →
    m ≤ PixelArithmetic.floorWide F
        (Scalar.clamp (Scalar.ofRat q : D) (Scalar.ofRat m) (Scalar.ofRat n)) ∧
      PixelArithmetic.floorWide F
        (Scalar.clamp (Scalar.ofRat q : D) (Scalar.ofRat m) (Scalar.ofRat n)) ≤ n

theorem clamp_mem_Icc {q a b : ℚ} (h : a ≤ b) :
    a ≤ Scalar.clamp q a b ∧ Scalar.clamp q a b ≤ b := by
  unfold Scalar.clamp
  split
  · exact ⟨le_rfl, h⟩
  · split
    · exact ⟨h, le_rfl⟩
    · exact ⟨not_lt.mp ‹_›, not_lt.mp ‹_›⟩

/-- The floor of a value between two counts is between them. -/
theorem toNat_floor_mem {q : ℚ} {m n : ℕ} (h : (m : ℚ) ≤ q ∧ q ≤ n) :
    m ≤ ⌊q⌋.toNat ∧ ⌊q⌋.toNat ≤ n := by
  obtain ⟨hlow, hhigh⟩ := h
  constructor
  · have hfloor : (m : ℤ) ≤ ⌊q⌋ := Int.le_floor.mpr (by exact_mod_cast hlow)
    omega
  · exact Int.toNat_le.mpr (Int.floor_le_iff.mpr (hhigh.trans_lt (by push_cast; linarith)))

instance : LawfulBoundArithmetic ℚ ℚ where
  floorWide_clamp_mem h _ := toNat_floor_mem (clamp_mem_Icc (Nat.cast_le.mpr h))

/-! ## The machine -/

open FloatFormat FloatEncoding

namespace Binary64

/-- The least subnormal is `2 ^ -(52 + lowExponent)`. -/
def lowExponent : ℕ := 1022

theorem scale_binary64 : binary64.scale = 2 ^ (52 + lowExponent) :=
  congrArg (2 ^ ·) (by decide)

/-- A magnitude with an exponent field `e + 1` and a mantissa field `r`. -/
theorem value_field (e : ℕ) {r : ℕ} (hr : r < 2 ^ 52) :
    binary64.value ((e + 1) * 2 ^ 52 + r) = (2 ^ 52 + r : ℕ) * 2 ^ e / 2 ^ (52 + lowExponent) := by
  have hdiv : ((e + 1) * 2 ^ 52 + r) / 2 ^ 52 = e + 1 := by omega
  have hmod : ((e + 1) * 2 ^ 52 + r) % 2 ^ 52 = r := by omega
  have hunits : binary64.units ((e + 1) * 2 ^ 52 + r) = (2 ^ 52 + r) * 2 ^ e := by
    change (if ((e + 1) * 2 ^ 52 + r) / 2 ^ 52 = 0 then _ else
      (2 ^ 52 + ((e + 1) * 2 ^ 52 + r) % 2 ^ 52) * 2 ^ (((e + 1) * 2 ^ 52 + r) / 2 ^ 52 - 1)) = _
    rw [hdiv, hmod, if_neg (Nat.succ_ne_zero e), Nat.add_sub_cancel]
  rw [value, hunits, scale_binary64]
  push_cast
  rfl

/-- **An integer below `2 ^ 53` is a `double`.** -/
theorem exists_value_eq {n : ℕ} (h : n < 2 ^ 53) : ∃ k, binary64.value k = n := by
  rcases Nat.eq_zero_or_pos n with rfl | hpos
  · exact ⟨0, by rw [value_zero, Nat.cast_zero]⟩
  -- the leading bit of `n` is bit `j`, and moves to bit 52
  obtain ⟨j, hj⟩ : ∃ j, j = Nat.log 2 n := ⟨_, rfl⟩
  have hlow : 2 ^ j ≤ n := hj ▸ Nat.pow_log_le_self 2 hpos.ne'
  have hhigh : n < 2 ^ (j + 1) := hj ▸ Nat.lt_pow_succ_log_self one_lt_two n
  have hj52 : j ≤ 52 :=
    Nat.lt_succ_iff.mp ((Nat.pow_lt_pow_iff_right one_lt_two).mp (hlow.trans_lt h))
  obtain ⟨d, hd⟩ := Nat.exists_eq_add_of_le hj52
  have hfirst : 2 ^ 52 ≤ n * 2 ^ d := by
    calc 2 ^ 52 = 2 ^ j * 2 ^ d := by rw [← pow_add, ← hd]
      _ ≤ n * 2 ^ d := Nat.mul_le_mul_right _ hlow
  have hlast : n * 2 ^ d < 2 * 2 ^ 52 := by
    calc n * 2 ^ d < 2 ^ (j + 1) * 2 ^ d := Nat.mul_lt_mul_of_pos_right hhigh (by positivity)
      _ = 2 * 2 ^ 52 := by rw [pow_succ', mul_assoc, ← pow_add, ← hd]
  refine ⟨(lowExponent + j + 1) * 2 ^ 52 + (n * 2 ^ d - 2 ^ 52), ?_⟩
  rw [value_field _ (by omega), Nat.add_sub_cancel' hfirst]
  have hpow : (2 : ℚ) ^ d * 2 ^ (lowExponent + j) = 2 ^ (52 + lowExponent) := by
    rw [← pow_add]
    congr 1
    omega
  push_cast
  rw [mul_assoc, hpow, mul_div_assoc, div_self (by positivity), mul_one]

/-- A magnitude with no mantissa is a power of two. -/
theorem value_field_zero (e : ℕ) : binary64.value ((e + 1) * 2 ^ 52) = 2 ^ e / 2 ^ lowExponent := by
  have h := value_field e (r := 0) (by positivity)
  rw [add_zero, add_zero, Nat.cast_pow, Nat.cast_ofNat, pow_add,
    mul_div_mul_left _ _ (by positivity)] at h
  exact h

/-- The pattern of `2 ^ k`. -/
def powPattern (k : ℕ) : ℕ := (lowExponent + k + 1) * 2 ^ 52

theorem value_powPattern (k : ℕ) : binary64.value (powPattern k) = 2 ^ k := by
  rw [powPattern, value_field_zero, pow_add, mul_div_cancel_left₀ _ (by positivity)]

theorem powPattern_lt_infinity {k : ℕ} (h : k < 1024) : powPattern k < binary64.infinity := by
  have hinfinity : binary64.infinity = 2047 * 2 ^ 52 := rfl
  unfold powPattern lowExponent
  omega

theorem magnitude_round_le (z : Bool) {q : ℚ} {k : ℕ} (h : |q| ≤ binary64.value k) :
    (datum (ofDatum (binary64.round z q) : Binary64)).magnitude ≤ k := by
  rw [datum_ofDatum_of_le (roundMagnitude_le_infinity q)]
  exact roundMagnitude_le h

/-- The value is not above `2 ^ k` in size. -/
def Within (k : ℕ) (v : Binary64) : Prop := (datum v).magnitude ≤ powPattern k

section Within

variable {k l : ℕ} {a b : Binary64}

theorem Within.mono (h : Within k a) (hkl : k ≤ l) : Within l a :=
  h.trans (Nat.mul_le_mul_right _ (by omega))

theorem Within.isFinite (h : Within k a) (hk : k < 1024) : binary64.isFinite (datum a) = true :=
  decide_eq_true (h.trans_lt (powPattern_lt_infinity hk))

theorem Within.abs_toRat_le (h : Within k a) : |binary64.toRat (datum a)| ≤ 2 ^ k := by
  rw [abs_toRat, ← value_powPattern k]
  exact binary64.value_strictMono.monotone h

theorem within_round (z : Bool) {q : ℚ} (h : |q| ≤ 2 ^ k) :
    Within k (ofDatum (binary64.round z q)) :=
  magnitude_round_le z (by rwa [value_powPattern])

/-- **The operations on bounded values** stay bounded. -/
theorem Within.add (ha : Within k a) (hb : Within k b) (hk : k < 1024) :
    Within (k + 1) (a + b) := by
  change Within (k + 1) (ofDatum (binary64.add (datum a) (datum b)))
  rw [add_of_isFinite (ha.isFinite hk) (hb.isFinite hk)]
  refine within_round _ ((abs_add_le _ _).trans ?_)
  rw [pow_succ', two_mul]
  exact add_le_add ha.abs_toRat_le hb.abs_toRat_le

theorem Within.sub (ha : Within k a) (hb : Within k b) (hk : k < 1024) :
    Within (k + 1) (a - b) := by
  change Within (k + 1) (ofDatum (binary64.sub (datum a) (datum b)))
  rw [sub_of_isFinite (ha.isFinite hk) (hb.isFinite hk)]
  refine within_round _ ((abs_sub _ _).trans ?_)
  rw [pow_succ', two_mul]
  exact add_le_add ha.abs_toRat_le hb.abs_toRat_le

theorem Within.mul (ha : Within k a) (hb : Within l b) (hk : k < 1024) (hl : l < 1024) :
    Within (k + l) (a * b) := by
  change Within (k + l) (ofDatum (binary64.mul (datum a) (datum b)))
  rw [mul_of_isFinite (ha.isFinite hk) (hb.isFinite hl)]
  refine within_round _ ?_
  rw [abs_mul, pow_add]
  exact mul_le_mul ha.abs_toRat_le hb.abs_toRat_le (abs_nonneg _) (by positivity)

end Within

/-- The coordinates of a 64-bit grid are below `2 ^ 130`. -/
theorem within_sourceCoordinate {i n m : ℕ} (hi : i < 2 ^ 64) (hn : n < 2 ^ 64) (hm : 0 < m)
    (hm' : m < 2 ^ 64) :
    Within 130 (sourceCoordinate i (Scalar.ofRat n / Scalar.ofRat m : Binary64)) := by
  have hcast : ∀ {a : ℕ}, a < 2 ^ 64 → |(a : ℚ)| ≤ 2 ^ 64 := fun {a} ha => by
    rw [Nat.abs_cast]
    exact_mod_cast ha.le
  have hone : (1 : ℚ) ≤ m := by exact_mod_cast hm
  have hindex : Within 64 (Scalar.ofRat i) := within_round _ (hcast hi)
  have hhalf : Within 0 (Scalar.ofRat (1 / 2)) :=
    within_round _ (by rw [abs_of_pos (by norm_num)]; norm_num)
  have hscale : Within 64 (Scalar.ofRat n / Scalar.ofRat m) :=
    (magnitude_count_div_le (hcast hn) hone ((le_abs_self _).trans (hcast hm'))).1
  have hproduct := (hindex.add (hhalf.mono (Nat.zero_le 64)) (by decide)).mul hscale
    (by decide) (by decide)
  exact hproduct.sub (hhalf.mono (Nat.zero_le 129)) (by decide)

theorem toRat_le_of_magnitude_le {x : FloatDatum} {k : ℕ} (h : x.magnitude ≤ k) :
    binary64.toRat x ≤ binary64.value k := by
  refine (le_abs_self _).trans ?_
  rw [abs_toRat]
  exact binary64.value_strictMono.monotone h

/-- **What is clamped to an index** below `2 ^ 53` does not pass it. -/
theorem toRat_clamp_le {x : Binary64} {n : ℕ} (hx : Scalar.isFinite x = true) (hn : n < 2 ^ 53) :
    binary64.toRat (datum (Scalar.clamp x 0 (Scalar.ofRat n))) ≤ n := by
  obtain ⟨k, hk⟩ := exists_value_eq hn
  refine (toRat_le_of_magnitude_le (k := k) ?_).trans hk.le
  have hmax : (datum (Scalar.ofRat (n : ℚ) : Binary64)).magnitude ≤ k := by
    rw [datum_ofRat]
    exact roundMagnitude_le (by rw [hk, Nat.abs_cast])
  have hnan : IsNumber (Scalar.ofRat (n : ℚ) : Binary64) := by
    rw [IsNumber, datum_ofRat]
    exact isNan_round false _
  unfold Scalar.clamp
  split
  · rw [datum_zero]
    exact Nat.zero_le k
  split
  · exact hmax
  · rename_i hnonneg hle
    -- both are numbers, so their keys compare
    have hzero : 0 ≤ key (datum x) := not_lt.mp fun h =>
      hnonneg (lt_iff_key.mpr ⟨isNumber_of_isFinite hx, isNan_zero, by rwa [key_zero]⟩)
    have hkey : key (datum x) ≤ key (datum (Scalar.ofRat (n : ℚ) : Binary64)) :=
      not_lt.mp fun h => hle (lt_iff_key.mpr ⟨hnan, isNumber_of_isFinite hx, h⟩)
    refine (key_le_natCast hzero).mp ?_
    exact hkey.trans ((key_le_natCast (hzero.trans hkey)).mpr hmax)

theorem toRat_of_key_nonneg {x : FloatDatum} (h : 0 ≤ key x) :
    binary64.toRat x = binary64.value x.magnitude := by
  rw [← abs_toRat, abs_of_nonneg (toRat_nonneg (key_nonneg.mp h))]

/-- A count below `2 ^ 53` is its own double. -/
theorem exists_key_ofRat {n : ℕ} (hn : n < 2 ^ 53) : ∃ k : ℕ, binary64.value k = n ∧
    IsNumber (Scalar.ofRat (n : ℚ) : Binary64) ∧
      key (datum (Scalar.ofRat (n : ℚ) : Binary64)) = k := by
  obtain ⟨k, hk⟩ := exists_value_eq hn
  have hinfinity : k ≤ binary64.infinity := by
    have hpow : binary64.value k < binary64.value (powPattern 53) := by
      rw [hk, value_powPattern]
      exact_mod_cast hn
    exact (binary64.value_strictMono.lt_iff_lt.mp hpow).le.trans
      (powPattern_lt_infinity (by decide)).le
  have hdatum := datum_ofRat (n : ℚ)
  have hnumber : IsNumber (Scalar.ofRat (n : ℚ) : Binary64) := by
    rw [IsNumber, hdatum]
    exact isNan_round false _
  have hnonneg : 0 ≤ key (datum (Scalar.ofRat (n : ℚ) : Binary64)) := by
    rw [hdatum]
    exact key_nonneg.mpr (round_sign false (Nat.cast_nonneg n))
  have hmagnitude : (datum (Scalar.ofRat (n : ℚ) : Binary64)).magnitude = k := by
    rw [hdatum]
    exact le_antisymm (roundMagnitude_le (by rw [hk, Nat.abs_cast]))
      (le_roundMagnitude hinfinity (by rw [hk, Nat.abs_cast]))
  refine ⟨k, hk, hnumber, le_antisymm ?_ ?_⟩
  · exact (key_le_natCast hnonneg).mpr hmagnitude.le
  · have hlow := (key_le_natCast hnonneg (k := (key
      (datum (Scalar.ofRat (n : ℚ) : Binary64))).toNat)).mp (Int.self_le_toNat _)
    omega

/-- **What is clamped between two counts** below `2 ^ 53` is between them. -/
theorem toRat_clamp_mem {q : ℚ} {m n : ℕ} (hmn : m ≤ n) (hn : n < 2 ^ 53) :
    (m : ℚ) ≤ binary64.toRat (datum (Scalar.clamp (Scalar.ofRat q : Binary64) (Scalar.ofRat m)
        (Scalar.ofRat n))) ∧
      binary64.toRat (datum (Scalar.clamp (Scalar.ofRat q : Binary64) (Scalar.ofRat m)
        (Scalar.ofRat n))) ≤ n := by
  obtain ⟨j, hj, hlowNumber, hlowKey⟩ := exists_key_ofRat (hmn.trans_lt hn)
  obtain ⟨k, hk, hhighNumber, hhighKey⟩ := exists_key_ofRat hn
  have hnumber : IsNumber (Scalar.ofRat q : Binary64) := by
    rw [IsNumber, datum_ofRat]
    exact isNan_round false _
  have hjk : j ≤ k := binary64.value_strictMono.le_iff_le.mp (by
    rw [hj, hk]
    exact_mod_cast hmn)
  set clamped := Scalar.clamp (Scalar.ofRat q : Binary64) (Scalar.ofRat m) (Scalar.ofRat n)
    with hclamped
  have hkey : (j : ℤ) ≤ key (datum clamped) ∧ key (datum clamped) ≤ k := by
    rw [hclamped]
    unfold Scalar.clamp
    split
    · rw [hlowKey]
      exact ⟨le_rfl, Nat.cast_le.mpr hjk⟩
    split
    · rw [hhighKey]
      exact ⟨Nat.cast_le.mpr hjk, le_rfl⟩
    · rename_i hlow hhigh
      rw [← hlowKey, ← hhighKey]
      exact ⟨not_lt.mp fun h => hlow (lt_iff_key.mpr ⟨hnumber, hlowNumber, h⟩),
        not_lt.mp fun h => hhigh (lt_iff_key.mpr ⟨hhighNumber, hnumber, h⟩)⟩
  have hnonneg : 0 ≤ key (datum clamped) := (Nat.cast_nonneg j).trans hkey.1
  have hhigh := (key_le_natCast hnonneg).mp hkey.2
  have hlow : j ≤ (datum clamped).magnitude := by
    have hself := (key_le_natCast hnonneg (k := (datum clamped).magnitude)).mpr le_rfl
    exact_mod_cast hkey.1.trans hself
  rw [toRat_of_key_nonneg hnonneg, ← hj, ← hk]
  exact ⟨binary64.value_strictMono.monotone hlow, binary64.value_strictMono.monotone hhigh⟩

/-- The pattern of `2 ^ k / 2`. -/
def halfPattern (k : ℕ) : ℕ := (lowExponent + k) * 2 ^ 52

theorem value_halfPattern (k : ℕ) : binary64.value (halfPattern k) = 2 ^ k / 2 := by
  have hpattern : halfPattern k = (lowExponent - 1 + k + 1) * 2 ^ 52 := by
    unfold halfPattern lowExponent
    omega
  have hpow : (2 : ℚ) ^ lowExponent = 2 ^ (lowExponent - 1) * 2 :=
    (pow_sub_one_mul (by decide) 2).symm
  rw [hpattern, value_field_zero, hpow, pow_add, mul_div_mul_left _ _ (by positivity)]

/-- A `float` of zero or more that is not from a half on. -/
theorem abs_toRat_le_half {r : Binary32} (hfinite : Scalar.isFinite r = true) (hnonneg : ¬ r < 0)
    (hhalf : ¬ (Scalar.ofRat (50 / 100) : Binary32) ≤ r) :
    |binary32.toRat (datum r)| ≤ 1 / 2 := by
  have hunits : binary32.units (126 * 2 ^ 23) * 2 = binary32.scale := by decide +kernel
  have hvalue : binary32.value (126 * 2 ^ 23) = 1 / 2 := by
    have hscale : (binary32.scale : ℚ) ≠ 0 := Nat.cast_ne_zero.mpr binary32.scale_pos.ne'
    rw [FloatFormat.value, div_eq_iff hscale, ← hunits]
    push_cast
    ring
  have hnumber : IsNumber r := isNumber_of_isFinite hfinite
  set half := (Scalar.ofRat (50 / 100) : Binary32) with hdef
  have hdatum : datum half = binary32.round false (50 / 100) := datum_ofDatum_round false _
  have hkey0 : 0 ≤ key (datum r) := not_lt.mp fun h =>
    hnonneg (lt_iff_key.mpr ⟨hnumber, isNan_zero, by rwa [key_zero]⟩)
  have hhalf0 : 0 ≤ key (datum half) := by
    rw [hdatum]
    exact key_nonneg.mpr (round_sign false (by norm_num))
  have hmagnitude : (datum half).magnitude ≤ 126 * 2 ^ 23 := by
    rw [hdatum]
    exact roundMagnitude_le (by rw [hvalue, abs_of_pos] <;> norm_num)
  have hlt : key (datum r) ≤ key (datum half) := by
    refine le_of_not_ge fun hle => hhalf ?_
    change binary32.le (datum half) (datum r) = true
    have hnan : binary32.isNan (datum half) = false := hdatum ▸ isNan_round false _
    rw [FloatFormat.le, hnan, show binary32.isNan (datum r) = false from hnumber,
      decide_eq_true hle]
    rfl
  have hle : (datum r).magnitude ≤ 126 * 2 ^ 23 :=
    (key_le_natCast hkey0).mp (hlt.trans ((key_le_natCast hhalf0).mpr hmagnitude))
  rw [abs_toRat, ← hvalue]
  exact binary32.value_strictMono.monotone hle

/-- A count is at most a power of two below its double. -/
theorem exists_pow_lt {n : ℕ} (h : 0 < n) : ∃ k, n ≤ 2 ^ k ∧ 2 ^ k < 2 * n := by
  refine ⟨Nat.clog 2 n, Nat.le_pow_clog one_lt_two n, ?_⟩
  rcases Nat.lt_or_ge 1 n with hn | hn
  · have hpred := Nat.pow_pred_clog_lt_self one_lt_two hn
    have hpos := Nat.clog_pos one_lt_two hn
    calc 2 ^ Nat.clog 2 n = 2 * 2 ^ (Nat.clog 2 n).pred := by
          rw [← pow_succ', Nat.pred_eq_sub_one, Nat.sub_add_cancel hpos]
      _ < 2 * n := by omega
  · obtain rfl : n = 1 := by omega
    rw [Nat.clog_one_right]
    decide

/-- **A part below a half of a count**, rounded, is below the count. -/
theorem toRat_mul_widen_lt {n : ℕ} (hpos : 0 < n) (hn : n < 2 ^ 64) {r : Binary32}
    (hfinite : Scalar.isFinite r = true) (hr : |binary32.toRat (datum r)| ≤ 1 / 2) :
    binary64.toRat (datum ((Scalar.ofRat n : Binary64) * PixelArithmetic.widen r)) < n := by
  obtain ⟨k, hle, hlt⟩ := exists_pow_lt hpos
  have hk : k < 65 := (Nat.pow_lt_pow_iff_right one_lt_two).mp (by omega)
  have hcount : Within k (Scalar.ofRat n) := within_round _ (by
    rw [Nat.abs_cast]
    exact_mod_cast hle)
  have hwiden : (datum (PixelArithmetic.widen r : Binary64)).magnitude ≤ halfPattern 0 := by
    have hdef : (PixelArithmetic.widen r : Binary64) =
        ofDatum (binary64.round r.sign (binary32.toRat (datum r))) := if_pos hfinite
    rw [hdef]
    exact magnitude_round_le _ (by rwa [value_halfPattern, pow_zero])
  have hwidenFinite : binary64.isFinite (datum (PixelArithmetic.widen r : Binary64)) = true :=
    decide_eq_true (hwiden.trans_lt (by decide))
  have hproduct : (datum ((Scalar.ofRat n : Binary64) * PixelArithmetic.widen r)).magnitude ≤
      halfPattern k := by
    change (datum (ofDatum (binary64.mul _ _) : Binary64)).magnitude ≤ _
    rw [mul_of_isFinite (hcount.isFinite (by omega)) hwidenFinite]
    refine magnitude_round_le _ ?_
    have hhalf : |binary64.toRat (datum (PixelArithmetic.widen r : Binary64))| ≤ 2 ^ 0 / 2 := by
      rw [abs_toRat, ← value_halfPattern]
      exact binary64.value_strictMono.monotone hwiden
    rw [value_halfPattern, abs_mul]
    calc _ ≤ (2 : ℚ) ^ k * (2 ^ 0 / 2) :=
          mul_le_mul hcount.abs_toRat_le hhalf (abs_nonneg _) (by positivity)
      _ = _ := by ring
  calc binary64.toRat _ ≤ binary64.value (halfPattern k) := toRat_le_of_magnitude_le hproduct
    _ = 2 ^ k / 2 := value_halfPattern k
    _ < n := by
      rw [div_lt_iff₀ two_pos, mul_comm]
      exact_mod_cast hlt

end Binary64

instance : LawfulImageArithmetic Binary32 Binary64 where
  isFinite_sourceCoordinate hi hn hm hm' :=
    (Binary64.within_sourceCoordinate hi hn hm hm').isFinite (by decide)
  floorWide_clamp_le {x n} hx hn := by
    refine Int.toNat_le.mpr (Int.floor_le_iff.mpr ?_)
    exact (Binary64.toRat_clamp_le hx hn).trans_lt (by push_cast; linarith)

instance : LawfulBoundArithmetic Binary32 Binary64 where
  floorWide_clamp_mem h hn := toNat_floor_mem (Binary64.toRat_clamp_mem h hn)

instance : LawfulTileArithmetic Binary32 Binary64 where
  floorWide_mul_lt {n r} hpos hn hfinite hnonneg hhalf := by
    refine (Int.toNat_lt' hpos).mpr (Int.floor_lt.mpr ?_)
    have h := Binary64.toRat_mul_widen_lt hpos hn hfinite
      (Binary64.abs_toRat_le_half hfinite hnonneg hhalf)
    exact_mod_cast h

end FacLpr

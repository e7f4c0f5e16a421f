import FacLpr.Foundations.FloatFormat
import FacLpr.Foundations.PrintedJson
import Mathlib.Data.Int.Log
import Mathlib.Data.List.DropRight
import Mathlib.Data.Nat.Digits.Lemmas
import Mathlib.Data.Rat.Floor

/-!
# Foundations/PrintedNumbers — numbers as an output stream prints them

An integer is printed in full, a `float` or `double` as `%g` prints it: six significant digits,
without trailing zeros, with an exponent where it is less than `-4` or more than `5`.  What is
printed of a finite number is a JSON number (`readsValue_floatText`).
-/

namespace FacLpr

open Json

/-! ## Printing -/

/-- The last decimal digit of a number. -/
def digitByte (n : ℕ) : Byte := UInt8.ofNat (0x30 + n % 10)

/-- The decimal digits of a number, without leading zeros. -/
def decimal (n : ℕ) : Text :=
  if n = 0 then [0x30] else (Nat.digits 10 n).reverse.map digitByte

def integerText (z : ℤ) : Text := signText (decide (z < 0)) ++ decimal z.natAbs

/-- The last digits of a number, as many as are asked for. -/
def fixedDigits : ℕ → ℕ → Text
  | 0, _ => []
  | count + 1, n => fixedDigits count (n / 10) ++ [digitByte n]

/-- The nearest integer, the even one of two. -/
def roundHalfEven (q : ℚ) : ℕ :=
  let below := ⌊q⌋₊
  if q - below < 1 / 2 then below
  else if q - below = 1 / 2 then below + below % 2
  else below + 1

/-- Six significant digits of a positive number, and the exponent of the first. -/
def significant (q : ℚ) : ℕ × ℤ :=
  let exponent := Int.log 10 q
  let digits := roundHalfEven (q / 10 ^ (exponent - 5))
  if digits = 10 ^ 6 then (10 ^ 5, exponent + 1) else (digits, exponent)

/-- The digits behind the point: without trailing zeros, and without the point if none is left. -/
def fractionText (digits : Text) : Text :=
  let kept := digits.rdropWhile (· == 0x30)
  if kept = [] then [] else 0x2E :: kept

/-- An exponent has two digits at least. -/
def exponentText (exponent : ℤ) : Text :=
  0x65 :: (if exponent < 0 then 0x2D else 0x2B) ::
    ((if exponent.natAbs < 10 then [0x30] else []) ++ decimal exponent.natAbs)

/-- `%g`, of a positive number and a sign. -/
def generalText (negative : Bool) (q : ℚ) : Text :=
  let (n, exponent) := significant q
  let digits := fixedDigits 6 n
  if exponent < -4 ∨ 6 ≤ exponent then
    numberText negative (digits.take 1) (fractionText (digits.drop 1)) (exponentText exponent)
  else if exponent < 0 then
    numberText negative [0x30]
      (fractionText (List.replicate (-exponent - 1).toNat 0x30 ++ digits)) []
  else
    numberText negative (digits.take (exponent.toNat + 1))
      (fractionText (digits.drop (exponent.toNat + 1))) []

/-- A `float` or a `double`. -/
def floatText (f : FloatFormat) (x : FloatDatum) : Text :=
  if f.isNan x then signText x.sign ++ ascii "nan"
  else if f.isInfinite x then signText x.sign ++ ascii "inf"
  else if x.magnitude = 0 then numberText x.sign [0x30] [] []
  else generalText x.sign (f.value x.magnitude)

/-! ## Integers -/

theorem isDigit_digitByte (n : ℕ) : isDigit (digitByte n) = true := by
  have hall : ∀ d < 10, isDigit (UInt8.ofNat (0x30 + d)) = true := by decide
  exact hall _ (Nat.mod_lt n (by decide))

theorem digitByte_ne {n : ℕ} (h : n % 10 ≠ 0) : digitByte n ≠ 0x30 := by
  have hall : ∀ d < 10, d ≠ 0 → UInt8.ofNat (0x30 + d) ≠ 0x30 := by decide
  exact hall _ (Nat.mod_lt n (by decide)) h

theorem areDigits_map {digits : List ℕ} (h : digits ≠ []) : AreDigits (digits.map digitByte) := by
  refine ⟨mt List.map_eq_nil_iff.mp h, fun b hb => ?_⟩
  obtain ⟨d, -, rfl⟩ := List.mem_map.mp hb
  exact isDigit_digitByte d

/-- They are those of an integer. -/
theorem isInteger_decimal (n : ℕ) : IsInteger (decimal n) := by
  unfold decimal
  split
  · exact Or.inl rfl
  · rename_i hn
    have hne : Nat.digits 10 n ≠ [] := Nat.digits_ne_nil_iff_ne_zero.mpr hn
    refine Or.inr ⟨areDigits_map (mt List.reverse_eq_nil_iff.mp hne), ?_⟩
    -- the leading digit is not zero
    have hlast := Nat.getLast_digit_ne_zero 10 hn
    have hlt := Nat.digits_lt_base (by decide) (List.getLast_mem hne)
    rw [List.head?_map, List.head?_reverse, List.getLast?_eq_getLast_of_ne_nil hne]
    intro heq
    exact digitByte_ne (by rwa [Nat.mod_eq_of_lt hlt]) (Option.some.inj heq)

theorem areDigits_decimal (n : ℕ) : AreDigits (decimal n) := by
  rcases isInteger_decimal n with h | h
  · rw [h]
    exact ⟨List.cons_ne_nil _ _, List.forall_mem_singleton.mpr (by decide)⟩
  · exact h.1

/-- **A printed integer is read back.** -/
theorem readsValue_integerText (z : ℤ) :
    ReadsValue (integerText z) True (.number (integerText z)) := by
  have hnumber : IsNumeral (decide (z < 0)) (decimal z.natAbs) [] [] :=
    ⟨isInteger_decimal _, Or.inl rfl, Or.inl rfl⟩
  have htext : numberText (decide (z < 0)) (decimal z.natAbs) [] [] = integerText z := by
    simp only [numberText, integerText, List.append_nil]
  rw [← htext]
  exact hnumber.readsValue

example : integerText (-640) = ascii "-640" := by decide +kernel

/-! ## Six digits -/

/-- As many digits as were asked for, -/
theorem length_fixedDigits (count n : ℕ) : (fixedDigits count n).length = count := by
  induction count generalizing n with
  | zero => rfl
  | succ count ih => rw [fixedDigits, List.length_append, ih, List.length_singleton]

theorem isDigit_of_mem_fixedDigits {count n : ℕ} : ∀ b ∈ fixedDigits count n, isDigit b = true := by
  induction count generalizing n with
  | zero => exact fun b hb => nomatch hb
  | succ count ih =>
    intro b hb
    rcases List.mem_append.mp hb with hb | hb
    · exact ih b hb
    · rw [List.mem_singleton.mp hb]
      exact isDigit_digitByte n

/-- the first of them the highest. -/
theorem head?_fixedDigits (count n : ℕ) :
    (fixedDigits (count + 1) n).head? = some (digitByte (n / 10 ^ count)) := by
  induction count generalizing n with
  | zero => rw [pow_zero, Nat.div_one]; rfl
  | succ count ih =>
    rw [fixedDigits, List.head?_append, ih, Nat.div_div_eq_div_mul, ← pow_succ']
    rfl

/-- The leading digit of a number with as many digits is not zero. -/
theorem head?_fixedDigits_ne {count n : ℕ} (hlow : 10 ^ count ≤ n) (hhigh : n < 10 ^ (count + 1)) :
    (fixedDigits (count + 1) n).head? ≠ some 0x30 := by
  have hpos : 0 < n / 10 ^ count := Nat.div_pos hlow (by positivity)
  have hlt : n / 10 ^ count < 10 := Nat.div_lt_of_lt_mul (by rwa [← pow_succ])
  rw [head?_fixedDigits]
  intro heq
  refine digitByte_ne ?_ (Option.some.inj heq)
  rw [Nat.mod_eq_of_lt hlt]
  exact hpos.ne'

/-- Rounding does not pass a whole number, from above -/
theorem le_roundHalfEven {q : ℚ} {k : ℕ} (h : (k : ℚ) ≤ q) : k ≤ roundHalfEven q := by
  have hle : k ≤ ⌊q⌋₊ := Nat.le_floor h
  unfold roundHalfEven
  grind

/-- and from below. -/
theorem roundHalfEven_le {q : ℚ} {k : ℕ} (hk : k ≠ 0) (h : q < k) : roundHalfEven q ≤ k := by
  have hlt : ⌊q⌋₊ < k := (Nat.floor_lt' hk).mpr h
  unfold roundHalfEven
  grind

theorem ten_pow_mul_zpow (n : ℕ) (exponent : ℤ) :
    ((10 ^ n : ℕ) : ℚ) * 10 ^ exponent = 10 ^ (exponent + n) := by
  rw [zpow_add₀ (by norm_num), zpow_natCast, mul_comm]
  push_cast
  rfl

/-- **The digits are six.** -/
theorem significant_fst_mem {q : ℚ} (hq : 0 < q) :
    10 ^ 5 ≤ (significant q).1 ∧ (significant q).1 < 10 ^ 6 := by
  set exponent := Int.log 10 q with hexponent
  have hscale : (0 : ℚ) < 10 ^ (exponent - 5) := zpow_pos (by norm_num) _
  have hlow : (10 : ℚ) ^ exponent ≤ q := Int.zpow_log_le_self (by decide) hq
  have hhigh : q < (10 : ℚ) ^ (exponent + 1) := Int.lt_zpow_succ_log_self (by decide) q
  have hfive : 10 ^ 5 ≤ roundHalfEven (q / 10 ^ (exponent - 5)) := by
    refine le_roundHalfEven ?_
    rw [le_div_iff₀ hscale, ten_pow_mul_zpow]
    exact (congrArg ((10 : ℚ) ^ ·) (by push_cast; ring)).trans_le hlow
  have hsix : roundHalfEven (q / 10 ^ (exponent - 5)) ≤ 10 ^ 6 := by
    refine roundHalfEven_le (by decide) ?_
    rw [div_lt_iff₀ hscale, ten_pow_mul_zpow]
    exact hhigh.trans_eq (congrArg ((10 : ℚ) ^ ·) (by push_cast; ring))
  unfold significant
  simp only [← hexponent]
  split
  · exact ⟨le_rfl, Nat.pow_lt_pow_right (by decide) (by decide)⟩
  · rename_i hne
    exact ⟨hfive, lt_of_le_of_ne hsix hne⟩

/-! ## Floating-point numbers -/

/-- What is behind the point is a fraction. -/
theorem isFraction_fractionText {digits : Text} (h : ∀ b ∈ digits, isDigit b = true) :
    IsFraction (fractionText digits) := by
  unfold fractionText
  simp only
  split
  · exact Or.inl rfl
  · rename_i hne
    exact Or.inr ⟨_, ⟨hne, fun b hb => h b ((List.rdropWhile_prefix _ _).subset hb)⟩, rfl⟩

/-- The exponent has its sign and two digits at least. -/
theorem isExponent_exponentText (exponent : ℤ) : IsExponent (exponentText exponent) := by
  have hdecimal := areDigits_decimal exponent.natAbs
  refine Or.inr ⟨_, _, ⟨?_, ?_⟩, ?_, rfl⟩
  · exact fun hnil => hdecimal.1 (List.append_eq_nil_iff.mp hnil).2
  · intro b hb
    rcases List.mem_append.mp hb with hb | hb
    · split at hb
      · rw [List.mem_singleton.mp hb]
        decide
      · exact nomatch hb
    · exact hdecimal.2 b hb
  · split
    · exact Or.inr rfl
    · exact Or.inl rfl

/-- **What `%g` prints is a number.** -/
theorem readsValue_generalText (negative : Bool) {q : ℚ} (hq : 0 < q) :
    ReadsValue (generalText negative q) True (.number (generalText negative q)) := by
  obtain ⟨hlow, hhigh⟩ := significant_fst_mem hq
  have hdigits := @isDigit_of_mem_fixedDigits 6 (significant q).1
  have hhead := head?_fixedDigits_ne hlow hhigh
  have hlength := length_fixedDigits 6 (significant q).1
  have hfraction (n : ℕ) : IsFraction (fractionText ((fixedDigits 6 (significant q).1).drop n)) :=
    isFraction_fractionText fun b hb => hdigits b (List.mem_of_mem_drop hb)
  have hinteger (n : ℕ) : IsInteger ((fixedDigits 6 (significant q).1).take (n + 1)) := by
    refine Or.inr ⟨⟨?_, fun b hb => hdigits b (List.mem_of_mem_take hb)⟩, ?_⟩
    · intro hnil
      have hzero := congrArg List.length hnil
      rw [List.length_take, hlength] at hzero
      simp at hzero
    · rwa [List.head?_take, if_neg (Nat.succ_ne_zero n)]
  unfold generalText
  simp only
  split
  · exact IsNumeral.readsValue
      ⟨hinteger 0, hfraction 1, isExponent_exponentText _⟩
  split
  · refine IsNumeral.readsValue ⟨Or.inl rfl, isFraction_fractionText fun b hb => ?_, Or.inl rfl⟩
    rcases List.mem_append.mp hb with hb | hb
    · rw [List.eq_of_mem_replicate hb]
      decide
    · exact hdigits b hb
  · exact IsNumeral.readsValue
      ⟨hinteger _, hfraction _, Or.inl rfl⟩

/-- A word of no number, behind a sign or not, is not read as a value. -/
theorem readsValue_word (negative : Bool) {word : Text}
    (hword : word = ascii "nan" ∨ word = ascii "inf") (value : Json) :
    ReadsValue (signText negative ++ word) False value := by
  rcases hword with rfl | rfl
  all_goals
    cases negative
    · exact readsValue_of_cons rfl (by decide) fun _ _ => Reads.never fun _ _ => rfl
    · exact readsValue_of_cons rfl (by decide) fun _ _ => Reads.never fun _ _ => rfl

/-- **A floating-point number is a JSON number** when it is finite. -/
theorem readsValue_floatText (f : FloatFormat) (x : FloatDatum) :
    ReadsValue (floatText f x) (f.isFinite x = true) (.number (floatText f x)) := by
  have hfinite : f.isFinite x = true ↔ ¬ f.infinity < x.magnitude ∧ x.magnitude ≠ f.infinity := by
    unfold FloatFormat.isFinite
    rw [decide_eq_true_iff]
    omega
  unfold floatText FloatFormat.isNan FloatFormat.isInfinite
  split
  · rename_i hnan
    refine (readsValue_word x.sign (Or.inl rfl) _).congr (iff_of_false id fun h => ?_)
    exact (hfinite.mp h).1 (of_decide_eq_true hnan)
  split
  · rename_i hinfinite
    refine (readsValue_word x.sign (Or.inr rfl) _).congr (iff_of_false id fun h => ?_)
    exact (hfinite.mp h).2 (beq_iff_eq.mp hinfinite)
  rename_i hnan hinfinite
  have hok : f.isFinite x = true :=
    hfinite.mpr ⟨fun h => hnan (decide_eq_true h), fun h => hinfinite (beq_iff_eq.mpr h)⟩
  split
  · have hzero : IsNumeral x.sign [0x30] [] [] := ⟨Or.inl rfl, Or.inl rfl, Or.inl rfl⟩
    exact hzero.readsValue.congr (iff_of_true trivial hok)
  · rename_i hmagnitude
    have hpos : 0 < f.value x.magnitude := by
      rw [← f.value_zero]
      exact f.value_strictMono (Nat.pos_of_ne_zero hmagnitude)
    exact (readsValue_generalText x.sign hpos).congr (iff_of_true trivial hok)

/-! ## Printed numbers -/

namespace Json.Printed

def integer (z : ℤ) : Printed := ⟨_, _, _, readsValue_integerText z⟩

def float (f : FloatFormat) (x : FloatDatum) : Printed := ⟨_, _, _, readsValue_floatText f x⟩

@[simp] theorem text_integer (z : ℤ) : (integer z).text = integerText z := rfl

@[simp] theorem ok_integer (z : ℤ) : (integer z).ok ↔ True := Iff.rfl

end Json.Printed

end FacLpr

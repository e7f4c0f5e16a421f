import Mathlib.Analysis.SpecialFunctions.Pow.Real
import Mathlib.Data.Nat.Nth
import Mathlib.Data.Nat.Prime.Basic

/-!
# Foundations/SecureHash — the secure hash standard, over strings of bits

A message is a string of bits.  It is **padded** to whole blocks of sixteen words, the blocks are
folded into eight words by a compression of so many rounds, and the bits of the eight words are the
**digest**.  A word has `w` bits and words are added modulo `2 ^ w`; the hashes of the family
differ in `w`, in the number of rounds and in the constants, and `sha256` is the one of 32 bits.

The definitions read as the standard does: the zeros of the padding are the fewest that do, and the
constants are the first bits of fractional parts of roots of the first primes.
-/

namespace SecureHash

variable {w m n : ℕ}

/-! ## Bits -/

/-- The bits of a word, the highest first. -/
def bitsOf (x : BitVec w) : List Bool := (List.range w).map x.getMsbD

/-- The word of some bits, the highest first. -/
def wordOf (w : ℕ) (bits : List Bool) : BitVec w := (BitVec.ofBoolListBE bits).setWidth w

@[simp] theorem length_bitsOf (x : BitVec w) : (bitsOf x).length = w := by simp [bitsOf]

theorem bitsOf_append (x : BitVec m) (y : BitVec n) :
    bitsOf (x ++ y) = bitsOf x ++ bitsOf y := by
  rw [bitsOf, bitsOf, bitsOf, List.range_add, List.map_append, List.map_map]
  congr 1
  · refine List.map_congr_left fun i hi => ?_
    rw [BitVec.getMsbD_append, if_neg (by simpa using hi)]
  · refine List.map_congr_left fun i _ => ?_
    rw [Function.comp_apply, BitVec.getMsbD_append, if_pos (by omega), Nat.add_sub_cancel_left]

/-- Reading back what was written. -/
theorem wordOf_bitsOf (x : BitVec w) : wordOf w (bitsOf x) = x := by
  refine BitVec.eq_of_getLsbD_eq fun i hi => ?_
  have hlast : w - 1 - i < w := by omega
  simp only [wordOf, BitVec.getLsbD_setWidth, BitVec.getLsbD_ofBoolListBE, length_bitsOf, hi,
    decide_true, Bool.true_and]
  rw [bitsOf, List.getD_eq_getElem _ _ (by simpa using hlast), List.getElem_map,
    List.getElem_range, BitVec.getMsbD_eq_getLsbD, decide_eq_true hlast, Bool.true_and]
  congr 1
  omega

/-- The low bits of a word, in two parts. -/
theorem bitsOf_setWidth_add (x : BitVec w) (m n : ℕ) :
    bitsOf (x.setWidth (m + n)) = bitsOf (x.extractLsb' n m) ++ bitsOf (x.setWidth n) := by
  rw [← bitsOf_append]
  congr 1
  refine BitVec.eq_of_getLsbD_eq fun i hi => ?_
  rw [BitVec.getLsbD_append, BitVec.getLsbD_setWidth, BitVec.getLsbD_setWidth,
    BitVec.getLsbD_extractLsb']
  grind

/-- The low bits of a word, by digits of `m` bits. -/
theorem flatMap_bitsOf_digits (x : BitVec w) (m : ℕ) (n : ℕ) :
    ((List.range n).reverse.flatMap fun i => bitsOf (x.extractLsb' (m * i) m)) =
      bitsOf (x.setWidth (m * n)) := by
  induction n with
  | zero => simp [bitsOf]
  | succ n ih =>
    rw [List.range_succ, List.reverse_append, List.reverse_singleton, List.singleton_append,
      List.flatMap_cons, ih, ← bitsOf_setWidth_add, Nat.mul_succ, Nat.add_comm]

/-! ## Blocks -/

/-- The whole blocks of `n` elements a list starts with. -/
def blocksOf {α : Type*} (n : ℕ) (l : List α) : List (List α) :=
  (List.range (l.length / n)).map fun i => (l.drop (i * n)).take n

section Blocks

variable {α : Type*}

theorem blocksOf_append (hn : 0 < n) {block : List α} (hblock : block.length = n) (l : List α) :
    blocksOf n (block ++ l) = block :: blocksOf n l := by
  subst hblock
  rw [blocksOf, List.length_append, Nat.add_div_left _ hn, List.range_succ_eq_map, List.map_cons,
    List.map_map, Nat.zero_mul, List.drop_zero, List.take_left]
  refine congrArg _ (List.map_congr_left fun i _ => ?_)
  rw [Function.comp_apply, Nat.succ_mul, Nat.add_comm, ← List.drop_drop, List.drop_left]

theorem blocksOf_of_length_lt {l : List α} (h : l.length < n) : blocksOf n l = [] := by
  rw [blocksOf, Nat.div_eq_of_lt h]
  rfl

theorem length_of_mem_blocksOf {l block : List α} (h : block ∈ blocksOf n l) :
    block.length = n := by
  obtain ⟨i, hi, rfl⟩ := List.mem_map.mp h
  have hend : (i + 1) * n ≤ l.length :=
    (Nat.mul_le_mul_right n (List.mem_range.mp hi)).trans (Nat.div_mul_le_self _ _)
  rw [List.length_take, List.length_drop]
  rw [Nat.succ_mul] at hend
  omega

/-- The whole blocks of a list, end to end. -/
theorem flatten_blocksOf (n : ℕ) (l : List α) :
    (blocksOf n l).flatten = l.take (l.length / n * n) := by
  rw [blocksOf]
  induction l.length / n with
  | zero => simp
  | succ k ih =>
    rw [List.range_succ, List.map_append, List.flatten_append, ih, Nat.succ_mul, List.take_add]
    simp

/-- Blocks laid end to end are found again. -/
theorem blocksOf_flatten (hn : 0 < n) {blocks : List (List α)}
    (hblocks : ∀ block ∈ blocks, block.length = n) : blocksOf n blocks.flatten = blocks := by
  induction blocks with
  | nil => exact blocksOf_of_length_lt hn
  | cons block blocks ih =>
    rw [List.flatten_cons, blocksOf_append hn (hblocks block (by simp)),
      ih fun b hb => hblocks b (by simp [hb])]

end Blocks

/-! ## Padding -/

/-- The zeros of the padding of a message of `size` bits: as few as leave room for the length in a
whole number of blocks. -/
noncomputable def zeros (w size : ℕ) : ℕ := sInf {k | size + 1 + k ≡ 14 * w [MOD 16 * w]}

theorem zeros_eq {size k : ℕ} (hk : size + 1 + k ≡ 14 * w [MOD 16 * w]) (hlt : k < 16 * w) :
    zeros w size = k := by
  have hmem : k ∈ {k | size + 1 + k ≡ 14 * w [MOD 16 * w]} := hk
  refine (Nat.sInf_le hmem).antisymm (le_csInf ⟨k, hmem⟩ fun k' hk' => ?_)
  have hmod : k ≡ k' [MOD 16 * w] := Nat.ModEq.add_left_cancel' _ (hk.trans hk'.symm)
  calc k = k % (16 * w) := (Nat.mod_eq_of_lt hlt).symm
    _ = k' % (16 * w) := hmod
    _ ≤ k' := Nat.mod_le _ _

/-- The padded message: a one bit, the zeros, and the length as a number of two words. -/
noncomputable def padded (w : ℕ) (message : List Bool) : List Bool :=
  message ++ true :: List.replicate (zeros w message.length) false ++
    bitsOf (BitVec.ofNat (2 * w) message.length)

/-! ## The words of the hash -/

/-- The eight working variables. -/
@[ext] structure Registers (w : ℕ) where
  a : BitVec w
  b : BitVec w
  c : BitVec w
  d : BitVec w
  e : BitVec w
  f : BitVec w
  g : BitVec w
  h : BitVec w

namespace Registers

def add (r s : Registers w) : Registers w where
  a := r.a + s.a
  b := r.b + s.b
  c := r.c + s.c
  d := r.d + s.d
  e := r.e + s.e
  f := r.f + s.f
  g := r.g + s.g
  h := r.h + s.h

def bits (r : Registers w) : List Bool :=
  bitsOf r.a ++ bitsOf r.b ++ bitsOf r.c ++ bitsOf r.d ++
    bitsOf r.e ++ bitsOf r.f ++ bitsOf r.g ++ bitsOf r.h

end Registers

def choose (x y z : BitVec w) : BitVec w := (x &&& y) ^^^ (~~~x &&& z)

def majority (x y z : BitVec w) : BitVec w := (x &&& y) ^^^ (x &&& z) ^^^ (y &&& z)

/-- The sum of three rotations to the right. -/
def rotations (i j k : ℕ) (x : BitVec w) : BitVec w :=
  x.rotateRight i ^^^ x.rotateRight j ^^^ x.rotateRight k

/-- The sum of two rotations and a shift to the right. -/
def shifted (i j k : ℕ) (x : BitVec w) : BitVec w :=
  x.rotateRight i ^^^ x.rotateRight j ^^^ (x >>> k)

/-- The first `w` bits of the fractional part of the `k`-th root of a number. -/
noncomputable def fractionalRoot (w k p : ℕ) : BitVec w :=
  BitVec.ofNat w ⌊Int.fract ((p : ℝ) ^ (1 / k : ℝ)) * 2 ^ w⌋₊

/-- A root, from its integral part and the first bits of its fraction. -/
theorem fractionalRoot_eq {w k p i x : ℕ} (hk : k ≠ 0) (hx : x < 2 ^ w)
    (hle : (i * 2 ^ w + x) ^ k ≤ p * 2 ^ (w * k))
    (hlt : p * 2 ^ (w * k) < (i * 2 ^ w + x + 1) ^ k) :
    fractionalRoot w k p = BitVec.ofNat w x := by
  set r : ℝ := (p : ℝ) ^ (1 / k : ℝ)
  have hr : 0 ≤ r := by positivity
  have hpow : (r * 2 ^ w) ^ k = p * 2 ^ (w * k) := by
    rw [mul_pow, ← pow_mul, ← Real.rpow_natCast r k, ← Real.rpow_mul (by positivity),
      one_div_mul_cancel (by exact_mod_cast hk), Real.rpow_one]
  have hlow : (i * 2 ^ w + x : ℝ) ≤ r * 2 ^ w := by
    refine le_of_pow_le_pow_left₀ hk (by positivity) ?_
    rw [hpow]
    exact_mod_cast hle
  have hhigh : r * 2 ^ w < i * 2 ^ w + x + 1 := by
    refine lt_of_pow_lt_pow_left₀ k (by positivity) ?_
    rw [hpow]
    exact_mod_cast hlt
  have hx' : (x : ℝ) + 1 ≤ 2 ^ w := by exact_mod_cast hx
  have hw : (0 : ℝ) < 2 ^ w := by positivity
  have hfloor : ⌊r⌋ = i := by
    refine Int.floor_eq_iff.mpr ⟨le_of_mul_le_mul_right ?_ hw, lt_of_mul_lt_mul_right ?_ hw.le⟩
    · push_cast
      linarith
    · push_cast
      linarith
  have hfract : Int.fract r * 2 ^ w = r * 2 ^ w - i * 2 ^ w := by
    rw [Int.fract, hfloor, sub_mul, Int.cast_natCast]
  have hvalue : ⌊Int.fract r * 2 ^ w⌋₊ = x := by
    rw [hfract, Nat.floor_eq_iff (by linarith)]
    constructor <;> linarith
  rw [fractionalRoot, hvalue]

/-! ## The first primes -/

/-- The numbers with a property, in their order. -/
theorem nth_eq_getD_filter_range (p : ℕ → Prop) [DecidablePred p] {n t : ℕ}
    (h : t < ((List.range n).filter p).length) :
    Nat.nth p t = ((List.range n).filter p).getD t 0 := by
  induction n with
  | zero => exact absurd h (Nat.not_lt_zero t)
  | succ n ih =>
    have hcount : ((List.range n).filter p).length = Nat.count p n := by
      rw [← List.countP_eq_length_filter, Nat.count]
    rw [List.range_succ, List.filter_append] at h ⊢
    rcases lt_or_ge t ((List.range n).filter p).length with hlt | hge
    · rw [List.getD_append _ _ _ _ hlt, ih hlt]
    · rw [List.length_append] at h
      by_cases hp : p n
      · rw [List.filter_singleton, decide_eq_true hp] at h ⊢
        obtain rfl : t = Nat.count p n := hcount ▸ hge.antisymm' (Nat.le_of_lt_succ h)
        rw [List.getD_append_right _ _ _ _ hge, Nat.nth_count hp, hcount, Nat.sub_self]
        rfl
      · rw [List.filter_singleton, decide_eq_false hp] at h
        exact absurd h hge.not_gt

/-- No number from two up to the root divides it: trial division below `b`. -/
def Undivided (b n : ℕ) : Prop := 2 ≤ n ∧ ∀ m < b, ¬(2 ≤ m ∧ m * m ≤ n ∧ m ∣ n)

instance (b n : ℕ) : Decidable (Undivided b n) := inferInstanceAs (Decidable (2 ≤ n ∧ _))

theorem prime_iff_undivided {n b : ℕ} (h : n < b * b) : n.Prime ↔ Undivided b n := by
  rw [Nat.prime_def_le_sqrt]
  refine and_congr_right fun _ => ⟨?_, ?_⟩
  · rintro hdiv m - ⟨hm, hle, hdvd⟩
    exact hdiv m hm (Nat.le_sqrt.mpr hle) hdvd
  · intro hdiv m hm hle hdvd
    have hlt : m * m < b * b := (Nat.le_sqrt.mp hle).trans_lt h
    exact hdiv m (Nat.mul_self_lt_mul_self_iff.mp hlt) ⟨hm, Nat.le_sqrt.mp hle, hdvd⟩

/-! ## A hash of the family -/

structure Hash (w : ℕ) where
  rounds : ℕ
  initial : Registers w
  constant : ℕ → BitVec w
  bigSigma0 : BitVec w → BitVec w
  bigSigma1 : BitVec w → BitVec w
  smallSigma0 : BitVec w → BitVec w
  smallSigma1 : BitVec w → BitVec w

namespace Hash

variable (H : Hash w)

/-- The message schedule of a block: its own sixteen words, and each later one of four before. -/
def scheduled (block : List Bool) (t : ℕ) : BitVec w :=
  if t < 16 then wordOf w ((blocksOf w block).getD t [])
  else
    H.smallSigma1 (scheduled block (t - 2)) + scheduled block (t - 7) +
      H.smallSigma0 (scheduled block (t - 15)) + scheduled block (t - 16)

/-- One round, with its constant and its word. -/
def round (r : Registers w) (constant word : BitVec w) : Registers w :=
  let t₁ := r.h + H.bigSigma1 r.e + choose r.e r.f r.g + constant + word
  let t₂ := H.bigSigma0 r.a + majority r.a r.b r.c
  { a := t₁ + t₂, b := r.a, c := r.b, d := r.c, e := r.d + t₁, f := r.e, g := r.f, h := r.g }

/-- The working variables before round `t` of a block. -/
def working (r : Registers w) (block : List Bool) : ℕ → Registers w
  | 0 => r
  | t + 1 => H.round (working r block t) (H.constant t) (H.scheduled block t)

def compress (r : Registers w) (block : List Bool) : Registers w :=
  (H.working r block H.rounds).add r

/-- The digest of a message whose length can be written in two words; longer ones have none. -/
noncomputable def digest (message : List Bool) : Option (List Bool) :=
  if message.length < 2 ^ (2 * w) then
    some ((blocksOf (16 * w) (padded w message)).foldl H.compress H.initial).bits
  else none

end Hash

/-- The hash of 32-bit words: 64 rounds, with the square roots of the first eight primes for the
initial words and the cube roots of the first sixty-four for the constants. -/
noncomputable def sha256 : Hash 32 where
  rounds := 64
  initial :=
    let root := fun i => fractionalRoot 32 2 (Nat.nth Nat.Prime i)
    { a := root 0, b := root 1, c := root 2, d := root 3
      e := root 4, f := root 5, g := root 6, h := root 7 }
  constant t := fractionalRoot 32 3 (Nat.nth Nat.Prime t)
  bigSigma0 := rotations 2 13 22
  bigSigma1 := rotations 6 11 25
  smallSigma0 := shifted 7 18 3
  smallSigma1 := shifted 17 19 10

end SecureHash

import FacLpr.Foundations.SecureHash
import FacLpr.Infrastructure.Crypto.Sha256

/-!
# Infrastructure/Crypto/Compression — a block of `transform` is a block of the standard

* `kConstants_eq`, `initialState_eq` — the constants are those the standard takes from the roots of
  primes;
* `schedule_eq` — the words of a block are its message schedule;
* `transform_eq` — `transform` is the compression of the standard.
-/

open SecureHash

namespace FacLpr

namespace Sha256

/-- The state, as the working variables. -/
def State.registers (s : State) : Registers 32 where
  a := s.a.toBitVec
  b := s.b.toBitVec
  c := s.c.toBitVec
  d := s.d.toBitVec
  e := s.e.toBitVec
  f := s.f.toBitVec
  g := s.g.toBitVec
  h := s.h.toBitVec

/-- The bits of a byte string, those of a byte from the highest. -/
def messageBits (bytes : List Byte) : List Bool := bytes.flatMap fun value => bitsOf value.toBitVec

@[simp] theorem length_messageBits (bytes : List Byte) :
    (messageBits bytes).length = 8 * bytes.length := by
  rw [messageBits, List.length_flatMap, List.map_congr_left fun _ _ => length_bitsOf _,
    List.map_const', List.sum_replicate, smul_eq_mul, Nat.mul_comm]

/-! ## The constants -/

/-- The first sixty-four primes. -/
def primes : List ℕ :=
  [2, 3, 5, 7, 11, 13, 17, 19, 23, 29, 31, 37, 41, 43, 47, 53, 59, 61, 67, 71, 73, 79, 83, 89, 97,
   101, 103, 107, 109, 113, 127, 131, 137, 139, 149, 151, 157, 163, 167, 173, 179, 181, 191, 193,
   197, 199, 211, 223, 227, 229, 233, 239, 241, 251, 257, 263, 269, 271, 277, 281, 283, 293, 307,
   311]

/-- They are the primes below 312, -/
theorem primes_eq : primes = (List.range 312).filter Nat.Prime := by
  have htrial : primes = (List.range 312).filter (Undivided 18) := by decide +kernel
  rw [htrial]
  refine List.filter_congr fun n hn => decide_eq_decide.mpr (prime_iff_undivided ?_).symm
  exact (List.mem_range.mp hn).trans (by decide)

theorem length_primes : primes.length = 64 := rfl

/-- each at its place. -/
theorem nth_prime {t : ℕ} (ht : t < 64) : Nat.nth Nat.Prime t = primes.getD t 0 := by
  have hlength := length_primes
  rw [primes_eq] at hlength ⊢
  exact nth_eq_getD_filter_range Nat.Prime (hlength ▸ ht)

/-- A word ends the `k`-th root of a number, taken to 32 bits after the point. -/
def EndsRoot (k p : ℕ) (word : UInt32) : Prop :=
  ∃ i < 18, (i * 2 ^ 32 + word.toNat) ^ k ≤ p * 2 ^ (32 * k) ∧
    p * 2 ^ (32 * k) < (i * 2 ^ 32 + word.toNat + 1) ^ k

instance (k p : ℕ) (word : UInt32) : Decidable (EndsRoot k p word) :=
  inferInstanceAs (Decidable (∃ i < 18, _))

theorem EndsRoot.toBitVec_eq {k p : ℕ} {word : UInt32} (h : EndsRoot k p word) (hk : k ≠ 0) :
    word.toBitVec = fractionalRoot 32 k p := by
  obtain ⟨i, -, hle, hlt⟩ := h
  rw [fractionalRoot_eq hk word.toNat_lt hle hlt]
  exact (BitVec.ofNat_toNat 32 word.toBitVec).symm

theorem toBitVec_eq_fractionalRoot {words : List UInt32} {k t : ℕ} (hk : k ≠ 0)
    (hroots : ∀ entry ∈ primes.zip words, EndsRoot k entry.1 entry.2) (ht : t < 64)
    (hwords : t < words.length) :
    (words.getD t 0).toBitVec = fractionalRoot 32 k (Nat.nth Nat.Prime t) := by
  have hzip : t < (primes.zip words).length := by
    rw [List.length_zip, length_primes]
    exact lt_min ht hwords
  have hroot := hroots _ (List.getElem_mem hzip)
  rw [List.getElem_zip] at hroot
  rw [nth_prime ht, List.getD_eq_getElem _ _ hwords,
    List.getD_eq_getElem _ _ (length_primes ▸ ht)]
  exact hroot.toBitVec_eq hk

/-- **The constants of the code** are those of the standard, -/
theorem kConstants_eq {t : ℕ} (ht : t < 64) :
    (kConstants.getD t 0).toBitVec = SecureHash.sha256.constant t :=
  toBitVec_eq_fractionalRoot three_ne_zero (by decide +kernel) ht ht

/-- and so is **the initial state**. -/
theorem initialState_eq : initialState.registers = SecureHash.sha256.initial := by
  have hroots : ∀ entry ∈ primes.zip
      [initialState.a, initialState.b, initialState.c, initialState.d, initialState.e,
        initialState.f, initialState.g, initialState.h], EndsRoot 2 entry.1 entry.2 := by
    decide +kernel
  have hword : ∀ t < 8, _ := fun t ht =>
    toBitVec_eq_fractionalRoot two_ne_zero hroots (ht.trans (by decide)) ht
  exact Registers.ext (hword 0 (by decide)) (hword 1 (by decide)) (hword 2 (by decide))
    (hword 3 (by decide)) (hword 4 (by decide)) (hword 5 (by decide)) (hword 6 (by decide))
    (hword 7 (by decide))

/-! ## The operations on words -/

/-- Rotation by two shifts. -/
theorem toBitVec_rotateRight (value : UInt32) {bits : UInt32} (hpos : 0 < bits.toNat)
    (hlt : bits.toNat < 32) :
    (rotateRight value bits).toBitVec = value.toBitVec.rotateRight bits.toNat := by
  have hsub : (32 - bits).toNat = 32 - bits.toNat :=
    UInt32.toNat_sub_of_le _ _ (UInt32.le_iff_toNat_le.mpr hlt.le)
  have hsub_lt : (32 - bits).toNat < 32 := by omega
  have hright : (value >>> bits).toBitVec = value.toBitVec >>> bits.toNat := by
    rw [UInt32.toBitVec_shiftRight, BitVec.ushiftRight_eq', BitVec.toNat_umod]
    exact congrArg _ (Nat.mod_eq_of_lt hlt)
  have hleft : (value <<< (32 - bits)).toBitVec = value.toBitVec <<< (32 - bits.toNat) := by
    rw [UInt32.toBitVec_shiftLeft, BitVec.shiftLeft_eq', BitVec.toNat_umod, ← hsub]
    exact congrArg _ (Nat.mod_eq_of_lt hsub_lt)
  rw [rotateRight, UInt32.toBitVec_or, hright, hleft, BitVec.rotateRight_def, Nat.mod_eq_of_lt hlt]

/-- `sum0` and `sum1`. -/
theorem toBitVec_rotations (x : UInt32) {i j k : UInt32} (hi : 0 < i.toNat ∧ i.toNat < 32)
    (hj : 0 < j.toNat ∧ j.toNat < 32) (hk : 0 < k.toNat ∧ k.toNat < 32) :
    (rotateRight x i ^^^ rotateRight x j ^^^ rotateRight x k).toBitVec =
      rotations i.toNat j.toNat k.toNat x.toBitVec := by
  rw [UInt32.toBitVec_xor, UInt32.toBitVec_xor, toBitVec_rotateRight x hi.1 hi.2,
    toBitVec_rotateRight x hj.1 hj.2, toBitVec_rotateRight x hk.1 hk.2, rotations]

/-- `s0` and `s1`. -/
theorem toBitVec_shifted (x : UInt32) {i j k : UInt32} (hi : 0 < i.toNat ∧ i.toNat < 32)
    (hj : 0 < j.toNat ∧ j.toNat < 32) (hk : k.toNat < 32) :
    (rotateRight x i ^^^ rotateRight x j ^^^ (x >>> k)).toBitVec =
      shifted i.toNat j.toNat k.toNat x.toBitVec := by
  rw [UInt32.toBitVec_xor, UInt32.toBitVec_xor, toBitVec_rotateRight x hi.1 hi.2,
    toBitVec_rotateRight x hj.1 hj.2, UInt32.toBitVec_shiftRight, BitVec.ushiftRight_eq',
    BitVec.toNat_umod, shifted]
  exact congrArg (_ ^^^ x.toBitVec >>> ·) (Nat.mod_eq_of_lt hk)

/-! ## The schedule of a block -/

/-- Four bytes, the first the highest. -/
theorem toBitVec_word (b₀ b₁ b₂ b₃ : Byte) :
    ((b₀.toUInt32 <<< 24) ||| (b₁.toUInt32 <<< 16) ||| (b₂.toUInt32 <<< 8) |||
      b₃.toUInt32).toBitVec =
        b₀.toBitVec ++ b₁.toBitVec ++ b₂.toBitVec ++ b₃.toBitVec := by
  ext i hi
  simp only [UInt32.toBitVec_or, UInt32.toBitVec_shiftLeft, UInt8.toBitVec_toUInt32,
    UInt32.toBitVec_ofNat, BitVec.ofNat_eq_ofNat, BitVec.reduceMod, BitVec.shiftLeft_eq',
    BitVec.toNat_ofNat, Nat.reducePow, Nat.reduceMod, BitVec.getElem_or, BitVec.getElem_shiftLeft,
    BitVec.getElem_setWidth]
  grind

/-- The words of a block are its bits, in groups of 32. -/
theorem blockWords_eq (block : List Byte) :
    (blockWords block).map UInt32.toBitVec =
      (blocksOf 32 (messageBits block)).map (wordOf 32) := by
  induction block using blockWords.induct with
  | case1 b₀ b₁ b₂ b₃ rest ih =>
    have hbits : messageBits (b₀ :: b₁ :: b₂ :: b₃ :: rest) =
        bitsOf (b₀.toBitVec ++ b₁.toBitVec ++ b₂.toBitVec ++ b₃.toBitVec) ++ messageBits rest := by
      simp only [messageBits, List.flatMap_cons, bitsOf_append, List.append_assoc]
    rw [hbits, blocksOf_append (by decide) (length_bitsOf _), blockWords, List.map_cons,
      List.map_cons, ih, toBitVec_word, wordOf_bitsOf]
  | case2 block hblock =>
    have hshort : block.length < 4 := by
      rcases block with _ | ⟨b₀, _ | ⟨b₁, _ | ⟨b₂, _ | ⟨b₃, rest⟩⟩⟩⟩
      case cons.cons.cons.cons => exact (hblock b₀ b₁ b₂ b₃ rest rfl).elim
      all_goals simp
    rw [blocksOf_of_length_lt (by rw [length_messageBits]; omega), blockWords]
    · rfl
    · exact hblock

/-- The words of a schedule so far. -/
def Scheduled (block : List Byte) (words : List UInt32) : Prop :=
  16 ≤ words.length ∧ ∀ t < words.length,
    (words.getD t 0).toBitVec = SecureHash.sha256.scheduled (messageBits block) t

theorem length_blockWords {block : List Byte} (h : block.length = 64) :
    (blockWords block).length = 16 := by
  have hlength := congrArg List.length (blockWords_eq block)
  rwa [List.length_map, List.length_map, blocksOf, List.length_map, List.length_range,
    length_messageBits, h] at hlength

theorem scheduled_blockWords {block : List Byte} (h : block.length = 64) :
    Scheduled block (blockWords block) := by
  have hlength := length_blockWords h
  refine ⟨hlength.ge, fun t ht => ?_⟩
  calc ((blockWords block).getD t 0).toBitVec
      = ((blockWords block).map UInt32.toBitVec).getD t 0 := (List.getD_map ..).symm
    _ = wordOf 32 ((blocksOf 32 (messageBits block)).getD t []) := by
      rw [blockWords_eq]
      exact List.getD_map _ [] (wordOf 32)
    _ = SecureHash.sha256.scheduled (messageBits block) t := by
      rw [Hash.scheduled, if_pos (by omega)]

theorem add_reverse (x y z t : BitVec 32) : x + y + z + t = t + z + y + x := by ac_rfl

/-- One more word of the schedule. -/
theorem Scheduled.append_nextWord {block : List Byte} {words : List UInt32}
    (h : Scheduled block words) : Scheduled block (words ++ [nextWord words]) := by
  obtain ⟨hlength, hwords⟩ := h
  have hback : ∀ back, 0 < back → back ≤ 16 →
      (words.getD (words.length - back) 0).toBitVec =
        SecureHash.sha256.scheduled (messageBits block) (words.length - back) :=
    fun back hpos hle => hwords _ (by omega)
  refine ⟨by rw [List.length_append]; omega, fun t ht => ?_⟩
  rw [List.length_append, List.length_singleton] at ht
  rcases Nat.lt_succ_iff_lt_or_eq.mp ht with hlt | rfl
  · rw [List.getD_append _ _ _ _ hlt, hwords t hlt]
  · rw [List.getD_append_right _ _ _ _ le_rfl, Nat.sub_self, List.getD_cons_zero,
      Hash.scheduled, if_neg (by omega), ← hback 2 (by decide) (by decide),
      ← hback 7 (by decide) (by decide), ← hback 15 (by decide) (by decide),
      ← hback 16 (by decide) (by decide)]
    simp only [nextWord, UInt32.toBitVec_add]
    rw [toBitVec_shifted _ (by decide) (by decide) (by decide),
      toBitVec_shifted _ (by decide) (by decide) (by decide)]
    exact add_reverse _ _ _ _

/-- The words of a block are its schedule. -/
theorem schedule_eq {block : List Byte} (h : block.length = 64) :
    (schedule block).length = 64 ∧ Scheduled block (schedule block) := by
  have hfold : ∀ k, Scheduled block ((List.range k).foldl
        (fun words _ => words ++ [nextWord words]) (blockWords block)) ∧
      ((List.range k).foldl (fun words _ => words ++ [nextWord words])
        (blockWords block)).length = 16 + k := by
    intro k
    induction k with
    | zero => exact ⟨scheduled_blockWords h, length_blockWords h⟩
    | succ k ih =>
      rw [List.range_succ, List.foldl_append, List.foldl_cons, List.foldl_nil, List.length_append,
        ih.2]
      exact ⟨ih.1.append_nextWord, rfl⟩
  exact ⟨(hfold 48).2, (hfold 48).1⟩

/-! ## The rounds -/

/-- **A round of the code** is one of the standard. -/
theorem round_eq (s : State) (constant word : UInt32) :
    (round s (constant, word)).registers =
      SecureHash.sha256.round s.registers constant.toBitVec word.toBitVec := by
  have hsum₁ := toBitVec_rotations s.e (by decide : 0 < (6 : UInt32).toNat ∧ _)
    (by decide : 0 < (11 : UInt32).toNat ∧ _) (by decide : 0 < (25 : UInt32).toNat ∧ _)
  have hsum₀ := toBitVec_rotations s.a (by decide : 0 < (2 : UInt32).toNat ∧ _)
    (by decide : 0 < (13 : UInt32).toNat ∧ _) (by decide : 0 < (22 : UInt32).toNat ∧ _)
  simp only [round, State.registers, UInt32.toBitVec_add, hsum₀, hsum₁]
  rfl

/-- The rounds of a block, one for each pair of a constant and a word. -/
theorem foldl_round_eq (s : State) (block : List Bool) (inputs : List (UInt32 × UInt32))
    (hinputs : ∀ t, (ht : t < inputs.length) →
      inputs[t].1.toBitVec = SecureHash.sha256.constant t ∧
        inputs[t].2.toBitVec = SecureHash.sha256.scheduled block t) :
    (inputs.foldl round s).registers =
      SecureHash.sha256.working s.registers block inputs.length := by
  induction inputs using List.reverseRecOn with
  | nil => rfl
  | append_singleton inputs input ih =>
    obtain ⟨hconstant, hword⟩ := hinputs inputs.length (by simp)
    rw [List.getElem_concat_length rfl] at hconstant hword
    rw [List.foldl_append, List.foldl_cons, List.foldl_nil, List.length_append,
      List.length_singleton, Hash.working, round_eq, ih fun t ht => ?_, hconstant, hword]
    have hinput := hinputs t (by rw [List.length_append]; omega)
    rwa [List.getElem_append_left ht] at hinput

/-- **`transform`** is the compression of the standard. -/
theorem transform_eq (s : State) {block : List Byte} (h : block.length = 64) :
    (transform s block).registers =
      SecureHash.sha256.compress s.registers (messageBits block) := by
  obtain ⟨hlength, -, hwords⟩ := schedule_eq h
  have hrounds := foldl_round_eq s (messageBits block) (kConstants.zip (schedule block))
    fun t ht => ?_
  · have hzip : (kConstants.zip (schedule block)).length = SecureHash.sha256.rounds := by
      rw [List.length_zip, hlength]
      rfl
    rw [hzip] at hrounds
    rw [Hash.compress, ← hrounds]
    simp only [transform, State.registers, UInt32.toBitVec_add, Registers.add, BitVec.add_comm]
  · rw [List.length_zip, hlength] at ht
    have ht64 : t < 64 := ht.trans_le (Nat.min_le_right _ _)
    have hconstant := kConstants_eq ht64
    have hword := hwords t (by omega)
    rw [List.getD_eq_getElem _ _ (show t < kConstants.length from ht64)] at hconstant
    rw [List.getD_eq_getElem _ _ (by omega)] at hword
    rw [List.getElem_zip]
    exact ⟨hconstant, hword⟩

end Sha256

end FacLpr

import FacLpr.Infrastructure.Crypto.Compression

/-!
# Infrastructure/Crypto/Conformance — `sha256` is the hash of the standard

`sha256` never builds the padded message: it reads the full blocks where they are and copies what is
left into a buffer of two blocks.  `flatten_transformed` says that the blocks it passes to
`transform` are the padded message all the same, whatever the length leaves over a block.
-/

open SecureHash

namespace FacLpr

namespace Sha256

/-! ## Bytes and bits -/

@[simp] theorem messageBits_append (bytes bytes' : List Byte) :
    messageBits (bytes ++ bytes') = messageBits bytes ++ messageBits bytes' :=
  List.flatMap_append

theorem messageBits_flatten (blocks : List (List Byte)) :
    messageBits blocks.flatten = (blocks.map messageBits).flatten := by
  induction blocks with
  | nil => rfl
  | cons block blocks ih => rw [List.flatten_cons, messageBits_append, ih]; rfl

theorem messageBits_replicate_zero (n : ℕ) :
    messageBits (List.replicate n 0) = List.replicate (8 * n) false := by
  induction n with
  | zero => rfl
  | succ n ih =>
    have hzero : messageBits [0] = List.replicate 8 false := rfl
    rw [List.replicate_succ, ← List.singleton_append, messageBits_append, ih, hzero,
      List.replicate_append_replicate, Nat.mul_succ, Nat.add_comm]

/-- A byte of a 64-bit number, by its place. -/
theorem toBitVec_shiftRight_toUInt8 (x : UInt64) {i : ℕ} (hi : i < 8) :
    (x >>> (UInt64.ofNat i * 8)).toUInt8.toBitVec = x.toBitVec.extractLsb' (8 * i) 8 := by
  have hshift : (UInt64.ofNat i * 8).toNat = 8 * i := by
    rw [UInt64.toNat_mul, UInt64.toNat_ofNat_of_lt' (hi.trans (by decide)), Nat.mul_comm]
    exact Nat.mod_eq_of_lt (by change 8 * i < _; omega)
  have hmod : ((UInt64.ofNat i * 8).toBitVec % 64).toNat = 8 * i := by
    rw [BitVec.toNat_umod]
    exact (Nat.mod_eq_of_lt (by change (UInt64.ofNat i * 8).toNat < 64; omega)).trans hshift
  rw [UInt64.toBitVec_toUInt8, UInt64.toBitVec_shiftRight, BitVec.ushiftRight_eq', hmod,
    BitVec.setWidth_ushiftRight_eq_extractLsb]

/-- The bytes of a word, end to end. -/
theorem messageBits_wordBytes (word : UInt32) :
    messageBits (wordBytes word) = bitsOf word.toBitVec := by
  have hdigits := flatMap_bitsOf_digits word.toBitVec 8 4
  simp only [BitVec.setWidth_eq, ← BitVec.setWidth_ushiftRight_eq_extractLsb] at hdigits
  rw [← hdigits]
  rfl

/-- The bytes of the length, the highest first. -/
def lengthBytes (size : ℕ) : List Byte :=
  (List.range 8).reverse.map fun index =>
    ((UInt64.ofNat size * 8) >>> (UInt64.ofNat index * 8)).toUInt8

theorem messageBits_lengthBytes (size : ℕ) :
    messageBits (lengthBytes size) = bitsOf (BitVec.ofNat 64 (8 * size)) := by
  have hbits : (UInt64.ofNat size * 8).toBitVec = BitVec.ofNat 64 (8 * size) := by
    rw [Nat.mul_comm, BitVec.ofNat_mul]
    rfl
  have hdigits := flatMap_bitsOf_digits (UInt64.ofNat size * 8).toBitVec 8 8
  rw [BitVec.setWidth_eq, hbits] at hdigits
  rw [← hdigits, lengthBytes, messageBits, List.flatMap_map]
  refine List.flatMap_congr fun i hi => ?_
  rw [toBitVec_shiftRight_toUInt8 _ (by simpa using hi), hbits]

/-! ## The buffer of the padded rest -/

/-- Writing the last `n` of the first `p` bytes, from the back. -/
theorem foldl_set (f : ℕ → Byte) (tail : List Byte) {p : ℕ} (hp : p ≤ tail.length) {n : ℕ}
    (hn : n ≤ p) :
    (List.range n).foldl (fun tail index => tail.set (p - 1 - index) (f index)) tail =
      tail.take (p - n) ++ (List.range n).reverse.map f ++ tail.drop p := by
  induction n with
  | zero => simp
  | succ n ih =>
    obtain ⟨k, rfl⟩ : ∃ k, p = k + 1 + n := ⟨p - n - 1, by omega⟩
    have hk : k < tail.length := by omega
    have hset : (tail.take (k + 1)).set k (f n) = tail.take k ++ [f n] := by
      rw [List.take_succ_eq_append_getElem hk, List.set_append_right _ _ (by simp)]
      simp [hk.le]
    rw [List.range_succ, List.foldl_append, List.foldl_cons, List.foldl_nil, ih (by omega),
      List.append_assoc, Nat.add_sub_cancel, show k + 1 + n - 1 - n = k by omega,
      show k + 1 + n - (n + 1) = k by omega,
      List.set_append_left _ _ (by rw [List.length_take]; omega), hset, List.reverse_append]
    simp

theorem paddedTail_eq {rest : List Byte} {paddedSize : ℕ} (size : ℕ)
    (hroom : rest.length + 9 ≤ paddedSize) (hsize : paddedSize ≤ 128) :
    paddedTail rest size paddedSize =
      rest ++ 0x80 :: List.replicate (paddedSize - 9 - rest.length) 0 ++ lengthBytes size ++
        List.replicate (128 - paddedSize) 0 := by
  have hzeros : List.replicate (128 - rest.length) (0 : Byte) =
      0 :: (List.replicate (paddedSize - 9 - rest.length) 0 ++
        List.replicate (128 - paddedSize + 8) 0) := by
    rw [List.replicate_append_replicate, ← List.replicate_succ]
    congr 1
    omega
  have hset : (rest ++ List.replicate (128 - rest.length) (0 : Byte)).set rest.length 0x80 =
      (rest ++ 0x80 :: List.replicate (paddedSize - 9 - rest.length) 0) ++
        List.replicate (128 - paddedSize + 8) 0 := by
    rw [hzeros, List.set_append_right _ _ le_rfl, Nat.sub_self, List.set_cons_zero,
      List.append_assoc, List.cons_append]
  have hlength : (rest ++ 0x80 :: List.replicate (paddedSize - 9 - rest.length) (0 : Byte)).length =
      paddedSize - 8 := by
    simp
    omega
  rw [paddedTail, hset, foldl_set _ _ (by simp; omega) (by omega), List.take_left' hlength,
    List.drop_append, List.drop_eq_nil_of_le (by omega), hlength, List.drop_replicate,
    List.nil_append, lengthBytes,
    show 128 - paddedSize + 8 - (paddedSize - (paddedSize - 8)) = 128 - paddedSize by omega]

/-! ## The blocks -/

/-- The one or two blocks of the buffer. -/
def tailBlocks (rest : List Byte) (size : ℕ) : List (List Byte) :=
  let paddedSize := if rest.length < 56 then 64 else 128
  let tail := paddedTail rest size paddedSize
  tail.take 64 :: if paddedSize = 128 then [tail.drop 64] else []

/-- The blocks `sha256` passes to `transform`, in the order of its calls. -/
def transformed (bytes : List Byte) : List (List Byte) :=
  let blocks := bytes.length / 64
  ((List.range blocks).map fun index => (bytes.drop (index * 64)).take 64) ++
    tailBlocks (bytes.drop (blocks * 64)) bytes.length

/-- The bytes of the eight words. -/
def State.bytes (s : State) : List Byte :=
  [s.a, s.b, s.c, s.d, s.e, s.f, s.g, s.h].flatMap wordBytes

theorem sha256_eq (bytes : List Byte) :
    sha256 bytes = ((transformed bytes).foldl transform initialState).bytes := by
  rw [sha256, transformed, tailBlocks, State.bytes, List.foldl_append, List.foldl_map,
    List.foldl_cons]
  split <;> rfl

theorem messageBits_bytes (s : State) : messageBits s.bytes = s.registers.bits := by
  simp only [State.bytes, List.flatMap_cons, List.flatMap_nil, List.append_nil,
    messageBits_append, messageBits_wordBytes, State.registers, Registers.bits, List.append_assoc]

/-- What `sha256` puts behind a message that leaves `rest` bytes over its full blocks. -/
def padding (rest size : ℕ) : List Byte :=
  let paddedSize := if rest < 56 then 64 else 128
  0x80 :: List.replicate (paddedSize - 9 - rest) 0 ++ lengthBytes size

theorem length_padding {rest : ℕ} (h : rest < 64) (size : ℕ) :
    rest + (padding rest size).length = if rest < 56 then 64 else 128 := by
  rw [padding]
  split <;> simp [lengthBytes] <;> omega

/-- The blocks of the buffer are the rest and the padding. -/
theorem tailBlocks_eq {rest : List Byte} (h : rest.length < 64) (size : ℕ) :
    (tailBlocks rest size).flatten = rest ++ padding rest.length size ∧
      ∀ block ∈ tailBlocks rest size, block.length = 64 := by
  have hlength := length_padding h size
  rw [← List.length_append] at hlength
  have htail : ∀ paddedSize, paddedSize = (if rest.length < 56 then 64 else 128) →
      paddedTail rest size paddedSize =
        rest ++ padding rest.length size ++ List.replicate (128 - paddedSize) 0 := by
    rintro paddedSize rfl
    rw [paddedTail_eq size (by split <;> omega) (by split <;> decide), padding,
      List.append_assoc rest]
  rw [tailBlocks]
  by_cases hshort : rest.length < 56
  · rw [if_pos hshort] at hlength
    rw [htail _ rfl, if_pos hshort, List.take_left' hlength]
    exact ⟨List.append_nil _, List.forall_mem_singleton.mpr hlength⟩
  · rw [if_neg hshort] at hlength
    rw [htail _ rfl, if_neg hshort, if_pos rfl, Nat.sub_self, List.replicate_zero, List.append_nil]
    refine ⟨by simp, ?_⟩
    rw [List.forall_mem_cons, List.forall_mem_singleton, List.length_take, List.length_drop]
    omega

/-- **The blocks are the message and its padding.** -/
theorem transformed_eq (bytes : List Byte) :
    (transformed bytes).flatten = bytes ++ padding (bytes.length % 64) bytes.length ∧
      ∀ block ∈ transformed bytes, block.length = 64 := by
  have hrest : (bytes.drop (bytes.length / 64 * 64)).length = bytes.length % 64 := by
    rw [List.length_drop]
    omega
  have htail := tailBlocks_eq (hrest ▸ Nat.mod_lt _ (by decide)) bytes.length
  rw [hrest] at htail
  have htransformed : transformed bytes =
      blocksOf 64 bytes ++ tailBlocks (bytes.drop (bytes.length / 64 * 64)) bytes.length := rfl
  rw [htransformed]
  constructor
  · rw [List.flatten_append, htail.1, flatten_blocksOf, ← List.append_assoc,
      List.take_append_drop]
  · exact List.forall_mem_append.mpr ⟨fun block => length_of_mem_blocksOf, htail.2⟩

theorem messageBits_padding (bytes : List Byte) :
    messageBits (bytes ++ padding (bytes.length % 64) bytes.length) =
      padded 32 (messageBits bytes) := by
  set paddedSize := if bytes.length % 64 < 56 then 64 else 128 with hsize
  have hlt : bytes.length % 64 < 64 := Nat.mod_lt _ (by decide)
  have hroom : bytes.length % 64 + 9 ≤ paddedSize ∧ paddedSize < bytes.length % 64 + 73 ∧
      paddedSize % 64 = 0 := by
    rw [hsize]
    split <;> omega
  have hzeros : zeros 32 (messageBits bytes).length =
      7 + 8 * (paddedSize - 9 - bytes.length % 64) := by
    refine zeros_eq ?_ (by omega)
    rw [length_messageBits]
    change _ % _ = _ % _
    omega
  have hone : messageBits [0x80] = true :: List.replicate 7 false := rfl
  rw [padded, hzeros, padding, ← hsize, ← List.singleton_append, messageBits_append,
    messageBits_append, messageBits_append, hone, messageBits_replicate_zero,
    messageBits_lengthBytes, length_messageBits, ← List.replicate_append_replicate]
  simp only [List.append_assoc, List.cons_append]

/-! ## The writes to the buffer -/

/-- What `sha256` writes to the buffer, by index and in order, the indices computed as
`std::size_t`: the rest, the one bit and the bytes of the length. -/
def tailWrites (rest : List Byte) (size paddedSize : ℕ) : List (UInt64 × Byte) :=
  (rest.zipIdx.map fun entry => (UInt64.ofNat entry.2, entry.1)) ++
    (UInt64.ofNat rest.length, 0x80) ::
      (List.range 8).map fun index =>
        (UInt64.ofNat paddedSize - 1 - UInt64.ofNat index,
          ((UInt64.ofNat size * 8) >>> (UInt64.ofNat index * 8)).toUInt8)

/-- One write. -/
def write (tail : List Byte) (entry : UInt64 × Byte) : List Byte := tail.set entry.1.toNat entry.2

theorem toNat_lengthIndex {paddedSize index : ℕ} (hindex : index < paddedSize)
    (hsize : paddedSize ≤ 128) :
    (UInt64.ofNat paddedSize - 1 - UInt64.ofNat index).toNat = paddedSize - 1 - index := by
  have hpadded : (UInt64.ofNat paddedSize).toNat = paddedSize :=
    UInt64.toNat_ofNat_of_lt' (hsize.trans_lt (by decide))
  have hindex' : (UInt64.ofNat index).toNat = index :=
    UInt64.toNat_ofNat_of_lt' ((hindex.trans_le hsize).trans (by decide))
  have hone : (UInt64.ofNat paddedSize - 1).toNat = paddedSize - 1 := by
    have hle : (1 : UInt64).toNat ≤ (UInt64.ofNat paddedSize).toNat := by
      rw [hpadded]
      exact Nat.one_le_of_lt hindex
    rw [UInt64.toNat_sub_of_le _ _ (UInt64.le_iff_toNat_le.mpr hle), hpadded]
    rfl
  rw [UInt64.toNat_sub_of_le _ _ (UInt64.le_iff_toNat_le.mpr (by omega)), hone, hindex']

/-- Every write is within the buffer. -/
theorem tailWrites_lt {rest : List Byte} (h : rest.length < 64) (size : ℕ) {paddedSize : ℕ}
    (hroom : rest.length + 9 ≤ paddedSize) (hsize : paddedSize ≤ 128) :
    ∀ entry ∈ tailWrites rest size paddedSize, entry.1.toNat < 128 := by
  have hrest : ∀ index ≤ rest.length, (UInt64.ofNat index).toNat < 128 := fun index hindex => by
    rw [UInt64.toNat_ofNat_of_lt' (hindex.trans_lt (h.trans (by decide)))]
    omega
  rw [tailWrites, List.forall_mem_append, List.forall_mem_cons]
  refine ⟨?_, hrest _ le_rfl, ?_⟩
  · rintro _ hentry
    obtain ⟨⟨value, index⟩, hmem, rfl⟩ := List.mem_map.mp hentry
    have hlt := List.snd_lt_of_mem_zipIdx hmem
    exact hrest index (by omega)
  · rintro _ hentry
    obtain ⟨index, hindex, rfl⟩ := List.mem_map.mp hentry
    have hlt : index < 8 := List.mem_range.mp hindex
    rw [toNat_lengthIndex (by omega) hsize]
    omega

/-- Copying bytes behind those copied already. -/
theorem foldl_write_zipIdx (copied rest : List Byte) (n : ℕ)
    (h : copied.length + rest.length < 2 ^ 64) :
    ((rest.zipIdx copied.length).map fun entry => (UInt64.ofNat entry.2, entry.1)).foldl write
        (copied ++ List.replicate (rest.length + n) 0) =
      copied ++ rest ++ List.replicate n 0 := by
  induction rest generalizing copied with
  | nil => simp
  | cons value rest ih =>
    rw [List.length_cons] at h
    have hwrite : write (copied ++ List.replicate ((value :: rest).length + n) 0)
        (UInt64.ofNat copied.length, value) =
          (copied ++ [value]) ++ List.replicate (rest.length + n) 0 := by
      rw [write, UInt64.toNat_ofNat_of_lt' (by change _ < 2 ^ 64; omega), List.length_cons,
        Nat.add_right_comm, List.replicate_succ, List.set_append_right _ _ le_rfl, Nat.sub_self,
        List.set_cons_zero, List.append_assoc, List.singleton_append]
    have hcopied : copied.length + 1 = (copied ++ [value]).length := by simp
    rw [List.zipIdx_cons, List.map_cons, List.foldl_cons, hwrite, hcopied, ih _ (by simp; omega)]
    simp

/-- The writes leave what `paddedTail` says. -/
theorem foldl_write_eq {rest : List Byte} (h : rest.length < 64) (size : ℕ) {paddedSize : ℕ}
    (hroom : rest.length + 9 ≤ paddedSize) (hsize : paddedSize ≤ 128) :
    (tailWrites rest size paddedSize).foldl write (List.replicate 128 0) =
      paddedTail rest size paddedSize := by
  have hcopy := foldl_write_zipIdx [] rest (128 - rest.length)
    (by rw [List.length_nil]; omega)
  rw [List.nil_append, List.nil_append, List.length_nil, Nat.add_sub_of_le (by omega)] at hcopy
  have hone : (UInt64.ofNat rest.length).toNat = rest.length :=
    UInt64.toNat_ofNat_of_lt' (h.trans (by decide))
  rw [tailWrites, List.foldl_append, hcopy, List.foldl_cons, List.foldl_map, paddedTail]
  simp only [write, hone]
  refine List.foldl_ext _ _ _ fun tail index hindex => ?_
  have hlt : index < 8 := List.mem_range.mp hindex
  rw [toNat_lengthIndex (by omega) hsize]

/-! ## The digest -/

theorem foldl_transform_eq (s : State) {blocks : List (List Byte)}
    (h : ∀ block ∈ blocks, block.length = 64) :
    (blocks.foldl transform s).registers =
      (blocks.map messageBits).foldl SecureHash.sha256.compress s.registers := by
  induction blocks generalizing s with
  | nil => rfl
  | cons block blocks ih =>
    rw [List.foldl_cons, ih _ fun b hb => h b (List.mem_cons_of_mem _ hb),
      transform_eq s (h block List.mem_cons_self), List.map_cons, List.foldl_cons]

/-- **`sha256` is the hash of the standard.**  A message shorter than `2 ^ 61` bytes has a digest,
and `sha256` returns it; the blocks it passes to `transform` are the padded message, and the
writes that build the last ones stay in the buffer. -/
theorem sha256_conforms {bytes : List Byte} (h : bytes.length < 2 ^ 61) :
    SecureHash.sha256.digest (messageBits bytes) = some (messageBits (sha256 bytes)) ∧
      sha256 bytes = ((transformed bytes).foldl transform initialState).bytes ∧
      (∀ block ∈ transformed bytes, block.length = 64) ∧
      messageBits (transformed bytes).flatten = padded 32 (messageBits bytes) ∧
      let rest := bytes.drop (bytes.length / 64 * 64)
      let paddedSize := if rest.length < 56 then 64 else 128
      (tailWrites rest bytes.length paddedSize).foldl write (List.replicate 128 0) =
          paddedTail rest bytes.length paddedSize ∧
        ∀ entry ∈ tailWrites rest bytes.length paddedSize, entry.1.toNat < 128 := by
  obtain ⟨hflatten, hblocks⟩ := transformed_eq bytes
  have hpadded : messageBits (transformed bytes).flatten = padded 32 (messageBits bytes) := by
    rw [hflatten, messageBits_padding]
  have hrest : (bytes.drop (bytes.length / 64 * 64)).length < 64 := by
    rw [List.length_drop]
    omega
  refine ⟨?_, sha256_eq bytes, hblocks, hpadded, foldl_write_eq hrest _ ?_ ?_,
    tailWrites_lt hrest _ ?_ ?_⟩
  have hbitBlocks : ∀ block ∈ (transformed bytes).map messageBits, block.length = 16 * 32 := by
    rintro block hblock
    obtain ⟨b, hb, rfl⟩ := List.mem_map.mp hblock
    rw [length_messageBits, hblocks b hb]
  · rw [Hash.digest, if_pos (by rw [length_messageBits]; omega), ← hpadded, messageBits_flatten,
      blocksOf_flatten (by decide) hbitBlocks, ← initialState_eq, ← foldl_transform_eq _ hblocks,
      ← messageBits_bytes, ← sha256_eq]
  all_goals split <;> omega

/-- The three bytes of the known answer. -/
theorem sha256_conforms_abc :
    SecureHash.sha256.digest (messageBits (ascii "abc")) =
      some (messageBits (sha256 (ascii "abc"))) :=
  (sha256_conforms (by decide)).1

example : sha256Hex (ascii "abc") =
    ascii "ba7816bf8f01cfea414140de5dae2223b00361a396177a9cb410ff61f20015ad" := by decide +kernel

end Sha256

end FacLpr

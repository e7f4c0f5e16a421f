import Mathlib.Data.List.Basic
import Mathlib.Data.UInt

/-!
# Foundations/Memory — writes to a byte memory, and words read back

A list of writes is carried out in order (`applyWrites`).  When no two of them overlap the memory
`Holds` every one afterwards, in whatever order they were made — so a reader is proved right
against the writes alone.  Records are sequences of little-endian 32-bit words (`WireStruct`).
-/

namespace FacLpr

/-- A byte memory. -/
abbrev Memory := ℕ → UInt8

/-- A write: an offset and the bytes stored from there on. -/
abbrev Write := ℕ × List UInt8

namespace Write

/-- The end of the range a write covers. -/
def finish (w : Write) : ℕ := w.1 + w.2.length

/-- Two writes cover no common byte. -/
def Disjoint (v w : Write) : Prop := v.finish ≤ w.1 ∨ w.finish ≤ v.1

end Write

/-- `std::memcpy` of the bytes of a write. -/
def applyWrite (mem : Memory) (w : Write) : Memory := fun i =>
  if w.1 ≤ i ∧ i < w.finish then w.2.getD (i - w.1) 0 else mem i

def applyWrites (mem : Memory) (ws : List Write) : Memory := ws.foldl applyWrite mem

/-- The memory holds a write: it reads its bytes back. -/
def HoldsWrite (mem : Memory) (w : Write) : Prop := ∀ i (h : i < w.2.length), mem (w.1 + i) = w.2[i]

/-- The memory holds every write. -/
def Holds (mem : Memory) (ws : List Write) : Prop := ∀ w ∈ ws, HoldsWrite mem w

@[simp] theorem holds_nil (mem : Memory) : Holds mem [] := fun _ h => by cases h

@[simp] theorem holds_append {mem : Memory} {ws ws' : List Write} :
    Holds mem (ws ++ ws') ↔ Holds mem ws ∧ Holds mem ws' := List.forall_mem_append

@[simp] theorem holds_cons {mem : Memory} {w : Write} {ws : List Write} :
    Holds mem (w :: ws) ↔ HoldsWrite mem w ∧ Holds mem ws := List.forall_mem_cons

/-- A write leaves every byte outside its range alone. -/
theorem applyWrite_of_notMem {mem : Memory} {w : Write} {i : ℕ} (h : i < w.1 ∨ w.finish ≤ i) :
    applyWrite mem w i = mem i := if_neg (by omega)

/-- A memory holds the write just made. -/
theorem holdsWrite_applyWrite (mem : Memory) (w : Write) : HoldsWrite (applyWrite mem w) w := by
  intro i hi
  have hin : w.1 ≤ w.1 + i ∧ w.1 + i < w.finish := by
    unfold Write.finish
    omega
  rw [applyWrite, if_pos hin, Nat.add_sub_cancel_left]
  simp [hi]

/-- A disjoint write does not disturb what the memory holds. -/
theorem HoldsWrite.applyWrite {mem : Memory} {v w : Write} (h : HoldsWrite mem v)
    (hd : v.Disjoint w) : HoldsWrite (applyWrite mem w) v := by
  intro i hi
  have hlt : v.1 + i < v.finish := Nat.add_lt_add_left hi _
  have hout : v.1 + i < w.1 ∨ w.finish ≤ v.1 + i := by
    rcases hd with hd | hd
    · exact Or.inl (lt_of_lt_of_le hlt hd)
    · exact Or.inr (Nat.le_add_right_of_le hd)
  rw [applyWrite_of_notMem hout, h i hi]

/-- Disjoint writes do not disturb what the memory holds. -/
theorem HoldsWrite.applyWrites {mem : Memory} {v : Write} {ws : List Write} (h : HoldsWrite mem v)
    (hd : ∀ w ∈ ws, v.Disjoint w) : HoldsWrite (applyWrites mem ws) v := by
  induction ws generalizing mem with
  | nil => exact h
  | cons w ws ih =>
    exact ih (h.applyWrite (hd w List.mem_cons_self)) fun w' hw' =>
      hd w' (List.mem_cons_of_mem _ hw')

/-- **The memory holds every write** once pairwise disjoint writes are made. -/
theorem holds_applyWrites (mem : Memory) {ws : List Write} (hd : ws.Pairwise Write.Disjoint) :
    Holds (applyWrites mem ws) ws := by
  induction ws generalizing mem with
  | nil => exact holds_nil _
  | cons w ws ih =>
    obtain ⟨hhead, htail⟩ := List.pairwise_cons.mp hd
    exact holds_cons.mpr ⟨(holdsWrite_applyWrite mem w).applyWrites hhead, ih _ htail⟩

/-- **A byte no write covers keeps its value.** -/
theorem applyWrites_of_notMem {mem : Memory} {ws : List Write} {i : ℕ}
    (h : ∀ w ∈ ws, i < w.1 ∨ w.finish ≤ i) : applyWrites mem ws i = mem i := by
  induction ws generalizing mem with
  | nil => rfl
  | cons w ws ih =>
    rw [applyWrites, List.foldl_cons, ← applyWrites,
      ih fun w' hw' => h w' (List.mem_cons_of_mem _ hw'),
      applyWrite_of_notMem (h w List.mem_cons_self)]

theorem applyWrites_append (mem : Memory) (ws ws' : List Write) :
    applyWrites mem (ws ++ ws') = applyWrites (applyWrites mem ws) ws' := List.foldl_append

/-! ## Words -/

/-- The little-endian bytes of a word. -/
def wordBytes (w : UInt32) : List UInt8 :=
  [UInt8.ofNat w.toNat, UInt8.ofNat (w.toNat / 2 ^ 8), UInt8.ofNat (w.toNat / 2 ^ 16),
    UInt8.ofNat (w.toNat / 2 ^ 24)]

def readWord (mem : Memory) (offset : ℕ) : UInt32 :=
  UInt32.ofNat ((mem offset).toNat + (mem (offset + 1)).toNat * 2 ^ 8 +
    (mem (offset + 2)).toNat * 2 ^ 16 + (mem (offset + 3)).toNat * 2 ^ 24)

/-- A word is read back from the memory that holds its bytes. -/
theorem readWord_eq {mem : Memory} {offset : ℕ} {w : UInt32}
    (h : HoldsWrite mem (offset, wordBytes w)) : readWord mem offset = w := by
  have h0 : mem offset = _ := h 0 (by simp [wordBytes])
  have h1 : mem (offset + 1) = _ := h 1 (by simp [wordBytes])
  have h2 : mem (offset + 2) = _ := h 2 (by simp [wordBytes])
  have h3 : mem (offset + 3) = _ := h 3 (by simp [wordBytes])
  have hw := w.toNat_lt
  rw [readWord, h0, h1, h2, h3]
  apply UInt32.toNat_inj.mp
  simp [wordBytes]
  omega

/-- The bytes of a sequence of words. -/
def wordsBytes (ws : List UInt32) : List UInt8 := ws.flatMap wordBytes

@[simp] theorem length_wordsBytes (ws : List UInt32) : (wordsBytes ws).length = 4 * ws.length := by
  induction ws with
  | nil => rfl
  | cons w ws ih =>
    rw [wordsBytes, List.flatMap_cons, List.length_append, ← wordsBytes, ih, List.length_cons]
    simp only [wordBytes, List.length_cons, List.length_nil]
    omega

def readWords (mem : Memory) (offset count : ℕ) : List UInt32 :=
  (List.range count).map fun k => readWord mem (offset + 4 * k)

/-- A part of a write is held where it lies. -/
theorem HoldsWrite.of_append {mem : Memory} {offset : ℕ} {xs ys : List UInt8}
    (h : HoldsWrite mem (offset, xs ++ ys)) :
    HoldsWrite mem (offset, xs) ∧ HoldsWrite mem (offset + xs.length, ys) := by
  constructor
  · intro i hi
    have := h i (by simp only [List.length_append] at *; omega)
    simpa [List.getElem_append_left hi] using this
  · intro i hi
    have := h (xs.length + i) (by simp only [List.length_append] at *; omega)
    simpa [List.getElem_append_right, Nat.add_assoc] using this

/-- **A sequence of words is read back.** -/
theorem readWords_eq {mem : Memory} {offset : ℕ} {ws : List UInt32}
    (h : HoldsWrite mem (offset, wordsBytes ws)) : readWords mem offset ws.length = ws := by
  induction ws generalizing offset with
  | nil => rfl
  | cons w ws ih =>
    obtain ⟨hhead, htail⟩ : HoldsWrite mem (offset, wordBytes w) ∧
        HoldsWrite mem (offset + (wordBytes w).length, wordsBytes ws) := HoldsWrite.of_append h
    have hshift : ∀ k, offset + 4 * (k + 1) = offset + 4 + 4 * k := fun k => by omega
    rw [readWords, List.length_cons, List.range_succ_eq_map, List.map_cons, List.map_map]
    refine congrArg₂ List.cons (readWord_eq hhead) ?_
    have hlen : (wordBytes w).length = 4 := rfl
    have hrest := ih htail
    rw [readWords, hlen] at hrest
    simpa only [Function.comp_def, Nat.succ_eq_add_one, hshift] using hrest

/-! ## Records -/

/-- A C struct of 32-bit fields: how it is laid out in words, and read back. -/
class WireStruct (T : Type) where
  words : ℕ
  encode : T → List UInt32
  decode : List UInt32 → T
  length_encode : ∀ t, (encode t).length = words
  decode_encode : ∀ t, decode (encode t) = t

namespace WireStruct

variable (T : Type) [WireStruct T]

/-- `sizeof(T)`. -/
def size : ℕ := 4 * words T

/-- The struct at an offset of the memory. -/
def read (mem : Memory) (offset : ℕ) : T := decode (readWords mem offset (words T))

variable {T}

/-- The object representation of a struct. -/
def bytes (t : T) : List UInt8 := wordsBytes (encode t)

@[simp] theorem length_bytes (t : T) : (bytes t).length = size T := by
  rw [bytes, length_wordsBytes, length_encode, size]

/-- **A struct is read back from the memory that holds it.** -/
theorem read_eq {mem : Memory} {offset : ℕ} {t : T} (h : HoldsWrite mem (offset, bytes t)) :
    read T mem offset = t := by
  rw [read, ← length_encode t, readWords_eq h, decode_encode]

end WireStruct

end FacLpr

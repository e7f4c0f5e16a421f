import FacLpr.Foundations.Text
import Mathlib.Data.Char
import Mathlib.Data.List.Basic

/-!
# Foundations/UnicodeText — Python's strings

A `str` is a list of code points (`Unicode`).  Its bytes in UTF-8 (`utf8`) say which it is
(`utf8_injective`), and an ASCII byte stands in them for its own character only
(`mem_of_mem_utf8`).
-/

namespace FacLpr

/-- A `str`, of code points that are no surrogates. -/
abbrev Unicode := List Char

namespace Unicode

/-- `str.isspace` of one character. -/
def isSpace (c : Char) : Bool :=
  let code := c.val
  (0x09 ≤ code && code ≤ 0x0D) || (0x1C ≤ code && code ≤ 0x20) || code == 0x85 || code == 0xA0 ||
    code == 0x1680 || (0x2000 ≤ code && code ≤ 0x200A) || code == 0x2028 || code == 0x2029 ||
    code == 0x202F || code == 0x205F || code == 0x3000

/-- `str.strip`. -/
def strip (t : Unicode) : Unicode := ((t.dropWhile isSpace).reverse.dropWhile isSpace).reverse

/-- A string encoded in UTF-8. -/
def utf8 (t : Unicode) : Text := t.flatMap String.utf8EncodeChar

@[simp] theorem utf8_eq_nil {t : Unicode} : utf8 t = [] ↔ t = [] := by
  rw [utf8, List.flatMap_eq_nil_iff]
  constructor
  · intro h
    rcases List.eq_nil_or_concat t with rfl | ⟨front, c, rfl⟩
    · rfl
    · have hbytes := congrArg List.length (h c (by simp))
      rw [String.length_utf8EncodeChar] at hbytes
      exact absurd hbytes c.utf8Size_pos.ne'
  · rintro rfl c hc
    exact absurd hc List.not_mem_nil

/-- **A string** is read off its bytes. -/
theorem utf8_injective : Function.Injective utf8 := by
  intro t t' h
  have hbytes : t.utf8Encode = t'.utf8Encode := congrArg List.toByteArray h
  rw [← String.toByteArray_ofList, ← String.toByteArray_ofList, String.toByteArray_inj] at hbytes
  exact String.ofList_injective hbytes

/-- A byte of several is no ASCII byte. -/
theorem le_ofNat_add {n m : ℕ} (hm : 128 ≤ m) (hn : n + m < 256) :
    (0x80 : Byte) ≤ UInt8.ofNat (n + m) := by
  rw [UInt8.le_iff_toNat_le, UInt8.toNat_ofNat', Nat.mod_eq_of_lt hn]
  exact hm.trans (Nat.le_add_left m n)

/-- The bytes of a character are ASCII for an ASCII character only. -/
theorem eq_of_mem_utf8EncodeChar {b : Byte} {c : Char} (hb : b < 0x80)
    (h : b ∈ String.utf8EncodeChar c) : c.val = b.toUInt32 := by
  have hnone (n m : ℕ) (hm : 128 ≤ m) (hn : n + m < 256) : b ≠ UInt8.ofNat (n + m) := by
    rintro rfl
    exact absurd hb (not_lt.mpr (le_ofNat_add hm hn))
  dsimp only [String.utf8EncodeChar] at h
  split_ifs at h with h1 h2 h3
  · obtain rfl := List.mem_singleton.mp h
    refine UInt32.toNat_inj.mp ?_
    rw [UInt8.toNat_toUInt32, UInt8.toNat_ofNat', Nat.mod_eq_of_lt (by omega)]
  · simp only [List.mem_cons, List.not_mem_nil, or_false] at h
    rcases h with h | h <;> exact absurd h (hnone _ _ (by omega) (by omega))
  · simp only [List.mem_cons, List.not_mem_nil, or_false] at h
    rcases h with h | h | h <;> exact absurd h (hnone _ _ (by omega) (by omega))
  · simp only [List.mem_cons, List.not_mem_nil, or_false] at h
    rcases h with h | h | h | h <;> exact absurd h (hnone _ _ (by omega) (by omega))

/-- An ASCII byte is written for its own character only. -/
theorem mem_of_mem_utf8 {b : Byte} {c : Char} (hb : b < 0x80) (hc : c.val = b.toUInt32)
    {t : Unicode} (h : b ∈ utf8 t) : c ∈ t := by
  obtain ⟨d, hd, hbyte⟩ := List.mem_flatMap.mp h
  rwa [Char.ext (hc.trans (eq_of_mem_utf8EncodeChar hb hbyte).symm)]

end Unicode

end FacLpr

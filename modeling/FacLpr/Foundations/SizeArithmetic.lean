import FacLpr.Foundations.Binary
import FacLpr.Foundations.Text

/-!
# Foundations/SizeArithmetic — the wrapping arithmetic of sizes

A `std::size_t` is a `UInt64`, so sums and products wrap.  The guards programs write before them
compare with a quotient and a difference; they hold exactly when the exact result is no size
(`mulOverflows_eq_false`, `addOverflows_eq_false`).  A `ByteSpan` has as many bytes as its size says.
-/

namespace FacLpr

/-- `std::numeric_limits<std::size_t>::max()`, as a size. -/
def maxSize : UInt64 := UInt64.ofNat sizeMax

/-- `left != 0 && right > max / left`. -/
def mulOverflows (left right : UInt64) : Bool := decide (left ≠ 0 ∧ maxSize / left < right)

/-- `right > max - left`. -/
def addOverflows (left right : UInt64) : Bool := decide (maxSize - left < right)

@[simp] theorem toNat_maxSize : maxSize.toNat = sizeMax := rfl

theorem toNat_le_sizeMax (size : UInt64) : size.toNat ≤ sizeMax := by
  have := size.toNat_lt
  unfold sizeMax
  omega

theorem mod_of_le_sizeMax {n : ℕ} (h : n ≤ sizeMax) : n % 2 ^ 64 = n := by
  unfold sizeMax at h
  exact Nat.mod_eq_of_lt (by omega)

/-- **The quotient guard is exact.** -/
theorem mulOverflows_eq_false {left right : UInt64} :
    mulOverflows left right = false ↔ left.toNat * right.toNat ≤ sizeMax := by
  rw [mulOverflows, decide_eq_false_iff_not, UInt64.lt_iff_toNat_lt, UInt64.toNat_div,
    toNat_maxSize]
  by_cases hzero : left = 0
  · simp [hzero]
  · have hpos : 0 < left.toNat :=
      Nat.pos_of_ne_zero fun h => hzero (UInt64.toNat_inj.mp h)
    rw [not_and, Nat.not_lt, Nat.le_div_iff_mul_le hpos, Nat.mul_comm]
    exact ⟨fun h => h hzero, fun h _ => h⟩

/-- **The difference guard is exact.** -/
theorem addOverflows_eq_false {left right : UInt64} :
    addOverflows left right = false ↔ left.toNat + right.toNat ≤ sizeMax := by
  have hle := toNat_le_sizeMax left
  have hsub : (maxSize - left).toNat = sizeMax - left.toNat :=
    UInt64.toNat_sub_of_le _ _ (UInt64.le_iff_toNat_le.mpr hle)
  rw [addOverflows, decide_eq_false_iff_not, UInt64.lt_iff_toNat_lt, hsub]
  omega

theorem toNat_mul_of_le {left right : UInt64} (h : left.toNat * right.toNat ≤ sizeMax) :
    (left * right).toNat = left.toNat * right.toNat := by
  rw [UInt64.toNat_mul, mod_of_le_sizeMax h]

theorem toNat_add_of_le {left right : UInt64} (h : left.toNat + right.toNat ≤ sizeMax) :
    (left + right).toNat = left.toNat + right.toNat := by
  rw [UInt64.toNat_add, mod_of_le_sizeMax h]

/-- A sum below a size does not wrap. -/
theorem toNat_add_of_lt {left right size : UInt64} (h : left.toNat + right.toNat < size.toNat) :
    (left + right).toNat = left.toNat + right.toNat :=
  toNat_add_of_le (h.le.trans (toNat_le_sizeMax size))

/-- A number below a size is one. -/
theorem toNat_ofNat_of_lt {n : ℕ} {size : UInt64} (h : n < size.toNat) :
    (UInt64.ofNat n).toNat = n := by
  rw [UInt64.toNat_ofNat', mod_of_le_sizeMax (h.le.trans (toNat_le_sizeMax size))]

theorem toNat_le_max (a b : UInt64) : a.toNat ≤ (max a b).toNat ∧ b.toNat ≤ (max a b).toNat := by
  rw [show max a b = if a ≤ b then b else a from rfl]
  split
  · rename_i h
    exact ⟨UInt64.le_iff_toNat_le.mp h, le_refl _⟩
  · rename_i h
    rw [UInt64.le_iff_toNat_le] at h
    exact ⟨le_refl _, by omega⟩

theorem toNat_min (a b : UInt64) : (min a b).toNat = min a.toNat b.toNat := by
  rw [show min a b = if a ≤ b then a else b from rfl]
  split
  · rename_i h
    exact (min_eq_left (UInt64.le_iff_toNat_le.mp h)).symm
  · rename_i h
    rw [UInt64.le_iff_toNat_le] at h
    exact (min_eq_right (by omega)).symm

theorem toNat_sub_one {size : UInt64} (h : size ≠ 0) : (size - 1).toNat = size.toNat - 1 := by
  have hpos : 0 < size.toNat := Nat.pos_of_ne_zero fun h' => h (UInt64.toNat_inj.mp h')
  exact UInt64.toNat_sub_of_le _ _ (UInt64.le_iff_toNat_le.mpr hpos)

theorem size_ne_zero_iff {size : UInt64} : size ≠ 0 ↔ size.toNat ≠ 0 :=
  not_congr UInt64.toNat_inj.symm

/-! ## Spans -/

/-- What has a size, and parts. -/
class Span (S : Type) where
  size : S → UInt64
  /-- `subspan(offset, count)`. -/
  subspan : S → UInt64 → UInt64 → S

/-- `std::span<const std::byte>`: as many bytes as a size can count. -/
@[ext] structure ByteSpan where
  bytes : List Byte
  fits : bytes.length ≤ sizeMax

namespace ByteSpan

def empty : ByteSpan := ⟨[], Nat.zero_le _⟩

def size (span : ByteSpan) : UInt64 := UInt64.ofNat span.bytes.length

@[simp] theorem toNat_size (span : ByteSpan) : span.size.toNat = span.bytes.length := by
  rw [size, UInt64.toNat_ofNat', mod_of_le_sizeMax span.fits]

/-- `subspan(offset, count)`. -/
def subspan (span : ByteSpan) (offset count : UInt64) : ByteSpan where
  bytes := (span.bytes.drop offset.toNat).take count.toNat
  fits := (List.length_take_le _ _).trans (toNat_le_sizeMax count)

instance : Span ByteSpan := ⟨size, subspan⟩

@[simp] theorem bytes_subspan (span : ByteSpan) (offset count : UInt64) :
    (span.subspan offset count).bytes = (span.bytes.drop offset.toNat).take count.toNat := rfl

end ByteSpan

end FacLpr

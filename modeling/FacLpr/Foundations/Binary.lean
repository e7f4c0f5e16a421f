import Mathlib.Algebra.Group.Nat.Defs

/-!
# Foundations/Binary — the machine's number formats

The limits of the integer types, and the IEEE formats bit by bit.  The C interface copies floats
bytewise, so there a `float` is its bit pattern (`Binary32`) and a `double` is its own (`Binary64`).
The comparisons below are read off the sign, exponent and significand fields; `Binary64.narrow` is
the conversion to `float`, rounding to nearest even.
-/

namespace FacLpr

/-- `std::numeric_limits<std::size_t>::max()`. -/
def sizeMax : ℕ := 2 ^ 64 - 1

/-- `std::numeric_limits<std::uint32_t>::max()`. -/
def uint32Max : ℕ := 2 ^ 32 - 1

/-- A `float`, as its bit pattern. -/
structure Binary32 where
  bits : UInt32
  deriving DecidableEq

/-- A `double`, as its bit pattern. -/
structure Binary64 where
  bits : UInt64
  deriving DecidableEq

namespace Binary32

/-- The bit pattern without the sign. -/
def magnitude (v : Binary32) : ℕ := v.bits.toNat % 2 ^ 31

def sign (v : Binary32) : Bool := decide (2 ^ 31 ≤ v.bits.toNat)

/-- The pattern of infinity; larger magnitudes are NaNs. -/
def infinity : ℕ := 0x7F800000

/-- `std::isfinite`. -/
def isFinite (v : Binary32) : Bool := v.magnitude < infinity

/-- `value < 0.0F`, of a finite value. -/
def isNegative (v : Binary32) : Bool := v.sign && v.magnitude != 0

theorem isNegative_eq_false {v : Binary32} :
    v.isNegative = false ↔ v.sign = false ∨ v.magnitude = 0 := by
  cases h : v.sign <;> simp [isNegative, h]

/-- `value > 1.0F`, of a finite value. -/
def exceedsOne (v : Binary32) : Bool := !v.sign && decide (0x3F800000 < v.magnitude)

end Binary32

namespace Binary64

/-- The bit pattern without the sign. -/
def magnitude (v : Binary64) : ℕ := v.bits.toNat % 2 ^ 63

def sign (v : Binary64) : Bool := decide (2 ^ 63 ≤ v.bits.toNat)

/-- The pattern of infinity; larger magnitudes are NaNs. -/
def infinity : ℕ := 0x7FF0000000000000

/-- `std::isfinite`. -/
def isFinite (v : Binary64) : Bool := v.magnitude < infinity

/-- `value < 0.0`, of a finite value. -/
def isNegative (v : Binary64) : Bool := v.sign && v.magnitude != 0

theorem isNegative_eq_false {v : Binary64} :
    v.isNegative = false ↔ v.sign = false ∨ v.magnitude = 0 := by
  cases h : v.sign <;> simp [isNegative, h]

/-- `value > static_cast<double>(std::numeric_limits<float>::max())`, of a finite value. -/
def exceedsFloat (v : Binary64) : Bool := !v.sign && decide (0x47EFFFFFE0000000 < v.magnitude)

/-- The exponent field. -/
def exponent (v : Binary64) : ℕ := v.magnitude / 2 ^ 52

/-- The significand with its hidden bit: a finite value is
`± significand * 2 ^ (max exponent 1 - 1075)`. -/
def significand (v : Binary64) : ℕ :=
  if v.exponent = 0 then v.magnitude % 2 ^ 52 else v.magnitude % 2 ^ 52 + 2 ^ 52

/-- `n / 2 ^ shift`, rounded to nearest, ties to even. -/
def roundShift (n shift : ℕ) : ℕ :=
  let quotient := n / 2 ^ shift
  let twice := 2 * (n % 2 ^ shift)
  if twice < 2 ^ shift then quotient
  else if twice = 2 ^ shift then quotient + quotient % 2
  else quotient + 1

/-- The magnitude of the nearest `float`.  A `float` in units of `2 ^ (unit - 149)` has a 24-bit
significand, or is subnormal when `unit` is zero; a carry out of the significand moves into the
exponent field, and out of that to infinity. -/
def narrowMagnitude (v : Binary64) : ℕ :=
  if infinity < v.magnitude then 0x7FC00000
  else if v.magnitude = infinity then Binary32.infinity
  else
    let unit := max v.exponent 1 + Nat.log2 v.significand - 949
    let shift := unit + 926 - max v.exponent 1
    min (unit * 2 ^ 23 + roundShift v.significand shift) Binary32.infinity

/-- `static_cast<float>(value)`. -/
def narrow (v : Binary64) : Binary32 :=
  ⟨UInt32.ofNat ((if v.sign then 2 ^ 31 else 0) + v.narrowMagnitude)⟩

end Binary64

end FacLpr

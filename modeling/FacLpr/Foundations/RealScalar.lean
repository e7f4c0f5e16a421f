import FacLpr.Foundations.Scalar
import Mathlib.Analysis.SpecialFunctions.Complex.Arg

/-!
# Foundations/RealScalar — the arithmetic of the reals, with its roots and angles

Where the engine calls `<cmath>` exact arithmetic is that of the reals.
-/

namespace FacLpr

/-- Exact arithmetic on the reals. -/
@[reducible] noncomputable def realScalar : Scalar ℝ where
  toBEq := inferInstance
  isFinite _ := true
  ofRat q := q
  decLt := inferInstance
  decLe := inferInstance

/-- The functions of `<cmath>` the geometry is written in, and its conversions. -/
class GeometryArithmetic (F D : Type) where
  /-- `std::hypot`. -/
  hypot : F → F → F
  /-- `std::abs`, of a `float`. -/
  absolute : F → F
  /-- `std::abs`, of a `double`. -/
  absoluteWide : D → D
  /-- `std::atan2(y, x)`. -/
  atan2 : D → D → D
  widen : F → D
  narrow : D → F

/-- The exact functions: the angle of a vector is its argument. -/
noncomputable instance : GeometryArithmetic ℝ ℝ where
  hypot x y := √(x ^ 2 + y ^ 2)
  absolute x := |x|
  absoluteWide x := |x|
  atan2 y x := Complex.arg ⟨x, y⟩
  widen x := x
  narrow x := x

end FacLpr

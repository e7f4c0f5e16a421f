import Mathlib.Order.Defs.LinearOrder
import Mathlib.Data.List.Lex
import Mathlib.Data.UInt

/-!
# Foundations/Text — byte strings

A `std::string` is a list of bytes.  `std::string::compare` is lexicographic on `unsigned char`,
which is the order `List UInt8` carries once the bytes are linearly ordered by value.
-/

namespace FacLpr

/-- Bytes are ordered by value. -/
instance instLinearOrderUInt8 : LinearOrder UInt8 where
  le_refl a := UInt8.le_refl a
  le_trans a b c := UInt8.le_trans
  le_antisymm a b := UInt8.le_antisymm
  le_total a b := UInt8.le_total a b
  lt_iff_le_not_ge a b := by
    simp only [UInt8.lt_iff_toNat_lt, UInt8.le_iff_toNat_le]
    omega
  toDecidableLE := inferInstance
  toDecidableLT := inferInstance
  toDecidableEq := inferInstance

instance instLawfulBEqUInt8 : LawfulBEq UInt8 := inferInstance

/-- One `char` of the source, read as `unsigned char`. -/
abbrev Byte := UInt8

/-- A `std::string`. -/
abbrev Text := List Byte

/-- The byte of an ASCII character literal. -/
def byte (c : Char) : Byte := c.val.toUInt8

/-- The bytes of an ASCII string literal. -/
def ascii (s : String) : Text := s.toList.map byte

/-- The bytes of a text as they stand in a message. -/
def messageOf (text : Text) : String := String.ofList (text.map fun byte => Char.ofNat byte.toNat)

end FacLpr

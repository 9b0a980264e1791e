/-! Numbers of the query language have 53 significant bits. Every finite one is a whole number of
units, the unit being the least positive number, so comparing and rounding need only natural
numbers. A finite number is kept in its one normal form, and equality of forms is equality of
numbers up to the sign of zero. -/
namespace RangeIndex

namespace Number

/-- The significand and scale of a finite number, which is `mantissa * 2 ^ shift` units. All 53
bits are used unless the number is too small for that. -/
structure Finite where
  negative : Bool
  mantissa : Nat
  shift : Nat
  mantissa_lt : mantissa < Nat.pow 2 53
  shift_le : shift ≤ 2045
  normal : shift = 0 ∨ Nat.pow 2 52 ≤ mantissa
deriving DecidableEq

/-- How many units make one. -/
def unitsPerOne : Nat := Nat.pow 2 1074

namespace Finite

/-- The magnitude in units. -/
def units (x : Finite) : Nat := x.mantissa * Nat.pow 2 x.shift

/-- The number in units. -/
def signedUnits (x : Finite) : Int := if x.negative then -(x.units : Int) else x.units

/-- Whether the number has no fractional part. -/
def isWhole (x : Finite) : Bool := x.units % unitsPerOne == 0

/-- The magnitude without its fractional part. -/
def wholePart (x : Finite) : Nat := x.units / unitsPerOne

end Finite

end Number

/-- A number: finite, beyond all finite ones on either side, or the result of a numeral that
names no number. -/
inductive Number where
  | nan
  | infinite (negative : Bool)
  | finite (value : Number.Finite)
deriving DecidableEq

namespace Number

/-- How two numbers compare; a non-number compares with nothing, itself included. -/
def compare? : Number → Number → Option Ordering
  | .nan, _ | _, .nan => none
  | .finite a, .finite b => some (compare a.signedUnits b.signedUnits)
  | .infinite a, .infinite b => some (if a = b then .eq else if a then .lt else .gt)
  | .infinite negative, .finite _ => some (if negative then .lt else .gt)
  | .finite _, .infinite negative => some (if negative then .gt else .lt)

/-- Numeric equality: both signs of zero are equal and a non-number equals nothing. -/
def equals (a b : Number) : Bool := compare? a b == some .eq

end Number

end RangeIndex

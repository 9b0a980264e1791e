import RangeIndex.Number.Rounding

/-! A number is written with the fewest digits that read back as it. The search tries decimal
grids from coarse to fine and takes the first one with a point that reads back; if both
neighbours of the number on that grid do, the nearer is taken, and halfway the upper. -/
namespace RangeIndex.Number.Finite

/-- Whether a decimal is rounded to this number. -/
def readsBack (x : Finite) (digits : Nat) (exponent : Int) : Bool :=
  decide (ofDecimal x.negative digits exponent = .finite x)

/-- The point taken on the grid of step `10 ^ exponent`, if one reads back. -/
def pointOn (x : Finite) (exponent : Int) : Option Nat :=
  let p := x.units * Nat.pow 10 (-exponent).toNat
  let q := unitsPerOne * Nat.pow 10 exponent.toNat
  let below := p / q
  match x.readsBack below exponent, x.readsBack (below + 1) exponent with
  | false, false => none
  | true, false => some below
  | false, true => some (below + 1)
  | true, true => some (if 2 * (p % q) < q then below else below + 1)

/-- The search over the given number of grids, from one downwards. When they are exhausted the
number's exact decimal is taken. -/
def search (x : Finite) : Nat → Int → Nat × Int
  | 0, _ => (x.units * Nat.pow 5 1074, -1074)
  | grids + 1, exponent =>
    match x.pointOn exponent with
    | some digits => (digits, exponent)
    | none => search x grids (exponent - 1)

/-- A power of ten at least as large as the magnitude, from the count of its bits. -/
def coarsest (x : Finite) : Int := ((x.units.log2 : Int) - 1073) * 30103 / 100000 + 1

/-- The digits and exponent a magnitude is written with. -/
def shortest (x : Finite) : Nat × Int :=
  if x.units = 0 then (0, 0) else x.search 20 x.coarsest

/-- A chosen grid point reads back. -/
theorem pointOn_readsBack {x : Finite} {exponent : Int} {digits : Nat}
    (chosen : x.pointOn exponent = some digits) : x.readsBack digits exponent = true := by
  unfold pointOn at chosen
  dsimp only at chosen
  split at chosen
  · simp at chosen
  · next lower _ => cases chosen; exact lower
  · next upper => cases chosen; exact upper
  · next lower upper =>
    split at chosen <;> cases chosen
    · exact lower
    · exact upper

end RangeIndex.Number.Finite

import RangeIndex.Number.Shortest

/-! Three ways to lay out the digits of a number. Plain text never has an exponent and shows a
point only before a fraction. Query text shows whole numbers of moderate size without a sign on
zero. Text inside messages always shows that a number is one, with a point or an exponent. -/
namespace RangeIndex.Number

/-- The text of a magnitude that is a whole number of powers of ten. -/
def wholeLayout (digits zeros : Nat) : String :=
  String.ofList (Nat.toDigits 10 digits ++ List.replicate zeros '0')

/-- The text of a magnitude with the given count of places after the point. -/
def fractionLayout (digits places : Nat) : String :=
  let shown := Nat.toDigits 10 digits
  let padded := List.replicate (places + 1 - shown.length) '0' ++ shown
  String.ofList
    (padded.take (padded.length - places) ++ '.' :: padded.drop (padded.length - places))

/-- The positional text of a magnitude. -/
def positional (digits : Nat) (exponent : Int) : String :=
  if 0 ≤ exponent then wholeLayout digits exponent.toNat
  else fractionLayout digits (-exponent).toNat

/-- The text of a magnitude as one digit, the remaining ones and a power of ten. -/
def scientific (digits : Nat) (exponent : Int) : String :=
  let shown := Nat.toDigits 10 digits
  let power := exponent + (shown.length - 1 : Nat)
  let rest := shown.drop 1
  String.ofList (shown.take 1 ++ (if rest.isEmpty then [] else '.' :: rest)) ++ "e" ++
    toString power

/-- The mark in front of a negative number. -/
def signText (negative : Bool) : String := if negative then "-" else ""

/-- The text of numbers without digits. -/
def infiniteText (negative : Bool) : String := signText negative ++ "inf"

/-- Plain text: shortest digits in positional notation. -/
def plain : Number → String
  | .nan => "NaN"
  | .infinite negative => infiniteText negative
  | .finite x => signText x.negative ++ positional x.shortest.1 x.shortest.2

/-- Whether a whole number is small enough to be written digit by digit: below `10 ^ 15`. -/
def Finite.isModerate (x : Finite) : Bool := decide (x.units < Nat.pow 10 15 * unitsPerOne)

/-- Query text: a moderate whole number as such, and any other number plainly. Both zeros are
written alike. -/
def queryText : Number → String
  | .finite x =>
    if x.isWhole && x.isModerate then
      signText (x.negative && x.wholePart != 0) ++ wholeLayout x.wholePart 0
    else plain (.finite x)
  | x => plain x

/-- Whether a magnitude is shown with a power of ten in messages: from `10 ^ 16` upwards, and
below `10 ^ -4` unless it is zero. -/
def Finite.isExtreme (x : Finite) : Bool :=
  decide (Nat.pow 10 16 * unitsPerOne ≤ x.units) ||
    (decide (0 < x.units) && decide (x.units * Nat.pow 10 4 < unitsPerOne))

/-- Text inside messages: whole numbers keep one place after the point. -/
def messageText : Number → String
  | .finite x =>
    let (digits, exponent) := x.shortest
    signText x.negative ++
      if x.isExtreme then scientific digits exponent
      else if 0 ≤ exponent then wholeLayout digits exponent.toNat ++ ".0"
      else fractionLayout digits (-exponent).toNat
  | x => plain x

end RangeIndex.Number

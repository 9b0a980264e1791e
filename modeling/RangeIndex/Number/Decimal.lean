import RangeIndex.Number.Rounding
import RangeIndex.Text.Blank
import RangeIndex.Text.Letter

/-! Reading numerals. A numeral is a run of digits with at most one point, an exponent if it has
one, and a sign if it has one; three words stand for the numbers without digits. -/
namespace RangeIndex.Number

open Text

/-- The number written with digits before and after a point. -/
def ofDigits (negative : Bool) (whole fraction : List Char) (exponent : Int) : Number :=
  ofDecimal negative (Nat.ofDigitChars 10 (whole ++ fraction) 0) (exponent - fraction.length)

/-- A sign in front of a text, when there is one: whether it is a minus, and the text after it. -/
def splitSign : List Char → Bool × List Char
  | '-' :: rest => (true, rest)
  | '+' :: rest => (false, rest)
  | text => (false, text)

/-- The digits at the start of a text and what follows them. -/
def splitDigits (text : List Char) : List Char × List Char :=
  (text.takeWhile isDigit, text.dropWhile isDigit)

/-- What follows the exponent mark: a signed run of digits and nothing else. -/
def readExponent (text : List Char) : Option Int :=
  let (negative, rest) := splitSign text
  match splitDigits rest with
  | ([], _) | (_, _ :: _) => none
  | (digits, []) =>
    let magnitude : Int := Nat.ofDigitChars 10 digits 0
    some (if negative then -magnitude else magnitude)

/-- The exponent at the end of a numeral, zero where none is written. -/
def readTail : List Char → Option Int
  | [] => some 0
  | mark :: rest => if mark = 'e' ∨ mark = 'E' then readExponent rest else none

/-- A numeral without its sign. A point needs a digit on at least one side. -/
def readUnsigned (negative : Bool) (text : List Char) : Option Number :=
  let (whole, rest) := splitDigits text
  let (fraction, rest) := match rest with
    | '.' :: rest => splitDigits rest
    | rest => ([], rest)
  if whole.isEmpty && fraction.isEmpty then none
  else (readTail rest).map fun exponent => ofDigits negative whole fraction exponent

/-- The words for numbers that have no digits, in letters of either case. -/
def readWord (negative : Bool) (text : List Char) : Option Number :=
  let word := String.ofList (text.map Char.toLower)
  if word = "inf" ∨ word = "infinity" then some (.infinite negative)
  else if word = "nan" then some .nan
  else none

/-- The number a numeral stands for. -/
def read (text : List Char) : Option Number :=
  let (negative, rest) := splitSign text
  readUnsigned negative rest <|> readWord negative rest

/-- The number a text stands for once the blanks around it are gone. -/
def readTrimmed (text : String) : Option Number := read (trim text.toList)

end RangeIndex.Number

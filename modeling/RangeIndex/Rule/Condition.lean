import RangeIndex.Location.Basic
import RangeIndex.Number.Decimal
import RangeIndex.Rule.Options
import RangeIndex.Text.Lowercase

/-! Conditions restrict a rule to elements with a certain attribute value. The same condition is
put to use twice: when an element is indexed its attribute is tested, and when a query is read a
predicate with the same operator and value is taken to imply it. -/
namespace RangeIndex

/-- An attribute with its value. -/
structure AttributeValue where
  name : QName
  value : String
deriving DecidableEq, Repr

/-- A requirement on one attribute. -/
structure Condition where
  subject : QName
  value : String
  operator : Operator := .eq
  caseSensitive : Bool := true
  numeric : Bool := false
deriving DecidableEq, Repr

namespace Operator

/-- The operator on an ordering, `none` being the comparison with a non-number. Only unequal
holds of a non-number, and the operators on text hold of no number. -/
def onOrdering : Operator → Option Ordering → Bool
  | .eq, order => order == some .eq
  | .ne, order => order != some .eq
  | .lt, order => order == some .lt
  | .gt, order => order == some .gt
  | .le, order => order == some .lt || order == some .eq
  | .ge, order => order == some .gt || order == some .eq
  | _, _ => false

/-- The operator on texts, which are ordered by their code points. Pattern matching is not
decided here and holds of nothing. -/
def onText (op : Operator) (actual expected : String) : Bool :=
  match op with
  | .eq => actual == expected
  | .ne => actual != expected
  | .lt => decide (actual < expected)
  | .gt => decide (expected < actual)
  | .le => !decide (expected < actual)
  | .ge => !decide (actual < expected)
  | .startsWith => expected.toList.isPrefixOf actual.toList
  | .endsWith => expected.toList.isSuffixOf actual.toList
  | .contains => Text.occursIn expected.toList actual.toList
  | .matches => false

end Operator

namespace Condition

/-- The path a predicate must compare to imply the condition: the attribute alone. -/
def path (condition : Condition) : Pattern := ⟨[.named condition.subject], false⟩

/-- A text as the condition compares it. -/
def fold (condition : Condition) (text : String) : String :=
  if condition.caseSensitive then text else Text.lowercase text

/-- Whether an attribute value meets the condition. A numeric condition is met only by
numerals. -/
def test (condition : Condition) (actual : String) : Bool :=
  if condition.numeric then
    match Number.readTrimmed actual, Number.readTrimmed condition.value with
    | some actual, some expected => condition.operator.onOrdering (actual.compare? expected)
    | _, _ => false
  else condition.operator.onText (condition.fold actual) (condition.fold condition.value)

/-- Whether an element with these attributes meets the condition. Of several attributes of the
name the first counts. -/
def holds (condition : Condition) (attributes : List AttributeValue) : Bool :=
  (attributes.find? fun a => a.name.same condition.subject).any fun a => condition.test a.value

/-- Whether a predicate that compares the attribute by an operator with a key implies the
condition: the operator must be the same, and so must the value. -/
def accepts (condition : Condition) (op : Operator) (key : String) : Bool :=
  if op ≠ condition.operator then false
  else if condition.numeric then
    match Number.readTrimmed key, Number.readTrimmed condition.value with
    | some key, some expected => key.equals expected
    | _, _ => false
  else condition.fold key == condition.fold condition.value

end Condition

end RangeIndex

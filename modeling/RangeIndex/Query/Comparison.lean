import RangeIndex.Number.Layout
import RangeIndex.Query.Focus
import RangeIndex.Rule.Condition

/-! Predicates an index could answer: one comparison of a plain relative path with a key that is
the same for every node. -/
namespace RangeIndex.Query

/-- The namespace of the functions that ask the index. -/
def rangeNamespace : String := "http://exist-db.org/xquery/range"

/-- A comparison of a path with a key, and the function that makes it unless an operator does. -/
structure Comparison where
  function : Option String
  path : Expr
  operator : Operator
  key : Expr

/-- The built-in functions that compare texts. -/
def textOperators : List (String × Operator) :=
  [("starts-with", .startsWith), ("ends-with", .endsWith), ("contains", .contains),
   ("matches", .matches)]

/-- Whether a label stands for the namespace of the functions that ask the index; the usual one
does without being declared. -/
def isRangeLabel (context : StaticContext) (label : String) : Bool :=
  label == "range" || context.bindings.resolve label == some rangeNamespace

/-- The operator a function of two arguments compares by. -/
def functionOperator? (context : StaticContext) (function : String) : Option Operator :=
  match builtin? function, splitLabel function with
  | some name, _ => textOperators.lookup name
  | none, (some label, name) =>
    if isRangeLabel context label then Operator.ofName? name else none
  | none, (none, _) => none

namespace Comparison

/-- The comparison an expression makes, if it makes one. -/
def of? (context : StaticContext) : Expr → Option Comparison
  | .binary left op right => op.comparison?.map fun operator => ⟨none, left, operator, right⟩
  | .call function [path, key] =>
    (functionOperator? context function).map fun operator => ⟨some function, path, operator, key⟩
  | _ => none

/-- The comparison a predicate makes. Several expressions in one predicate make none. -/
def ofPredicate? (context : StaticContext) : Predicate → Option Comparison
  | [item] => of? context item
  | _ => none

end Comparison

/-- The text of a literal. -/
def literalText? : Expr → Option String
  | .string value => some value
  | .number value => some value.queryText
  | _ => none

/-- A comparison an index could answer, with the pattern of its path. -/
structure PredicateShape where
  comparison : Comparison
  inner : Pattern

namespace PredicateShape

/-- The shape of a predicate: one comparison whose key does not depend on the context item and
whose path is plain. -/
def of? (context : StaticContext) (predicate : Predicate) : Option PredicateShape :=
  (Comparison.ofPredicate? context predicate).bind fun comparison =>
    if comparison.key.dependsOnContext then none
    else (innerPath? context.bindings comparison.path).map fun inner => ⟨comparison, inner⟩

/-- Whether the predicate implies a condition: it compares the attribute with a literal the
condition accepts. -/
def satisfies (shape : PredicateShape) (condition : Condition) : Bool :=
  shape.inner.same condition.path &&
    (literalText? shape.comparison.key).any (condition.accepts shape.comparison.operator)

end PredicateShape

end RangeIndex.Query

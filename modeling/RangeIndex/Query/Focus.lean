import RangeIndex.Query.StaticPath

/-! How an expression depends on where it is evaluated: on the context item, and on the position
of that item among the others. -/
namespace RangeIndex.Query

/-- The functions that read the context item, or its position, when they are called without
arguments. -/
def implicitReaders : List String :=
  ["position", "last", "name", "local-name", "namespace-uri", "node-name", "string", "number",
   "string-length", "normalize-space", "data", "root", "base-uri", "document-uri", "generate-id"]

mutual

/-- Whether the value of an expression may depend on the context item. The right side of a path
and a predicate are evaluated elsewhere, so they add nothing. -/
def Expr.dependsOnContext : Expr → Bool
  | .root | .context | .parent | .step _ => true
  | .string _ | .number _ | .var _ => false
  | .call function arguments =>
    if arguments.isEmpty then isBuiltin implicitReaders function
    else Expr.anyDependsOnContext arguments
  | .sequence items => Expr.anyDependsOnContext items
  | .path left _ => left.dependsOnContext
  | .filter inner _ => inner.dependsOnContext
  | .binary left _ right => left.dependsOnContext || right.dependsOnContext
  | .union left right => left.dependsOnContext || right.dependsOnContext
  | .negate inner => inner.dependsOnContext
  | .lookup ⟨entries, _⟩ => Expr.anyKeyDependsOnContext entries

/-- Whether one of the expressions may depend on the context item. -/
def Expr.anyDependsOnContext : List Expr → Bool
  | [] => false
  | x :: rest => x.dependsOnContext || Expr.anyDependsOnContext rest

/-- Whether one of the keys may depend on the context item. -/
def Expr.anyKeyDependsOnContext : List LookupEntry → Bool
  | [] => false
  | ⟨_, _, key⟩ :: rest => key.dependsOnContext || Expr.anyKeyDependsOnContext rest

end

/-- Whether a function tells the position of the context item or the number of items. -/
def isPositional (function : String) : Bool := isBuiltin ["position", "last"] function

mutual

/-- Whether a positional function is called anywhere in an expression. -/
def Expr.callsPosition : Expr → Bool
  | .path left right => left.callsPosition || right.callsPosition
  | .binary left _ right => left.callsPosition || right.callsPosition
  | .union left right => left.callsPosition || right.callsPosition
  | .step ⟨_, _, predicates⟩ => Expr.predicatesCallPosition predicates
  | .filter inner predicates => inner.callsPosition || Expr.predicatesCallPosition predicates
  | .negate inner => inner.callsPosition
  | .call function arguments => isPositional function || Expr.anyCallsPosition arguments
  | .sequence items => Expr.anyCallsPosition items
  | .lookup ⟨entries, _⟩ => Expr.anyKeyCallsPosition entries
  | .root | .context | .parent | .string _ | .number _ | .var _ => false

/-- Whether one of the expressions calls a positional function. -/
def Expr.anyCallsPosition : List Expr → Bool
  | [] => false
  | x :: rest => x.callsPosition || Expr.anyCallsPosition rest

/-- Whether one of the predicates calls a positional function. -/
def Expr.predicatesCallPosition : List (List Expr) → Bool
  | [] => false
  | p :: rest => Expr.anyCallsPosition p || Expr.predicatesCallPosition rest

/-- Whether one of the keys calls a positional function. -/
def Expr.anyKeyCallsPosition : List LookupEntry → Bool
  | [] => false
  | ⟨_, _, key⟩ :: rest => key.callsPosition || Expr.anyKeyCallsPosition rest

end

/-- The functions whose value is a truth value. -/
def truthFunctions : List String :=
  ["not", "true", "false", "boolean", "exists", "empty", "starts-with", "ends-with", "contains",
   "matches"]

/-- Whether an expression is known never to be a number. -/
def Expr.isNeverNumber : Expr → Bool
  | .binary _ op _ => op.comparison?.isSome || op == .and || op == .or
  | .call function _ => isBuiltin truthFunctions function
  | .path _ (.step _) => true
  | .root | .context | .parent | .step _ | .string _ => true
  | _ => false

/-- Whether a predicate may select by position. One that does filters among siblings, and cannot
be applied again to what a lookup finds. -/
def Predicate.mayDependOnPosition : Predicate → Bool
  | [item] => !item.isNeverNumber || item.callsPosition
  | _ => true

end RangeIndex.Query

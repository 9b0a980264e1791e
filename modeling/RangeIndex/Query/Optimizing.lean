import RangeIndex.Query.Rewriting

/-! Optimizing a query: every step with predicates at the right end of a path is rewritten by the
rules in effect where the path starts, after the expressions inside its predicates. -/
namespace RangeIndex.Query

/-- The rule sets in effect for the collections a path starts from. -/
def setsFor (registry : Registry) (static : StaticContext) (path : Expr) : List RuleSet :=
  let collections := (pathRoot? path).map (rootCollections static)
  (registry.inEffectFor (collections.getD [])).map (·.ruleSet)

/-- The replacement of the last step of a path, whose predicates have been seen to already. -/
def optimizeStep (registry : Registry) (static : StaticContext) (path : Expr) (step : Step) :
    Expr :=
  let sets := setsFor registry static path
  if sets.isEmpty then .step step
  else rewriteStep sets static (contextPath? static.bindings path) step

mutual

/-- The expression with all its steps seen to. Lookups are left as they are. -/
def Expr.optimizeWith (registry : Registry) (static : StaticContext) : Expr → Expr
  | .path left (.step ⟨axis, test, predicates⟩) =>
    let step := ⟨axis, test, Expr.optimizePredicates registry static predicates⟩
    .path (left.optimizeWith registry static)
      (if predicates.isEmpty then .step step
       else optimizeStep registry static (.path left (.step ⟨axis, test, predicates⟩)) step)
  | .path left right =>
    .path (left.optimizeWith registry static) (right.optimizeWith registry static)
  | .step ⟨axis, test, predicates⟩ =>
    .step ⟨axis, test, Expr.optimizePredicates registry static predicates⟩
  | .filter inner predicates =>
    .filter (inner.optimizeWith registry static)
      (Expr.optimizePredicates registry static predicates)
  | .binary left op right =>
    .binary (left.optimizeWith registry static) op (right.optimizeWith registry static)
  | .union left right =>
    .union (left.optimizeWith registry static) (right.optimizeWith registry static)
  | .negate inner => .negate (inner.optimizeWith registry static)
  | .call function arguments => .call function (Expr.optimizeAll registry static arguments)
  | .sequence items => .sequence (Expr.optimizeAll registry static items)
  | .root => .root
  | .context => .context
  | .parent => .parent
  | .string value => .string value
  | .number value => .number value
  | .var name => .var name
  | .lookup l => .lookup l

/-- The expressions of a list with their steps seen to. -/
def Expr.optimizeAll (registry : Registry) (static : StaticContext) : List Expr → List Expr
  | [] => []
  | x :: rest => x.optimizeWith registry static :: Expr.optimizeAll registry static rest

/-- The predicates of a list with their steps seen to. -/
def Expr.optimizePredicates (registry : Registry) (static : StaticContext) :
    List (List Expr) → List (List Expr)
  | [] => []
  | p :: rest =>
    Expr.optimizeAll registry static p :: Expr.optimizePredicates registry static rest

end

/-- The optimized form of a query. Without any publication there is nothing to do. -/
def optimize (registry : Registry) (static : StaticContext) (query : Expr) : Expr :=
  if registry.isEmpty then query else query.optimizeWith registry static

end RangeIndex.Query

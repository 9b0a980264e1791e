import RangeIndex.Query.Comparison
import RangeIndex.Rule.Resolution

/-! Turning the predicates of a step into one index lookup. Predicates are examined in order, and
each ends in one of three ways: the lookup serves it, a condition of the rule that serves a later
one implies it, or it stays as a filter on what the lookup finds. -/
namespace RangeIndex.Query

/-- What became of a predicate. -/
inductive Fate where
  /-- It stays as a filter. -/
  | residual
  /-- The lookup serves it by a field. -/
  | served (entry : LookupEntry)
  /-- A condition of the rule serving a later predicate implies it. -/
  | implied

/-- A predicate examined. -/
structure Examined where
  predicate : Predicate
  shape : Option PredicateShape
  fate : Fate

namespace Fate

def isImplied : Fate → Bool
  | .implied => true
  | _ => false

def entry? : Fate → Option LookupEntry
  | .served entry => some entry
  | _ => none

def isResidual : Fate → Bool
  | .residual => true
  | _ => false

end Fate

/-- The predicates that may imply conditions, under their places: those with a shape that no
condition has consumed yet. -/
def offeredFrom (earlier : List Examined) : List (Nat × PredicateShape) :=
  earlier.zipIdx.filterMap fun (examined, place) =>
    if examined.fate.isImplied then none else examined.shape.map fun shape => (place, shape)

/-- The examined predicates after those at the given places were consumed. -/
def consume (places : List Nat) (earlier : List Examined) : List Examined :=
  earlier.zipIdx.map fun (examined, place) =>
    if places.contains place then { examined with fate := .implied } else examined

/-- The lookup entry that serves a shape, and the places of the predicates consumed for it. The
rule has to cover the step itself, not just the path compared. -/
def serve? (sets : List RuleSet) (context : Pattern) (earlier : List Examined)
    (shape : PredicateShape) : Option (LookupEntry × List Nat) :=
  let location := context.joined shape.inner
  if location.isEmpty then none
  else do
    let resolution ←
      Resolution.resolve? sets PredicateShape.satisfies location (offeredFrom earlier)
    guard (resolution.rule.path.isMatch context)
    let field ← resolution.rule.fieldAt? location
    return (⟨field.name, shape.comparison.operator, shape.comparison.key⟩, resolution.consumed)

/-- Examine one more predicate. -/
def examine (sets : List RuleSet) (static : StaticContext) (context : Pattern)
    (earlier : List Examined) (predicate : Predicate) : List Examined :=
  let shape := PredicateShape.of? static predicate
  match shape.bind (serve? sets context earlier) with
  | some (entry, consumed) => consume consumed earlier ++ [⟨predicate, shape, .served entry⟩]
  | none => earlier ++ [⟨predicate, shape, .residual⟩]

/-- Examine predicates in order. -/
def examineAll (sets : List RuleSet) (static : StaticContext) (context : Pattern)
    (predicates : List Predicate) : List Examined :=
  predicates.foldl (examine sets static context) []

/-- The lookup, or the filtered lookup, that a step with a known context path is replaced by; none
when no predicate is served, or when one that stays may select by position. -/
def rewriteStep? (sets : List RuleSet) (static : StaticContext) (context : Pattern)
    (step : Step) : Option Expr :=
  let examined := examineAll sets static context step.predicates
  let entries := examined.filterMap fun e => e.fate.entry?
  let residual := (examined.filter fun e => e.fate.isResidual).map (·.predicate)
  if residual.any Predicate.mayDependOnPosition then none
  else match FieldLookup.ofEntries? entries step with
    | .error _ => none
    | .ok lookup =>
      some (if residual.isEmpty then .lookup lookup else .filter (.lookup lookup) residual)

/-- The expression a step is replaced by, itself where its context path is unknown. -/
def rewriteStep (sets : List RuleSet) (static : StaticContext) (context : Option Pattern)
    (step : Step) : Expr :=
  (context.bind fun context => rewriteStep? sets static context step).getD (.step step)

end RangeIndex.Query

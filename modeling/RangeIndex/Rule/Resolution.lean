import RangeIndex.Collection.Registry
import RangeIndex.Rule.Assignment

/-! Which rule applies to a predicate. Of the complex rules that cover the predicate's location
the one with the most conditions is preferred, provided that every condition is implied by a
predicate of its own among those offered. -/
namespace RangeIndex

/-- The rule chosen and the numbers of the predicates its conditions were given. -/
structure Resolution where
  rule : Rule
  consumed : List Nat
deriving DecidableEq, Repr

namespace Resolution

/-- The complex rules that cover a location, those with more conditions first. Rules with equally
many stay in the order of their sets, and within a set in their own. Sets of internal collections
have no part in this. -/
def candidates (sets : List RuleSet) (location : Pattern) : List Rule :=
  ((sets.filter fun set => !Collection.isSystem set.collection).flatMap fun set =>
    (set.covering location).map (·.2)).mergeSort fun a b => decide (b.conditions.length ≤ a.conditions.length)

/-- The resolution by a rule with conditions, if they can be given predicates. -/
def byConditions? {α : Type} (satisfies : α → Condition → Bool) (offered : List (Nat × α))
    (rule : Rule) : Option Resolution :=
  if rule.conditions.isEmpty then none
  else (Assignment.assign satisfies rule.conditions offered).map fun consumed => ⟨rule, consumed⟩

/-- The resolution of a location: by the first rule whose conditions can be given predicates,
and otherwise by the first rule without conditions. -/
def resolve? {α : Type} (sets : List RuleSet) (satisfies : α → Condition → Bool)
    (location : Pattern) (offered : List (Nat × α)) : Option Resolution :=
  let rules := candidates sets location
  match rules.findSome? (byConditions? satisfies offered) with
  | some resolution => some resolution
  | none => (rules.find? fun rule => rule.conditions.isEmpty).map fun rule => ⟨rule, []⟩

end Resolution

end RangeIndex

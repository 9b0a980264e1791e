import RangeIndex.Rule.Condition

/-! Giving every condition of a rule a predicate of its own. Conditions are served in order, each
by the first predicate that is free or can be freed: a predicate already taken is freed when the
condition holding it finds another. Each search visits a predicate at most once. -/
namespace RangeIndex.Assignment

/-- The state of a search: which condition holds which place, the latest entry of a place
counting, and the places already visited. -/
structure Search where
  holders : List (Nat × Nat) := []
  visited : List Nat := []
deriving DecidableEq, Repr

namespace Search

/-- The condition holding a place. -/
def holder? (search : Search) (place : Nat) : Option Nat := search.holders.lookup place

/-- Give a place to a condition. -/
def give (search : Search) (place condition : Nat) : Search :=
  { search with holders := (place, condition) :: search.holders }

/-- Mark a place as visited. -/
def visit (search : Search) (place : Nat) : Search :=
  { search with visited := place :: search.visited }

@[simp] theorem holder?_give (search : Search) (place condition other : Nat) :
    (search.give place condition).holder? other =
      if other = place then some condition else search.holder? other := by
  by_cases same : other = place
  · simp [holder?, give, same]
  · simp [holder?, give, List.lookup_cons, beq_eq_false_iff_ne.mpr same, same]

@[simp] theorem holder?_visit (search : Search) (place other : Nat) :
    (search.visit place).holder? other = search.holder? other := rfl

@[simp] theorem mem_visited_visit (search : Search) (place other : Nat) :
    other ∈ (search.visit place).visited ↔ other = place ∨ other ∈ search.visited := by
  simp [visit]

end Search

/-- Offer places to a condition in order, until one is free or is freed by the given way of
moving its holder elsewhere. -/
def offerEach (move : Nat → Search → Bool × Search) (condition : Nat) :
    List Nat → Search → Bool × Search
  | [], search => (false, search)
  | place :: rest, search =>
    if search.visited.contains place then offerEach move condition rest search
    else
      let (free, search) := match search.holder? place with
        | none => (true, search.visit place)
        | some other => move other (search.visit place)
      if free then (true, search.give place condition)
      else offerEach move condition rest search

/-- Find a place for a condition, moving holders along chains of at most the given length. -/
def augment (suitable : Nat → List Nat) : Nat → Nat → Search → Bool × Search
  | 0, _, search => (false, search)
  | length + 1, condition, search =>
    offerEach (augment suitable length) condition (suitable condition) search

/-- Find places for a list of conditions one after the other, each in a search of its own. -/
def serveAll (suitable : Nat → List Nat) (length : Nat) : List Nat → Search → Option Search
  | [], search => some search
  | condition :: rest, search =>
    match augment suitable length condition { search with visited := [] } with
    | (true, search) => serveAll suitable length rest search
    | (false, _) => none

/-- The places of the offered predicates that satisfy a condition, in order. -/
def suitablePlaces {α : Type} (satisfies : α → Condition → Bool) (offered : List (Nat × α))
    (condition : Condition) : List Nat :=
  (offered.zipIdx.filter fun offer => satisfies offer.1.2 condition).map (·.2)

/-- The predicates given to the conditions of a rule, by the numbers they are offered under and
in ascending order, if every condition can have one of its own. A chain that moves holders ends
before it visits a place twice, so it is no longer than the offer. -/
def assign {α : Type} (satisfies : α → Condition → Bool) (conditions : List Condition)
    (offered : List (Nat × α)) : Option (List Nat) :=
  let suitable (condition : Nat) := match conditions[condition]? with
    | some condition => suitablePlaces satisfies offered condition
    | none => []
  (serveAll suitable (offered.length + 1) (List.range conditions.length) {}).map fun search =>
    (offered.zipIdx.filterMap fun offer =>
      if (search.holder? offer.2).isSome then some offer.1.1 else none).mergeSort

end RangeIndex.Assignment

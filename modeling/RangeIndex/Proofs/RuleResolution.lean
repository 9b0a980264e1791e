import Mathlib.Logic.IsEmpty.Basic
import RangeIndex.Proofs.ConditionAssignment
import RangeIndex.Rule.Resolution

/-! The rule a resolution chooses comes from a set that may take part, stores fields at or below
the location asked for, and has each of its conditions met by an offer of its own. A rule without
conditions is no exception: it consumes nothing. -/
namespace RangeIndex.RuleResolution
open ConditionAssignment Resolution

theorem mem_covering_numbered {set : RuleSet} {location : Pattern} {place : Nat} {rule : Rule} :
    (place, rule) ∈ set.covering location ↔
      set.rules[place]? = some rule ∧ rule.isComplex = true ∧ rule.covers location = true := by
  simp only [RuleSet.covering, RuleSet.numbered, List.mem_filter, List.mem_map, Prod.exists,
    List.mem_zipIdx_iff_getElem?, Bool.and_eq_true]
  constructor
  · rintro ⟨⟨_, _, found, same⟩, complex, covers⟩
    cases same
    exact ⟨found, complex, covers⟩
  · rintro ⟨found, complex, covers⟩
    exact ⟨⟨rule, place, found, rfl⟩, complex, covers⟩

theorem mem_covering {set : RuleSet} {location : Pattern} {rule : Rule} :
    rule ∈ (set.covering location).map (·.2) ↔
      rule ∈ set.rules ∧ rule.isComplex = true ∧ rule.covers location = true := by
  rw [List.mem_iff_getElem? (l := set.rules), ← exists_and_right]
  simp only [List.mem_map, Prod.exists, exists_eq_right, mem_covering_numbered]

/-- Candidates are the complex rules that cover the location, out of sets in public collections. -/
theorem mem_candidates {sets : List RuleSet} {location : Pattern} {rule : Rule} :
    rule ∈ candidates sets location ↔
      ∃ set ∈ sets, Collection.isSystem set.collection = false ∧ rule ∈ set.rules ∧
        rule.isComplex = true ∧ rule.covers location = true := by
  simp only [candidates, List.mem_mergeSort, List.mem_flatMap, List.mem_filter, mem_covering,
    Bool.not_eq_true', and_assoc]

section Resolving
variable {α : Type} {sets : List RuleSet} {satisfies : α → Condition → Bool} {location : Pattern}
  {offered : List (Nat × α)} {resolution : Resolution}

theorem by_conditions_own_offers {rule : Rule}
    (found : byConditions? satisfies offered rule = some resolution) :
    resolution.rule = rule ∧
      ∃ slot, OwnOffers satisfies resolution.rule.conditions offered resolution.consumed slot := by
  unfold byConditions? at found
  split at found
  · cases found
  · obtain ⟨consumed, assigned, rfl⟩ := Option.map_eq_some_iff.mp found
    exact ⟨rfl, assign_gives_own_offers assigned⟩

theorem no_conditions_own_offers {rule : Rule} (unconditional : rule.conditions.isEmpty = true) :
    ∃ slot, OwnOffers satisfies rule.conditions offered [] slot := by
  have vacuous : IsEmpty (Fin rule.conditions.length) := by
    rw [List.isEmpty_iff.mp unconditional]
    exact Fin.isEmpty
  refine ⟨isEmptyElim, ?_, isEmptyElim, ?_⟩
  · intro condition
    exact isEmptyElim condition
  · intro number
    constructor
    · intro member
      cases member
    · rintro ⟨condition, _⟩
      exact isEmptyElim condition

/-- Whatever is resolved is a candidate all of whose conditions have offers of their own. -/
theorem resolve_own_offers (found : resolve? sets satisfies location offered = some resolution) :
    resolution.rule ∈ candidates sets location ∧
      ∃ slot, OwnOffers satisfies resolution.rule.conditions offered resolution.consumed slot := by
  unfold resolve? at found
  dsimp only at found
  split at found
  · rename_i conditional search
    cases found
    obtain ⟨rule, member, byRule⟩ := List.exists_of_findSome?_eq_some search
    obtain ⟨same, offers⟩ := by_conditions_own_offers byRule
    exact ⟨same ▸ member, offers⟩
  · obtain ⟨rule, search, rfl⟩ := Option.map_eq_some_iff.mp found
    have unconditional : rule.conditions.isEmpty = true := by simpa using List.find?_some search
    exact ⟨List.mem_of_find?_eq_some search, no_conditions_own_offers unconditional⟩

end Resolving

section Offers
variable {α β : Type} (satisfies : β → Condition → Bool) (view : α → β) (offered : List (Nat × α))

theorem suitable_places_map (condition : Condition) :
    Assignment.suitablePlaces satisfies (offered.map (Prod.map id view)) condition =
      Assignment.suitablePlaces (fun offer => satisfies (view offer)) offered condition := by
  simp only [Assignment.suitablePlaces, List.zipIdx_map, List.filter_map, List.map_map]
  rfl

theorem assign_map (conditions : List Condition) :
    Assignment.assign satisfies conditions (offered.map (Prod.map id view)) =
      Assignment.assign (fun offer => satisfies (view offer)) conditions offered := by
  simp only [Assignment.assign, suitable_places_map, List.length_map, List.zipIdx_map,
    List.filterMap_map]
  rfl

/-- Only what conditions see of the offers decides on a resolution. -/
theorem resolve_map (sets : List RuleSet) (location : Pattern) :
    resolve? sets satisfies location (offered.map (Prod.map id view)) =
      resolve? sets (fun offer => satisfies (view offer)) location offered := by
  have byRule : byConditions? satisfies (offered.map (Prod.map id view)) =
      byConditions? (fun offer => satisfies (view offer)) offered := by
    funext rule
    rw [byConditions?, byConditions?, assign_map]
  rw [resolve?, resolve?, byRule]

end Offers

end RangeIndex.RuleResolution

import RangeIndex.Proofs.ConditionMatching
import RangeIndex.Proofs.RuleResolution

/-! All rules that cover a location compete for it in one order: more conditions before fewer, then
earlier sets before later ones, then earlier rules of a set. The winner is the first whose conditions
can all be given offers of their own. Resolution sorts by the number of conditions alone and looks for
rules with and without conditions in two passes; since the sort is stable and rules without conditions
come last, this finds the winner. -/
namespace RangeIndex.RuleRanking
open Assignment ConditionAssignment ConditionMatching Resolution RuleResolution

/-- A rule with the place of its set among the sets and its own place in the set. -/
structure Entrant where
  set : Nat
  place : Nat
  rule : Rule

/-- A rule competes for a location when it is a complex rule declared there, in a public set, and its
node or one of its fields is at the location. -/
structure Competes (sets : List RuleSet) (location : Pattern) (entrant : Entrant) : Prop where
  declared : ∃ set, sets[entrant.set]? = some set ∧ Collection.isSystem set.collection = false ∧
    set.rules[entrant.place]? = some entrant.rule
  complex : entrant.rule.isComplex = true
  covers : entrant.rule.path.isMatch location = true ∨
    ∃ field ∈ entrant.rule.fields, field.path.isMatch location = true

/-- Declared in an earlier set, or earlier in the same one. -/
def DeclaredBefore (first second : Entrant) : Prop :=
  first.set < second.set ∨ first.set = second.set ∧ first.place < second.place

/-- More specific, or as specific and declared before. -/
def Precedes (first second : Entrant) : Prop :=
  second.rule.conditions.length < first.rule.conditions.length ∨
    second.rule.conditions.length = first.rule.conditions.length ∧ DeclaredBefore first second

/-- Every condition of a rule can have an offer of its own that satisfies it. A rule without
conditions asks for nothing. -/
def Satisfiable {α : Type} (satisfies : α → Condition → Bool) (offered : List (Nat × α))
    (rule : Rule) : Prop :=
  ∃ slot : Fin rule.conditions.length → Fin offered.length, Function.Injective slot ∧
    ∀ condition, satisfies (offered.get (slot condition)).2 (rule.conditions.get condition) = true

/-- The first of the satisfiable rules that compete for a location. -/
structure Wins {α : Type} (sets : List RuleSet) (satisfies : α → Condition → Bool)
    (location : Pattern) (offered : List (Nat × α)) (entrant : Entrant) : Prop where
  competes : Competes sets location entrant
  satisfiable : Satisfiable satisfies offered entrant.rule
  first : ∀ other, Competes sets location other → Satisfiable satisfies offered other.rule →
    other = entrant ∨ Precedes entrant other

section Sorting
variable {α : Type} {le : α → α → Bool} {before : α → α → Prop} {items : List α}

/-- A stable sort keeps those items in their order that it ranks alike. Among numbered items nothing is
a tie, since what is ranked alike is ranked by its number. -/
theorem sorted_stably (trans : ∀ a b c, le a b = true → le b c = true → le a c = true)
    (total : ∀ a b, (le a b || le b a) = true) (ordered : items.Pairwise before) :
    (items.mergeSort le).Pairwise fun first second =>
      le first second = true ∧ (le second first = true → before first second) := by
  let numbered := items.zipIdx.mergeSort (List.zipIdxLE le)
  have ranked : numbered.Pairwise fun first second => List.zipIdxLE le first second = true :=
    List.pairwise_mergeSort (List.zipIdxLE_trans trans) (List.zipIdxLE_total total) _
  have apart : numbered.Pairwise fun first second => first.2 ≠ second.2 := by
    have numbers : (items.zipIdx.map (·.2)).Nodup := by
      rw [List.zipIdx_map_snd]
      exact List.nodup_range'
    exact ((List.mergeSort_perm _ _).pairwise_iff Ne.symm).mpr (List.pairwise_map.mp numbers)
  have numberOf : ∀ entry ∈ numbered, items[entry.2]? = some entry.1 := fun entry member =>
    List.mem_zipIdx_iff_getElem?.mp (List.mem_mergeSort.mp member)
  rw [← List.mergeSort_zipIdx, List.pairwise_map]
  refine (ranked.and apart).imp_of_mem ?_
  rintro ⟨first, number⟩ ⟨second, other⟩ firstMember secondMember ⟨follows, differ⟩
  have found : items[number]? = some first := numberOf _ firstMember
  have foundOther : items[other]? = some second := numberOf _ secondMember
  obtain ⟨bound, rfl⟩ := List.getElem?_eq_some_iff.mp found
  obtain ⟨otherBound, rfl⟩ := List.getElem?_eq_some_iff.mp foundOther
  simp only [List.zipIdxLE] at follows
  split at follows
  · next forward =>
    refine ⟨forward, fun back => ?_⟩
    have upTo : number ≤ other := by simpa [back] using follows
    exact List.pairwise_iff_getElem.mp ordered number other bound otherBound
      (Nat.lt_of_le_of_ne upTo differ)
  · cases follows

/-- What a search through a list in order finds comes from the first item that has a result. -/
theorem found_in_first {β : Type} {find? : α → Option β} {result : β}
    (ordered : items.Pairwise before) (found : items.findSome? find? = some result) :
    ∃ item ∈ items, find? item = some result ∧
      ∀ other ∈ items, (find? other).isSome = true → other = item ∨ before item other := by
  obtain ⟨ahead, item, behind, rfl, gives, passed⟩ := List.findSome?_eq_some_iff.mp found
  refine ⟨item, by simp, gives, fun other member some => ?_⟩
  rcases List.mem_append.mp member with member | member
  · simp [passed other member] at some
  rcases List.mem_cons.mp member with same | member
  · exact .inl same
  · exact .inr (List.rel_of_pairwise_cons (List.pairwise_append.mp ordered).2.1 member)

theorem find_some_iff_first {β : Type} {find? : α → Option β} {result : β}
    (ordered : items.Pairwise before) (asymm : ∀ a b, before a b → ¬ before b a) :
    items.findSome? find? = some result ↔
      ∃ item ∈ items, find? item = some result ∧
        ∀ other ∈ items, (find? other).isSome = true → other = item ∨ before item other := by
  constructor
  · exact found_in_first ordered
  · rintro ⟨item, member, gives, first⟩
    have some : (items.findSome? find?).isSome = true :=
      List.findSome?_isSome_iff.mpr ⟨item, member, Option.isSome_of_eq_some gives⟩
    obtain ⟨other, found⟩ := Option.isSome_iff_exists.mp some
    obtain ⟨winner, winnerMember, winnerGives, winnerFirst⟩ := found_in_first ordered found
    have same : winner = item := by
      rcases first winner winnerMember (Option.isSome_of_eq_some winnerGives) with same | after
      · exact same
      rcases winnerFirst item member (Option.isSome_of_eq_some gives) with same | ahead
      · exact same.symm
      · exact absurd ahead (asymm _ _ after)
    rw [found, ← winnerGives, same, gives]

end Sorting

section Ranking
variable {sets : List RuleSet} {location : Pattern} {entrant : Entrant}

/-- The rules that compete, in the order they are declared in. -/
def entrants (sets : List RuleSet) (location : Pattern) : List Entrant :=
  (sets.zipIdx.filter fun numbered => !Collection.isSystem numbered.1.collection).flatMap
    fun numbered => (numbered.1.covering location).map fun declared =>
      ⟨numbered.2, declared.1, declared.2⟩

/-- The order of candidates by the number of their conditions. -/
def asSpecific (first second : Entrant) : Bool :=
  decide (second.rule.conditions.length ≤ first.rule.conditions.length)

/-- The rules that compete, in the order in which they are preferred. -/
def ranked (sets : List RuleSet) (location : Pattern) : List Entrant :=
  (entrants sets location).mergeSort asSpecific

theorem covers_iff {rule : Rule} :
    rule.covers location = true ↔
      rule.path.isMatch location = true ∨
        ∃ field ∈ rule.fields, field.path.isMatch location = true := by
  simp only [Rule.covers, Bool.or_eq_true, List.any_eq_true, FieldRule.covers]

theorem mem_entrants : entrant ∈ entrants sets location ↔ Competes sets location entrant := by
  obtain ⟨number, place, rule⟩ := entrant
  simp only [entrants, List.mem_flatMap, List.mem_filter, List.mem_map, Prod.exists,
    List.mem_zipIdx_iff_getElem?, Bool.not_eq_true', mem_covering_numbered, covers_iff]
  constructor
  · rintro ⟨set, _, ⟨found, isPublic⟩, _, _, ⟨declared, complex, covers⟩, same⟩
    cases same
    exact ⟨⟨set, found, isPublic, declared⟩, complex, covers⟩
  · rintro ⟨⟨set, found, isPublic, declared⟩, complex, covers⟩
    exact ⟨set, number, ⟨found, isPublic⟩, place, rule, ⟨declared, complex, covers⟩, rfl⟩

theorem mem_ranked : entrant ∈ ranked sets location ↔ Competes sets location entrant :=
  List.mem_mergeSort.trans mem_entrants

/-- Sets are gone through in order, and in each set its rules. -/
theorem entrants_in_order : (entrants sets location).Pairwise DeclaredBefore := by
  have inOrder {β : Type} (items : List β) :
      items.zipIdx.Pairwise fun first second => first.2 < second.2 := by
    rw [← List.pairwise_map, List.zipIdx_map_snd]
    exact List.pairwise_lt_range'
  refine List.pairwise_flatMap.mpr ⟨?_, ?_⟩
  · rintro ⟨set, number⟩ _
    have declared : (set.covering location).Pairwise fun first second => first.1 < second.1 := by
      refine List.Pairwise.filter _ ?_
      rw [RuleSet.numbered, List.pairwise_map]
      exact inOrder set.rules
    exact List.pairwise_map.mpr (declared.imp fun earlier => .inr ⟨rfl, earlier⟩)
  · refine ((inOrder sets).filter _).imp ?_
    rintro ⟨set, number⟩ ⟨other, later⟩ earlier first firstMember second secondMember
    obtain ⟨_, _, rfl⟩ := List.mem_map.mp firstMember
    obtain ⟨_, _, rfl⟩ := List.mem_map.mp secondMember
    exact .inl earlier

theorem ranked_in_order : (ranked sets location).Pairwise Precedes := by
  have trans (a b c : Entrant) : asSpecific a b = true → asSpecific b c = true →
      asSpecific a c = true := by
    simp only [asSpecific, decide_eq_true_eq]
    omega
  have total (a b : Entrant) : (asSpecific a b || asSpecific b a) = true := by
    simp only [asSpecific, Bool.or_eq_true, decide_eq_true_eq]
    omega
  refine (sorted_stably trans total entrants_in_order).imp ?_
  simp only [asSpecific, decide_eq_true_eq, Precedes]
  rintro first second ⟨fewer, ordered⟩
  rcases Nat.lt_or_eq_of_le fewer with less | same
  · exact .inl less
  · exact .inr ⟨same, ordered same.ge⟩

/-- The candidates of a resolution are the rules that compete, in the order of their rank. -/
theorem candidates_eq_ranked : candidates sets location = (ranked sets location).map (·.rule) := by
  have numbered : (sets.filter fun set => !Collection.isSystem set.collection) =
      (sets.zipIdx.filter fun numbered => !Collection.isSystem numbered.1.collection).map (·.1) := by
    conv_lhs => rw [← List.zipIdx_map_fst 0 sets, List.filter_map]
    rfl
  have rules : (entrants sets location).map (·.rule) =
      (sets.filter fun set => !Collection.isSystem set.collection).flatMap fun set =>
        (set.covering location).map (·.2) := by
    simp only [entrants, List.map_flatMap, List.map_map, numbered, List.flatMap_map]
    rfl
  rw [candidates, ← rules, ranked]
  refine (List.map_mergeSort ?_).symm
  intro _ _ _ _
  rfl

end Ranking

section Serving
variable {α : Type} {satisfies : α → Condition → Bool} {offered : List (Nat × α)} {rule : Rule}
  {rules : List Rule}

/-- The resolution by any rule, if its conditions can be given predicates. -/
def serve? (satisfies : α → Condition → Bool) (offered : List (Nat × α)) (rule : Rule) :
    Option Resolution :=
  (assign satisfies rule.conditions offered).map fun consumed => ⟨rule, consumed⟩

/-- Nothing is asked for, and nothing is consumed. -/
theorem assign_nothing : assign satisfies [] offered = some [] := by
  have nobody : (offered.zipIdx.filterMap fun offer =>
      if (({} : Search).holder? offer.2).isSome then some offer.1.1 else none) = [] := by
    simp [Search.holder?]
  simp [assign, serveAll, nobody]

theorem serve_unconditional (unconditional : rule.conditions.isEmpty = true) :
    serve? satisfies offered rule = some ⟨rule, []⟩ := by
  rw [serve?, List.isEmpty_iff.mp unconditional, assign_nothing]
  rfl

theorem serve_conditional (conditional : rule.conditions.isEmpty = false) :
    serve? satisfies offered rule = byConditions? satisfies offered rule := by
  simp [serve?, byConditions?, conditional]

theorem by_conditions_unconditional (unconditional : rule.conditions.isEmpty = true) :
    byConditions? satisfies offered rule = none := by
  simp [byConditions?, unconditional]

/-- Where rules without conditions come last, trying the rules with conditions first and then those
without is trying the rules in their order. -/
theorem two_passes_in_order
    (last : rules.Pairwise fun first second =>
      first.conditions.isEmpty = true → second.conditions.isEmpty = true) :
    (match rules.findSome? (byConditions? satisfies offered) with
      | some resolution => some resolution
      | none => (rules.find? fun rule => rule.conditions.isEmpty).map fun rule => ⟨rule, []⟩) =
    rules.findSome? (serve? satisfies offered) := by
  induction rules with
  | nil => rfl
  | cons rule rest ih =>
    obtain ⟨ahead, lastRest⟩ := List.pairwise_cons.mp last
    cases empty : rule.conditions.isEmpty with
    | true =>
      have none : (rule :: rest).findSome? (byConditions? satisfies offered) = none := by
        rw [List.findSome?_eq_none_iff, List.forall_mem_cons]
        exact ⟨by_conditions_unconditional empty,
          fun other member => by_conditions_unconditional (ahead other member empty)⟩
      simp [none, serve_unconditional empty, empty]
    | false =>
      rw [List.findSome?_cons, List.findSome?_cons, serve_conditional empty,
        List.find?_cons_of_neg (by simp [empty])]
      cases byConditions? satisfies offered rule with
      | some resolution => rfl
      | none => exact ih lastRest

theorem served_iff_satisfiable :
    (serve? satisfies offered rule).isSome = true ↔ Satisfiable satisfies offered rule := by
  rw [serve?, Option.isSome_map]
  constructor
  · intro assigned
    obtain ⟨consumed, assigned⟩ := Option.isSome_iff_exists.mp assigned
    obtain ⟨slot, own⟩ := assign_gives_own_offers assigned
    exact ⟨slot, own.apart, own.satisfied⟩
  · rintro ⟨slot, apart, satisfied⟩
    exact assign_of_slots apart satisfied

end Serving

section Resolving
variable {α : Type} {sets : List RuleSet} {satisfies : α → Condition → Bool} {location : Pattern}
  {offered : List (Nat × α)} {entrant other : Entrant} {rule : Rule} {consumed : List Nat}

/-- Resolution goes through the rules that compete in the order of their rank. -/
theorem resolve_eq_first_served :
    resolve? sets satisfies location offered =
      (ranked sets location).findSome? fun entrant => serve? satisfies offered entrant.rule := by
  have last : (candidates sets location).Pairwise fun first second =>
      first.conditions.isEmpty = true → second.conditions.isEmpty = true := by
    rw [candidates_eq_ranked, List.pairwise_map]
    refine ranked_in_order.imp ?_
    simp only [Precedes, List.isEmpty_iff_length_eq_zero]
    omega
  refine (two_passes_in_order last).trans ?_
  rw [candidates_eq_ranked, List.findSome?_map]
  rfl

theorem precedes_asymm (entrant other : Entrant) (precedes : Precedes entrant other) :
    ¬ Precedes other entrant := by
  simp only [Precedes, DeclaredBefore] at *
  omega

theorem resolves_iff_wins :
    (∃ consumed, resolve? sets satisfies location offered = some ⟨rule, consumed⟩) ↔
      ∃ entrant, entrant.rule = rule ∧ Wins sets satisfies location offered entrant := by
  simp only [resolve_eq_first_served, find_some_iff_first ranked_in_order precedes_asymm, mem_ranked,
    served_iff_satisfiable]
  constructor
  · rintro ⟨consumed, entrant, competes, served, first⟩
    obtain ⟨_, _, same⟩ := Option.map_eq_some_iff.mp served
    cases same
    exact ⟨entrant, rfl, competes, served_iff_satisfiable.mp (Option.isSome_of_eq_some served), first⟩
  · rintro ⟨entrant, rfl, wins⟩
    obtain ⟨resolution, served⟩ :=
      Option.isSome_iff_exists.mp (served_iff_satisfiable.mpr wins.satisfiable)
    obtain ⟨consumed, _, rfl⟩ := Option.map_eq_some_iff.mp served
    exact ⟨consumed, entrant, wins.competes, served, wins.first⟩

theorem unresolved_iff_none_satisfiable :
    resolve? sets satisfies location offered = none ↔
      ∀ entrant, Competes sets location entrant → ¬ Satisfiable satisfies offered entrant.rule := by
  simp only [resolve_eq_first_served, List.findSome?_eq_none_iff, mem_ranked,
    ← served_iff_satisfiable, Bool.not_eq_true, Option.isSome_eq_false_iff, Option.isNone_iff_eq_none]

/-- Resolution decides for the most specific of the satisfiable rules that compete for a location, and
among equally specific ones for the one declared first. Its conditions consume an offer each, reported
in ascending order; a rule without conditions consumes nothing. Without a satisfiable rule, and only
then, there is no resolution. -/
theorem most_specific_rule_resolved (sets : List RuleSet) (satisfies : α → Condition → Bool)
    (location : Pattern) (offered : List (Nat × α)) (numbered : (offered.map (·.1)).Nodup) :
    (∀ rule, (∃ consumed, resolve? sets satisfies location offered = some ⟨rule, consumed⟩) ↔
      ∃ entrant, entrant.rule = rule ∧ Wins sets satisfies location offered entrant) ∧
    (∀ rule consumed, resolve? sets satisfies location offered = some ⟨rule, consumed⟩ →
      consumed.Pairwise (· < ·) ∧ consumed.length = rule.conditions.length ∧
        ∃ slot, OwnOffers satisfies rule.conditions offered consumed slot) ∧
    (resolve? sets satisfies location offered = none ↔
      ∀ entrant, Competes sets location entrant → ¬ Satisfiable satisfies offered entrant.rule) := by
  refine ⟨fun _ => resolves_iff_wins, ?_, unresolved_iff_none_satisfiable⟩
  intro rule consumed found
  rw [resolve_eq_first_served] at found
  obtain ⟨_, _, served⟩ := List.exists_of_findSome?_eq_some found
  obtain ⟨_, assigned, same⟩ := Option.map_eq_some_iff.mp served
  cases same
  obtain ⟨slot, own⟩ := assign_gives_own_offers assigned
  have ascending := consumed_ascending numbered assigned
  exact ⟨ascending, length_consumed numbered (ascending.imp Nat.ne_of_lt) own, slot, own⟩

end Resolving

section Sample

/-- A rule for entries that have attributes of these values. -/
def entryRule (attributes : List (String × String)) : Rule where
  path := ⟨[.gap, .named (.unqualified .element "entry")], false⟩
  conditions := attributes.map fun (name, value) => { subject := .unqualified .attribute name, value }
  fields := [⟨"name", ⟨[.gap, .named (.unqualified .element "name")], false⟩, {}⟩]

/-- An internal set, and two sets with rules of different specificity. -/
def layeredSets : List RuleSet :=
  [⟨"/db/system/books", [entryRule [("type", "main"), ("kind", "x")]]⟩,
    ⟨"/db/books", [entryRule [], entryRule [("type", "main")]]⟩,
    ⟨"/db/papers", [entryRule [("lang", "en")], entryRule [("type", "main"), ("kind", "x")]]⟩]

/-- The location `/entry/name`. -/
def entryName : Pattern :=
  ⟨[.named (.unqualified .element "entry"), .named (.unqualified .element "name")], false⟩

/-- Predicates that each imply the conditions on one attribute. -/
def attributePredicates : List (Nat × String) := [(0, "lang"), (3, "type")]

def isOn (name : String) (condition : Condition) : Bool := condition.subject.localPart == name

/-- The rule with two conditions is not satisfiable, and of the two with one condition the first
declared is chosen, although a rule without conditions stands before it. -/
theorem typed_rule_resolved :
    (attributePredicates.map (·.1)).Nodup ∧
      ∃ consumed, resolve? layeredSets isOn entryName attributePredicates =
        some ⟨entryRule [("type", "main")], consumed⟩ ∧ consumed.length = 1 := by
  have competing : entrants layeredSets entryName =
      [⟨1, 0, entryRule []⟩, ⟨1, 1, entryRule [("type", "main")]⟩,
        ⟨2, 0, entryRule [("lang", "en")]⟩,
        ⟨2, 1, entryRule [("type", "main"), ("kind", "x")]⟩] := by
    with_unfolding_all rfl
  have unsatisfiable : ¬ Satisfiable isOn attributePredicates
      (entryRule [("type", "main"), ("kind", "x")]) := by
    rw [← served_iff_satisfiable]
    exact Bool.false_ne_true
  have wins : Wins layeredSets isOn entryName attributePredicates
      ⟨1, 1, entryRule [("type", "main")]⟩ := by
    refine ⟨mem_entrants.mp (competing ▸ .tail _ (.head _)), served_iff_satisfiable.mp rfl, ?_⟩
    intro other competes satisfiable
    rw [← mem_entrants, competing] at competes
    simp only [List.mem_cons, List.not_mem_nil, or_false] at competes
    rcases competes with rfl | rfl | rfl | rfl
    · exact .inr (.inl (by decide))
    · exact .inl rfl
    · exact .inr (.inr ⟨rfl, .inl (by decide)⟩)
    · exact absurd satisfiable unsatisfiable
  have numbered : (attributePredicates.map (·.1)).Nodup := by decide
  have resolved := most_specific_rule_resolved layeredSets isOn entryName attributePredicates numbered
  obtain ⟨consumed, found⟩ := (resolved.1 _).mpr ⟨_, rfl, wins⟩
  exact ⟨numbered, consumed, found, (resolved.2.1 _ _ found).2.1⟩

end Sample

end RangeIndex.RuleRanking

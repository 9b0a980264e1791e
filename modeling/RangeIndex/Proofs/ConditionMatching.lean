import Mathlib.Data.Finset.Card
import Mathlib.Data.List.FinRange
import RangeIndex.Proofs.ConditionAssignment

/-! The search for predicates is complete. A search that ends without a place has visited all places
that suit its condition, and all that suit the holders it met on the way; so there is one condition
more than there are places for, and no other way of giving out the predicates would serve them all.
Together with what a successful search guarantees, assignment is bipartite matching. -/
namespace RangeIndex.ConditionMatching
open Assignment ConditionAssignment

/-- The visited places are places that were offered, each visited once. -/
structure Tidy (count : Nat) (search : Search) : Prop where
  distinct : search.visited.Nodup
  within : ∀ place ∈ search.visited, place < count

/-- After a search of some places that found none: nobody has moved, each of these places is visited,
and every place visited on the way is held by a condition with no other place to go to. -/
structure Exhausted (suitable : Nat → List Nat) (count : Nat) (places : List Nat)
    (before after : Search) : Prop where
  tidy : Tidy count after
  unmoved : after.holders = before.holders
  grown : before.visited ⊆ after.visited
  tried : places ⊆ after.visited
  stuck : ∀ place ∈ after.visited, place ∉ before.visited →
    ∃ holder, after.holder? place = some holder ∧ suitable holder ⊆ after.visited

section Searching
variable {suitable : Nat → List Nat} {count condition : Nat} {places : List Nat}
  {search after : Search}

/-- No more places are visited than were offered. -/
theorem visited_le (tidy : Tidy count search) : search.visited.length ≤ count := by
  have listed : search.visited ⊆ List.range count := fun place met =>
    List.mem_range.mpr (tidy.within place met)
  simpa using (tidy.distinct.subperm listed).length_le

theorem tidy_visit (tidy : Tidy count search) {place : Nat} (bound : place < count)
    (fresh : place ∉ search.visited) : Tidy count (search.visit place) where
  distinct := List.nodup_cons.mpr ⟨fresh, tidy.distinct⟩
  within := by
    intro other met
    rcases (Search.mem_visited_visit search place other).mp met with rfl | met
    · exact bound
    · exact tidy.within other met

theorem exhausted_nothing (tidy : Tidy count search) :
    Exhausted suitable count [] search search :=
  ⟨tidy, rfl, List.Subset.refl _, List.nil_subset _, fun _ met fresh => absurd met fresh⟩

/-- A place visited before is passed over. -/
theorem exhausted_past {place : Nat} (met : place ∈ search.visited)
    (rest : Exhausted suitable count places search after) :
    Exhausted suitable count (place :: places) search after :=
  ⟨rest.tidy, rest.unmoved, rest.grown, List.cons_subset.mpr ⟨rest.grown met, rest.tried⟩,
    rest.stuck⟩

/-- A place whose holder found no other is left to it. -/
theorem exhausted_held {place holder : Nat} {moved : Search}
    (held : search.holder? place = some holder)
    (first : Exhausted suitable count (suitable holder) (search.visit place) moved)
    (rest : Exhausted suitable count places moved after) :
    Exhausted suitable count (place :: places) search after := by
  have unmoved : after.holders = search.holders := rest.unmoved.trans first.unmoved
  have visited : place ∈ moved.visited := first.grown (by simp)
  have grown : search.visited ⊆ moved.visited := fun _ met => first.grown (by simp [met])
  refine ⟨rest.tidy, unmoved, List.Subset.trans grown rest.grown,
    List.cons_subset.mpr ⟨rest.grown visited, rest.tried⟩, ?_⟩
  intro other met fresh
  by_cases later : other ∉ moved.visited
  · exact rest.stuck other met later
  have before : other ∈ moved.visited := not_not.mp later
  by_cases same : other = place
  · subst same
    exact ⟨holder, (holder_of_same_holders unmoved other).trans held,
      List.Subset.trans first.tried rest.grown⟩
  · have unvisited : other ∉ (search.visit place).visited := by simp [same, fresh]
    obtain ⟨stuckHolder, heldOther, nowhere⟩ := first.stuck other before unvisited
    exact ⟨stuckHolder, (holder_of_same_holders rest.unmoved other).trans heldOther,
      List.Subset.trans nowhere rest.grown⟩

/-- Offering places fails only when all are visited, if moving a holder elsewhere does. What was visited
stays so, and there is as much depth left after a move as before. -/
theorem offer_each_exhausted {move : Nat → Search → Bool × Search} {depth : Nat}
    (moves : ∀ other search after, Tidy count search → count < depth + search.visited.length →
      move other search = (false, after) → Exhausted suitable count (suitable other) search after)
    (bounded : ∀ place ∈ places, place < count) (tidy : Tidy count search)
    (deep : count < depth + 1 + search.visited.length)
    (failed : offerEach move condition places search = (false, after)) :
    Exhausted suitable count places search after := by
  induction places generalizing search with
  | nil =>
    cases failed
    exact exhausted_nothing tidy
  | cons place rest ih =>
    obtain ⟨bound, boundedRest⟩ := List.forall_mem_cons.mp bounded
    rw [offerEach] at failed
    split at failed
    · rename_i met
      exact exhausted_past (List.contains_iff_mem.mp met) (ih boundedRest tidy deep failed)
    · rename_i unmet
      have fresh : place ∉ search.visited := by simpa using unmet
      cases held : search.holder? place with
      | none => simp [held] at failed
      | some other =>
        cases result : move other (search.visit place) with
        | mk free moved =>
          simp only [held, result] at failed
          cases free with
          | true => simp at failed
          | false =>
            have visits : (search.visit place).visited.length = search.visited.length + 1 := rfl
            have first := moves other _ moved (tidy_visit tidy bound fresh) (by omega) result
            have more : search.visited.length ≤ moved.visited.length := by
              have kept := ((tidy_visit tidy bound fresh).distinct.subperm first.grown).length_le
              omega
            exact exhausted_held held first
              (ih boundedRest first.tidy (by omega) (by simpa using failed))

/-- A search fails only when its places are exhausted: the chains of moves it follows are never cut
off, because each visits a place more. Induction is on the length of the chains. -/
theorem augment_exhausted (bounded : ∀ condition, ∀ place ∈ suitable condition, place < count)
    (length : Nat) (tidy : Tidy count search) (deep : count < length + search.visited.length)
    (failed : augment suitable length condition search = (false, after)) :
    Exhausted suitable count (suitable condition) search after := by
  induction length generalizing condition search after with
  | zero =>
    have few := visited_le tidy
    omega
  | succ length ih =>
    exact offer_each_exhausted (fun _ _ _ tidy deep failed => ih tidy deep failed)
      (bounded condition) tidy deep failed

end Searching

section Counting
variable {suitable : Nat → List Nat} {count conditions condition : Nat} {search after : Search}

/-- A place for every condition that suits it and is given to no other. -/
structure Seating (suitable : Nat → List Nat) (conditions : Nat) (seat : Nat → Nat) : Prop where
  suits : ∀ condition < conditions, seat condition ∈ suitable condition
  apart : ∀ first < conditions, ∀ second < conditions, seat first = seat second → first = second

/-- Conditions that outnumber the places suitable for any of them cannot all be seated. -/
theorem overfull_not_seated {crowd places : Finset Nat} (more : places.card < crowd.card)
    (confined : ∀ other ∈ crowd, other < conditions ∧ ∀ place ∈ suitable other, place ∈ places)
    (seat : Nat → Nat) : ¬ Seating suitable conditions seat := by
  intro seating
  have fits : crowd.card ≤ places.card := by
    refine Finset.card_le_card_of_injOn seat ?_ ?_
    · intro other member
      obtain ⟨bound, inside⟩ := confined other member
      exact inside _ (seating.suits other bound)
    · intro first firstMember second secondMember same
      exact seating.apart first (confined first firstMember).1 second
        (confined second secondMember).1 same
  omega

/-- When the places of a condition are exhausted, the conditions that hold the visited places and the
one without a place are more than these places, which are all that suit any of them. -/
theorem no_seating_when_exhausted (matched : Matched suitable search)
    (idle : ∀ place, search.holder? place ≠ some condition) (counted : condition < conditions)
    (known : ∀ holder, suitable holder ≠ [] → holder < conditions)
    (exhausted : Exhausted suitable count (suitable condition) { search with visited := [] } after)
    (seat : Nat → Nat) : ¬ Seating suitable conditions seat := by
  have held : ∀ place ∈ after.visited, ∃ holder, search.holder? place = some holder ∧
      suitable holder ⊆ after.visited := by
    intro place met
    obtain ⟨holder, holds, nowhere⟩ := exhausted.stuck place met List.not_mem_nil
    exact ⟨holder, (holder_of_same_holders exhausted.unmoved place).symm.trans holds, nowhere⟩
  choose! holder holds nowhere using held
  let visited := after.visited.toFinset
  let holders := visited.image holder
  have asMany : holders.card = visited.card := by
    apply Finset.card_image_of_injOn
    intro first firstMet second secondMet same
    have firstHeld := holds first (List.mem_toFinset.mp firstMet)
    have secondHeld := holds second (List.mem_toFinset.mp secondMet)
    exact matched.single first second _ firstHeld (same ▸ secondHeld)
  have oneMore : (insert condition holders).card = visited.card + 1 := by
    rw [Finset.card_insert_of_notMem, asMany]
    intro member
    obtain ⟨place, met, same⟩ := Finset.mem_image.mp member
    exact idle place (same ▸ holds place (List.mem_toFinset.mp met))
  refine overfull_not_seated (by omega : visited.card < (insert condition holders).card) ?_ seat
  intro other member
  rcases Finset.mem_insert.mp member with rfl | member
  · exact ⟨counted, fun _ suits => List.mem_toFinset.mpr (exhausted.tried suits)⟩
  · obtain ⟨place, met, rfl⟩ := Finset.mem_image.mp member
    have met := List.mem_toFinset.mp met
    have busy := List.ne_nil_of_mem (matched.fits place _ (holds place met))
    exact ⟨known _ busy, fun _ suits => List.mem_toFinset.mpr (nowhere place met suits)⟩

/-- Conditions that can all be seated are all served. -/
theorem serve_all_of_seating {pending : List Nat} {seat : Nat → Nat}
    (seating : Seating suitable conditions seat)
    (bounded : ∀ condition, ∀ place ∈ suitable condition, place < count)
    (known : ∀ holder, suitable holder ≠ [] → holder < conditions)
    (listed : ∀ condition ∈ pending, condition < conditions) (distinct : pending.Nodup)
    (matched : Matched suitable search)
    (idle : ∀ condition ∈ pending, ∀ place, search.holder? place ≠ some condition) :
    ∃ final, serveAll suitable (count + 1) pending search = some final := by
  induction pending generalizing search with
  | nil => exact ⟨search, rfl⟩
  | cons condition rest ih =>
    have idleNow := idle condition List.mem_cons_self
    have outcome := augment_outcome (count + 1) (ready_afresh matched idleNow)
    rw [serveAll]
    cases result : augment suitable (count + 1) condition { search with visited := [] } with
    | mk found next =>
      rw [result] at outcome
      cases found with
      | false =>
        have tidy : Tidy count { search with visited := [] } :=
          ⟨List.nodup_nil, List.forall_mem_nil _⟩
        have exhausted := augment_exhausted bounded (count + 1) tidy (by simp) result
        have counted := listed condition List.mem_cons_self
        exact absurd seating (no_seating_when_exhausted matched idleNow counted known exhausted seat)
      | true =>
        obtain ⟨absent, restDistinct⟩ := List.nodup_cons.mp distinct
        exact ih (List.forall_mem_of_forall_mem_cons listed) restDistinct
          (matched_after_success outcome idleNow) (idle_after_success outcome absent idle)

end Counting

section Assigning
variable {α : Type} {satisfies : α → Condition → Bool} {conditions : List Condition}
  {offered : List (Nat × α)}

/-- The places suitable for the condition of a number, as an assignment has them. -/
def suitableAt (satisfies : α → Condition → Bool) (conditions : List Condition)
    (offered : List (Nat × α)) (number : Nat) : List Nat :=
  match conditions[number]? with
  | some condition => suitablePlaces satisfies offered condition
  | none => []

/-- The place of the offer that a condition is to have. -/
def seatOf (slot : Fin conditions.length → Fin offered.length) (number : Nat) : Nat :=
  if bound : number < conditions.length then slot ⟨number, bound⟩ else 0

theorem mem_suitable_at {number place : Nat} :
    place ∈ suitableAt satisfies conditions offered number ↔
      ∃ condition offer, conditions[number]? = some condition ∧ offered[place]? = some offer ∧
        satisfies offer.2 condition = true := by
  unfold suitableAt
  cases found : conditions[number]? with
  | none => simp
  | some condition => simp [mem_suitable_places]

theorem suitable_bounded (number : Nat) :
    ∀ place ∈ suitableAt satisfies conditions offered number, place < offered.length := by
  intro place member
  obtain ⟨_, _, _, found, _⟩ := mem_suitable_at.mp member
  exact (List.getElem?_eq_some_iff.mp found).1

theorem suitable_known (number : Nat) (some : suitableAt satisfies conditions offered number ≠ []) :
    number < conditions.length := by
  obtain ⟨place, member⟩ := List.exists_mem_of_ne_nil _ some
  obtain ⟨_, _, found, _⟩ := mem_suitable_at.mp member
  exact (List.getElem?_eq_some_iff.mp found).1

/-- Offers of their own seat the conditions. -/
theorem slots_seat {slot : Fin conditions.length → Fin offered.length}
    (apart : Function.Injective slot)
    (satisfied : ∀ condition,
      satisfies (offered.get (slot condition)).2 (conditions.get condition) = true) :
    Seating (suitableAt satisfies conditions offered) conditions.length (seatOf slot) := by
  have seat_at : ∀ number (bound : number < conditions.length),
      seatOf slot number = slot ⟨number, bound⟩ := fun _ bound => dif_pos bound
  constructor
  case suits =>
    intro number bound
    rw [seat_at number bound]
    exact mem_suitable_at.mpr ⟨conditions[number], offered[slot ⟨number, bound⟩],
      List.getElem?_eq_getElem bound, List.getElem?_eq_getElem (slot ⟨number, bound⟩).isLt,
      satisfied ⟨number, bound⟩⟩
  case apart =>
    intro first firstBound second secondBound same
    rw [seat_at first firstBound, seat_at second secondBound] at same
    exact congrArg Fin.val (apart (Fin.ext same))

/-- Where every condition can have an offer of its own, an assignment is found. -/
theorem assign_of_slots {slot : Fin conditions.length → Fin offered.length}
    (apart : Function.Injective slot)
    (satisfied : ∀ condition,
      satisfies (offered.get (slot condition)).2 (conditions.get condition) = true) :
    (assign satisfies conditions offered).isSome = true := by
  obtain ⟨final, ran⟩ := serve_all_of_seating (slots_seat apart satisfied) suitable_bounded
    suitable_known (fun _ => List.mem_range.mp) List.nodup_range matched_at_first
    (fun condition _ place => nobody_holds_at_first place condition)
  rw [assign, Option.isSome_map]
  exact Option.isSome_of_eq_some ran

/-- What is consumed is reported in ascending order, and no number twice. -/
theorem consumed_ascending (numbered : (offered.map (·.1)).Nodup) {consumed : List Nat}
    (found : assign satisfies conditions offered = some consumed) :
    consumed.Pairwise (· < ·) := by
  obtain ⟨final, _, rfl⟩ := Option.map_eq_some_iff.mp found
  let held (offer : (Nat × α) × Nat) : Option Nat :=
    if (final.holder? offer.2).isSome then some offer.1.1 else none
  have apart : offered.zipIdx.Pairwise fun first second => first.1.1 ≠ second.1.1 := by
    rw [← List.zipIdx_map_fst 0 offered, List.map_map] at numbered
    exact List.pairwise_map.mp numbered
  have distinct : (offered.zipIdx.filterMap held).Nodup := by
    refine List.pairwise_filterMap.mpr (apart.imp ?_)
    intro first second differs number fromFirst other fromSecond same
    simp only [held, Option.ite_none_right_eq_some, Option.some.injEq] at fromFirst fromSecond
    exact differs (fromFirst.2.trans (same.trans fromSecond.2.symm))
  let reported := (offered.zipIdx.filterMap held).mergeSort
  have sorted : reported.Pairwise fun first second => decide (first ≤ second) = true :=
    List.pairwise_mergeSort (by simp; omega) (by simp; omega) _
  have once : reported.Nodup := (List.mergeSort_perm _ _).nodup_iff.mpr distinct
  exact List.Pairwise.imp₂
    (fun _ _ le differs => Nat.lt_of_le_of_ne (of_decide_eq_true le) differs) sorted once

/-- Conditions with offers of their own consume as many numbers as there are conditions. -/
theorem length_consumed (numbered : (offered.map (·.1)).Nodup) {consumed : List Nat}
    (once : consumed.Nodup) {slot : Fin conditions.length → Fin offered.length}
    (own : OwnOffers satisfies conditions offered consumed slot) :
    consumed.length = conditions.length := by
  let numbers := List.ofFn fun condition => offered[slot condition].1
  have distinct : numbers.Nodup := by
    rw [List.nodup_ofFn]
    intro first second same
    apply own.apart
    have equal : (offered.map (·.1))[(slot first).val]? =
        (offered.map (·.1))[(slot second).val]? := by
      simpa using same
    have bound : (slot first).val < (offered.map (·.1)).length := by simp
    exact Fin.ext ((List.getElem?_inj bound numbered).mp equal)
  have listed : consumed.Perm numbers :=
    (List.perm_ext_iff_of_nodup once distinct).mpr fun number => by
      rw [own.reported, List.mem_ofFn]
  rw [listed.length_eq, List.length_ofFn]

/-- Assignment is bipartite matching. For offers under distinct numbers, one is found if and only if
every condition can be given an offer of its own that satisfies it; and what is then consumed are the
numbers of such offers, one for each condition, in ascending order. -/
theorem assignment_is_matching (satisfies : α → Condition → Bool) (conditions : List Condition)
    (offered : List (Nat × α)) (numbered : (offered.map (·.1)).Nodup) :
    ((assign satisfies conditions offered).isSome = true ↔
      ∃ slot : Fin conditions.length → Fin offered.length, Function.Injective slot ∧
        ∀ condition, satisfies (offered.get (slot condition)).2 (conditions.get condition) = true) ∧
    ∀ consumed, assign satisfies conditions offered = some consumed →
      consumed.Pairwise (· < ·) ∧ consumed.length = conditions.length ∧
        ∃ slot, OwnOffers satisfies conditions offered consumed slot := by
  constructor
  · constructor
    · intro found
      obtain ⟨consumed, found⟩ := Option.isSome_iff_exists.mp found
      obtain ⟨slot, own⟩ := assign_gives_own_offers found
      exact ⟨slot, own.apart, own.satisfied⟩
    · rintro ⟨slot, apart, satisfied⟩
      exact assign_of_slots apart satisfied
  · intro consumed found
    obtain ⟨slot, own⟩ := assign_gives_own_offers found
    have ascending := consumed_ascending numbered found
    exact ⟨ascending, length_consumed numbered (ascending.imp Nat.ne_of_lt) own, slot, own⟩

end Assigning

section Sample

/-- Two conditions, one each on the attributes `type` and `kind`. -/
def typeAndKind : List Condition :=
  [{ subject := .unqualified .attribute "type", value := "main" },
    { subject := .unqualified .attribute "kind", value := "x" }]

/-- Offers that satisfy the conditions on the attributes they list. The first suits both. -/
def attributeOffers : List (Nat × List String) := [(2, ["type", "kind"]), (3, ["name"]), (5, ["type"])]

def lists (names : List String) (condition : Condition) : Bool :=
  names.contains condition.subject.localPart

/-- The first condition takes the first offer and has to give it up for the second condition. -/
theorem given_up_offer_matched :
    (attributeOffers.map (·.1)).Nodup ∧
      assign lists typeAndKind attributeOffers = some [2, 5] ∧
      ∃ slot, OwnOffers lists typeAndKind attributeOffers [2, 5] slot := by
  have numbered : (attributeOffers.map (·.1)).Nodup := by decide
  have sorted : [2, 5].mergeSort = [2, 5] := List.mergeSort_of_pairwise (by decide)
  have found : assign lists typeAndKind attributeOffers = some [2, 5] := congrArg some sorted
  obtain ⟨_, _, own⟩ := (assignment_is_matching lists typeAndKind attributeOffers numbered).2 _ found
  exact ⟨numbered, found, own⟩

end Sample

end RangeIndex.ConditionMatching

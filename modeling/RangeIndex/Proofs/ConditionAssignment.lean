import Mathlib.Tactic.Choose
import RangeIndex.Rule.Assignment

/-! What the search for predicates guarantees when it succeeds: every condition of the rule holds
a predicate of its own that satisfies it, and exactly these predicates are reported. The search
moves holders about, so between two conditions each holder has one place, while a condition being
moved may for a moment have two. -/
namespace RangeIndex.ConditionAssignment
open Assignment

/-- Each condition holds suitable places only, and at most one. -/
structure Matched (suitable : Nat → List Nat) (search : Search) : Prop where
  fits : ∀ place holder, search.holder? place = some holder → place ∈ suitable holder
  single : ∀ place other holder, search.holder? place = some holder →
    search.holder? other = some holder → place = other

/-- Where a search for a condition may begin: what it holds already has been visited. -/
structure Ready (suitable : Nat → List Nat) (condition : Nat) (search : Search) : Prop
    extends Matched suitable search where
  met : ∀ place, search.holder? place = some condition → place ∈ search.visited

/-- A condition has found a place not visited before. Other holders still have one place each,
and the places visited before have kept theirs. -/
structure Placed (suitable : Nat → List Nat) (condition : Nat) (before after : Search) : Prop where
  fits : ∀ place holder, after.holder? place = some holder → place ∈ suitable holder
  kept : ∀ place ∈ before.visited, after.holder? place = before.holder? place
  gained : ∃ place, place ∉ before.visited ∧ after.holder? place = some condition ∧
    ∀ other, after.holder? other = some condition →
      other = place ∨ before.holder? other = some condition
  single : ∀ holder, holder ≠ condition → ∀ place other, after.holder? place = some holder →
    after.holder? other = some holder → place = other
  served : ∀ holder, holder ≠ condition →
    ((∃ place, after.holder? place = some holder) ↔ ∃ place, before.holder? place = some holder)

/-- A search that finds no place leaves every holder where it was. -/
def Outcome (suitable : Nat → List Nat) (condition : Nat) (before : Search) :
    Bool × Search → Prop
  | (true, after) => Placed suitable condition before after
  | (false, after) => after.holders = before.holders ∧ before.visited ⊆ after.visited

section Searching
variable {suitable : Nat → List Nat} {condition : Nat} {search : Search}

theorem holder_of_same_holders {before after : Search} (same : after.holders = before.holders)
    (place : Nat) : after.holder? place = before.holder? place := by
  simp only [Search.holder?, same]

theorem held_after_give (place condition other holder : Nat) :
    (search.give place condition).holder? other = some holder ↔
      other = place ∧ condition = holder ∨ other ≠ place ∧ search.holder? other = some holder := by
  rw [Search.holder?_give]
  by_cases same : other = place
  · simp [same]
  · simp [same]

/-- A holder other than the condition keeps the places that are not given away. -/
theorem held_by_another {place holder : Nat} (differs : holder ≠ condition) (other : Nat) :
    (search.give place condition).holder? other = some holder ↔
      other ≠ place ∧ search.holder? other = some holder := by
  rw [held_after_give]
  constructor
  · rintro (⟨_, same⟩ | kept)
    · exact absurd same.symm differs
    · exact kept
  · exact .inr

theorem give_fits (fits : ∀ place holder, search.holder? place = some holder →
    place ∈ suitable holder) {place : Nat} (suits : place ∈ suitable condition) :
    ∀ other holder, (search.give place condition).holder? other = some holder →
      other ∈ suitable holder := by
  intro other holder held
  rcases (held_after_give place condition other holder).mp held with ⟨rfl, rfl⟩ | ⟨_, held⟩
  · exact suits
  · exact fits other holder held

/-- Nobody holds the place, so nobody has to move. -/
theorem give_free_place (ready : Ready suitable condition search) {place : Nat}
    (suits : place ∈ suitable condition) (fresh : place ∉ search.visited)
    (free : search.holder? place = none) :
    Placed suitable condition search ((search.visit place).give place condition) := by
  have elsewhere : ∀ other holder, search.holder? other = some holder → other ≠ place := by
    intro other holder held same
    rw [same, free] at held
    cases held
  refine ⟨give_fits ready.fits suits, ?_, ⟨place, fresh, by simp, ?_⟩, ?_, ?_⟩
  · intro other visited
    have differs : other ≠ place := fun same => fresh (same ▸ visited)
    simp [differs]
  · intro other held
    rcases (held_after_give ..).mp held with ⟨same, _⟩ | ⟨_, held⟩
    · exact .inl same
    · exact .inr held
  · intro holder differs first second heldFirst heldSecond
    exact ready.single first second holder ((held_by_another differs first).mp heldFirst).2
      ((held_by_another differs second).mp heldSecond).2
  · intro holder differs
    refine exists_congr fun other => ?_
    rw [held_by_another differs]
    exact ⟨fun held => held.2, fun held => ⟨elsewhere other holder held, held⟩⟩

/-- The holder of a place is ready to move on once the place counts as visited. -/
theorem holder_ready_to_move (ready : Ready suitable condition search) {place other : Nat}
    (held : search.holder? place = some other) : Ready suitable other (search.visit place) where
  fits := ready.fits
  single := ready.single
  met := by
    intro second heldSecond
    rw [Search.holder?_visit] at heldSecond
    rw [Search.mem_visited_visit]
    exact .inl (ready.single second place other heldSecond held)

/-- The holder has moved on, so the place can be taken over. What the condition held before was
visited, and so the moves left it alone. -/
theorem give_freed_place (ready : Ready suitable condition search) {place other : Nat}
    (suits : place ∈ suitable condition) (fresh : place ∉ search.visited)
    (held : search.holder? place = some other) {moved : Search}
    (placed : Placed suitable other (search.visit place) moved) :
    Placed suitable condition search (moved.give place condition) := by
  have apart : condition ≠ other := fun same => fresh (ready.met place (same ▸ held))
  have stillHeld : moved.holder? place = some other := by
    rw [placed.kept place (by simp), Search.holder?_visit, held]
  obtain ⟨found, unvisited, foundHeld, foundOnly⟩ := placed.gained
  have foundElsewhere : found ≠ place := fun same => unvisited (by simp [same])
  have onlyFound : ∀ second, second ≠ place → moved.holder? second = some other → second = found := by
    intro second elsewhere heldSecond
    rcases foundOnly second heldSecond with same | heldBefore
    · exact same
    · exact absurd (ready.single second place other heldBefore held) elsewhere
  refine ⟨give_fits placed.fits suits, ?_, ⟨place, fresh, by simp, ?_⟩, ?_, ?_⟩
  · intro second visited
    have differs : second ≠ place := fun same => fresh (same ▸ visited)
    rw [Search.holder?_give, if_neg differs, placed.kept second (by simp [visited]),
      Search.holder?_visit]
  · intro second heldSecond
    rcases (held_after_give ..).mp heldSecond with ⟨same, _⟩ | ⟨_, heldSecond⟩
    · exact .inl same
    obtain ⟨earlier, heldEarlier⟩ := (placed.served condition apart).mp ⟨second, heldSecond⟩
    rw [Search.holder?_visit] at heldEarlier
    have keptEarlier := placed.kept earlier (by simp [ready.met earlier heldEarlier])
    rw [Search.holder?_visit, heldEarlier] at keptEarlier
    exact .inr (placed.single condition apart second earlier heldSecond keptEarlier ▸ heldEarlier)
  · intro holder differs first second heldFirst heldSecond
    obtain ⟨firstElsewhere, heldFirst⟩ := (held_by_another differs first).mp heldFirst
    obtain ⟨secondElsewhere, heldSecond⟩ := (held_by_another differs second).mp heldSecond
    by_cases mover : holder = other
    · subst mover
      rw [onlyFound first firstElsewhere heldFirst, onlyFound second secondElsewhere heldSecond]
    · exact placed.single holder mover first second heldFirst heldSecond
  · intro holder differs
    by_cases mover : holder = other
    · subst mover
      exact ⟨fun _ => ⟨place, held⟩,
        fun _ => ⟨found, (held_by_another differs found).mpr ⟨foundElsewhere, foundHeld⟩⟩⟩
    · refine Iff.trans (exists_congr fun second => ?_) (placed.served holder mover)
      rw [held_by_another differs]
      refine ⟨fun held => held.2, fun heldSecond => ⟨?_, heldSecond⟩⟩
      intro same
      rw [same, stillHeld] at heldSecond
      exact mover (Option.some.inj heldSecond).symm

/-- A search may go on after a move that failed: only more places count as visited. -/
theorem ready_after_failure (ready : Ready suitable condition search) {after : Search}
    (holders : after.holders = search.holders) (visited : search.visited ⊆ after.visited) :
    Ready suitable condition after := by
  have same := holder_of_same_holders holders
  refine ⟨⟨?_, ?_⟩, ?_⟩
  · intro place holder held
    exact ready.fits place holder (same place ▸ held)
  · intro place other holder heldPlace heldOther
    exact ready.single place other holder (same place ▸ heldPlace) (same other ▸ heldOther)
  · intro place held
    exact visited (ready.met place (same place ▸ held))

/-- What a search finds after a move that failed, it has found for the state before the move. -/
theorem outcome_after_failure {after : Search} (holders : after.holders = search.holders)
    (visited : search.visited ⊆ after.visited) {result : Bool × Search}
    (outcome : Outcome suitable condition after result) :
    Outcome suitable condition search result := by
  have same := holder_of_same_holders holders
  obtain ⟨found, final⟩ := result
  cases found with
  | false => exact ⟨outcome.1.trans holders, List.Subset.trans visited outcome.2⟩
  | true =>
    obtain ⟨place, fresh, held, only⟩ := outcome.gained
    refine ⟨outcome.fits, ?_, ⟨place, fun met => fresh (visited met), held, ?_⟩, outcome.single, ?_⟩
    · intro other met
      rw [outcome.kept other (visited met), same]
    · intro other heldOther
      rw [← same]
      exact only other heldOther
    · intro holder differs
      rw [outcome.served holder differs]
      simp only [same]

/-- Offering places keeps the promise if moving a holder elsewhere does. -/
theorem offer_each_outcome (move : Nat → Search → Bool × Search)
    (moves : ∀ other search, Ready suitable other search → Outcome suitable other search (move other search))
    (places : List Nat) (suits : ∀ place ∈ places, place ∈ suitable condition)
    (ready : Ready suitable condition search) :
    Outcome suitable condition search (offerEach move condition places search) := by
  induction places generalizing search with
  | nil => exact ⟨rfl, fun _ => id⟩
  | cons place rest ih =>
    have suitsPlace := suits place (by simp)
    have suitsRest : ∀ other ∈ rest, other ∈ suitable condition :=
      fun other member => suits other (by simp [member])
    rw [offerEach]
    split
    · exact ih suitsRest ready
    · rename_i unmet
      have fresh : place ∉ search.visited := by simpa using unmet
      cases held : search.holder? place with
      | none => exact give_free_place ready suitsPlace fresh held
      | some other =>
        have outcome := moves other (search.visit place) (holder_ready_to_move ready held)
        cases result : move other (search.visit place) with
        | mk free moved =>
          rw [result] at outcome
          cases free with
          | true =>
            simp only [result, if_true]
            exact give_freed_place ready suitsPlace fresh held outcome
          | false =>
            have holders : moved.holders = search.holders := outcome.1
            have visited : search.visited ⊆ moved.visited := by
              intro other met
              exact outcome.2 (by simp [met])
            simp only [result, Bool.false_eq_true, if_false]
            exact outcome_after_failure holders visited
              (ih suitsRest (ready_after_failure ready holders visited))

/-- Induction is on the length of the chains of moves. -/
theorem augment_outcome (length : Nat) (ready : Ready suitable condition search) :
    Outcome suitable condition search (augment suitable length condition search) := by
  induction length generalizing condition search with
  | zero => exact ⟨rfl, fun _ => id⟩
  | succ length ih =>
    exact offer_each_outcome _ (fun _ _ ready => ih ready) _ (fun _ => id) ready

/-- A condition that held nothing ends with one place, so the state is again fit for the next. -/
theorem matched_after_success {before after : Search} (placed : Placed suitable condition before after)
    (idle : ∀ place, before.holder? place ≠ some condition) : Matched suitable after := by
  refine ⟨placed.fits, ?_⟩
  intro place other holder heldPlace heldOther
  by_cases same : holder = condition
  · subst same
    obtain ⟨found, _, _, only⟩ := placed.gained
    have atFound : ∀ second, after.holder? second = some holder → second = found :=
      fun second held => (only second held).resolve_right (idle second)
    rw [atFound place heldPlace, atFound other heldOther]
  · exact placed.single holder same place other heldPlace heldOther

theorem nobody_holds_at_first (place holder : Nat) : ({} : Search).holder? place ≠ some holder := by
  simp [Search.holder?]

theorem matched_at_first : Matched suitable {} :=
  ⟨fun place holder held => absurd held (nobody_holds_at_first place holder),
    fun place _ holder held => absurd held (nobody_holds_at_first place holder)⟩

/-- A condition that holds nothing may begin to search among places not visited yet. -/
theorem ready_afresh (matched : Matched suitable search)
    (idle : ∀ place, search.holder? place ≠ some condition) :
    Ready suitable condition { search with visited := [] } :=
  ⟨⟨matched.fits, matched.single⟩, fun place held => absurd held (idle place)⟩

/-- Besides the condition that has found a place, the same conditions are served as before. -/
theorem served_after_success {before after : Search}
    (placed : Placed suitable condition before after) (holder : Nat) :
    (∃ place, after.holder? place = some holder) ↔
      holder = condition ∨ ∃ place, before.holder? place = some holder := by
  by_cases same : holder = condition
  · subst same
    obtain ⟨place, _, held, _⟩ := placed.gained
    exact ⟨fun _ => .inl rfl, fun _ => ⟨place, held⟩⟩
  · rw [placed.served holder same]
    exact ⟨.inr, fun served => served.resolve_left same⟩

/-- Conditions that still wait hold nothing after one of them was served. -/
theorem idle_after_success {before after : Search} {rest : List Nat}
    (placed : Placed suitable condition before after) (absent : condition ∉ rest)
    (idle : ∀ other ∈ condition :: rest, ∀ place, before.holder? place ≠ some other) :
    ∀ other ∈ rest, ∀ place, after.holder? place ≠ some other := by
  intro other member place held
  rcases (served_after_success placed other).mp ⟨place, held⟩ with same | ⟨earlier, heldEarlier⟩
  · exact absent (same ▸ member)
  · exact idle other (List.mem_cons_of_mem _ member) earlier heldEarlier

/-- Conditions served one after the other hold a place each, besides those that held one before. -/
theorem serve_all_matched {length : Nat} {pending : List Nat} {final : Search}
    (distinct : pending.Nodup) (matched : Matched suitable search)
    (idle : ∀ condition ∈ pending, ∀ place, search.holder? place ≠ some condition)
    (ran : serveAll suitable length pending search = some final) :
    Matched suitable final ∧ ∀ holder, (∃ place, final.holder? place = some holder) ↔
      holder ∈ pending ∨ ∃ place, search.holder? place = some holder := by
  induction pending generalizing search with
  | nil =>
    cases ran
    exact ⟨matched, by simp⟩
  | cons condition rest ih =>
    have idleNow := idle condition List.mem_cons_self
    have outcome := augment_outcome length (ready_afresh matched idleNow)
    rw [serveAll] at ran
    cases result : augment suitable length condition { search with visited := [] } with
    | mk found next =>
      rw [result] at ran outcome
      cases found with
      | false => cases ran
      | true =>
        obtain ⟨absent, restDistinct⟩ := List.nodup_cons.mp distinct
        obtain ⟨finalMatched, finalServed⟩ := ih restDistinct
          (matched_after_success outcome idleNow) (idle_after_success outcome absent idle) ran
        refine ⟨finalMatched, fun holder => ?_⟩
        rw [finalServed, served_after_success outcome, List.mem_cons, or_left_comm, or_assoc]
        rfl

end Searching

section Assigning
variable {α : Type} {satisfies : α → Condition → Bool} {conditions : List Condition}
  {offered : List (Nat × α)}

theorem mem_suitable_places (condition : Condition) (place : Nat) :
    place ∈ suitablePlaces satisfies offered condition ↔
      ∃ offer, offered[place]? = some offer ∧ satisfies offer.2 condition = true := by
  simp only [suitablePlaces, List.mem_map, List.mem_filter, List.mem_zipIdx_iff_getElem?]
  constructor
  · rintro ⟨⟨offer, _⟩, ⟨found, satisfied⟩, rfl⟩
    exact ⟨offer, found, satisfied⟩
  · rintro ⟨offer, found, satisfied⟩
    exact ⟨(offer, place), ⟨found, satisfied⟩, rfl⟩

/-- Every condition has an offer of its own that satisfies it, and the numbers of these offers,
no others, are consumed. -/
structure OwnOffers (satisfies : α → Condition → Bool) (conditions : List Condition)
    (offered : List (Nat × α)) (consumed : List Nat)
    (slot : Fin conditions.length → Fin offered.length) : Prop where
  apart : Function.Injective slot
  satisfied : ∀ condition, satisfies offered[slot condition].2 conditions[condition] = true
  reported : ∀ number, number ∈ consumed ↔ ∃ condition, offered[slot condition].1 = number

/-- The numbers reported are those of the offers held, when these are the slots of conditions. -/
theorem reported_iff_held {final : Search} {count : Nat} {slot : Fin count → Fin offered.length}
    (held : ∀ condition, final.holder? (slot condition) = some condition.val)
    (only : ∀ place holder, final.holder? place = some holder →
      ∃ condition, (slot condition).val = place) (number : Nat) :
    (number ∈ (offered.zipIdx.filterMap fun offer =>
        if (final.holder? offer.2).isSome then some offer.1.1 else none).mergeSort) ↔
      ∃ condition, offered[slot condition].1 = number := by
  simp only [List.mem_mergeSort, List.mem_filterMap, List.mem_zipIdx_iff_getElem?]
  constructor
  · rintro ⟨⟨offer, place⟩, found, reported⟩
    split at reported
    · rename_i some
      cases reported
      obtain ⟨holder, heldPlace⟩ := Option.isSome_iff_exists.mp some
      obtain ⟨condition, rfl⟩ := only place holder heldPlace
      exact ⟨condition, by simpa using congrArg (Option.map (·.1)) found⟩
    · cases reported
  · rintro ⟨condition, rfl⟩
    exact ⟨(offered[slot condition], slot condition), by simp, by simp [held]⟩

theorem assign_gives_own_offers {consumed : List Nat}
    (found : assign satisfies conditions offered = some consumed) :
    ∃ slot, OwnOffers satisfies conditions offered consumed slot := by
  obtain ⟨final, ran, rfl⟩ := Option.map_eq_some_iff.mp found
  obtain ⟨matched, served⟩ := serve_all_matched List.nodup_range matched_at_first
    (fun condition _ place => nobody_holds_at_first place condition) ran
  have holds : ∀ condition : Fin conditions.length, ∃ place : Fin offered.length,
      final.holder? place = some condition ∧
        satisfies offered[place].2 conditions[condition] = true := by
    intro condition
    obtain ⟨place, held⟩ := (served condition).mpr (.inl (List.mem_range.mpr condition.isLt))
    have suits := matched.fits place condition held
    simp only [Fin.is_lt, List.getElem?_eq_getElem, mem_suitable_places] at suits
    obtain ⟨offer, found, satisfied⟩ := suits
    obtain ⟨bound, rfl⟩ := List.getElem?_eq_some_iff.mp found
    exact ⟨⟨place, bound⟩, held, satisfied⟩
  choose slot held satisfied using holds
  have only : ∀ place holder, final.holder? place = some holder →
      ∃ condition, (slot condition).val = place := by
    intro place holder heldPlace
    rcases (served holder).mp ⟨place, heldPlace⟩ with pending | ⟨_, heldAtFirst⟩
    · have bound := List.mem_range.mp pending
      exact ⟨⟨holder, bound⟩, matched.single _ place holder (held ⟨holder, bound⟩) heldPlace⟩
    · exact absurd heldAtFirst (nobody_holds_at_first _ holder)
  refine ⟨slot, ?_, satisfied, reported_iff_held held only⟩
  intro first second same
  have equal := (held first).symm.trans (same ▸ held second)
  exact Fin.ext (Option.some.inj equal)

end Assigning

end RangeIndex.ConditionAssignment

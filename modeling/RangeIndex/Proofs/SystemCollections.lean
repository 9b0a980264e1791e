import Mathlib.Data.List.Forall2
import RangeIndex.Proofs.CollectionCoverage
import RangeIndex.Proofs.NearestConfiguration

/-! Internal collections have no part in queries. A public collection is at or below public ones only,
so two registries that hold the same rule sets under all public keys are met by a query in the same
way: each lookup ends under the same key, and two lookups meet one publication in both registries or
in neither. Whatever stands under internal keys, the optimized query is the same. -/
namespace RangeIndex.SystemCollections
open Collection Query RegistryHistory NearestConfiguration QueryWalk PredicateConservation
  CollectionCoverage

section Definitions

/-- A key of an internal collection. -/
def Internal (key : List Char) : Prop := isSystem (String.ofList key) = true

/-- Two registries hold the same rule set, or none, under every key but the internal ones. -/
def SamePublic (first second : Registry) : Prop :=
  ∀ key, ¬ Internal key →
    (first.get? key).map (·.ruleSet) = (second.get? key).map (·.ruleSet)

/-- Two registries hold these publications under one public key. -/
def Paired (first second : Registry) (one other : Publication) : Prop :=
  ∃ key, ¬ Internal key ∧ first.get? key = some one ∧ second.get? key = some other

end Definitions

section Keys
variable {key collection : List Char}

/-- The internal collections are one collection and all below it. -/
theorem internal_iff : Internal key ↔ AtOrAbove system key := by
  have written : (String.ofList key).toList = key := String.toList_ofList
  rw [Internal, isSystem, written, Bool.and_eq_true, List.isPrefixOf_iff_prefix]
  constructor
  · rintro ⟨⟨below, rfl⟩, ends⟩
    rw [List.drop_left] at ends
    cases below with
    | nil => exact .inl (List.append_nil system).symm
    | cons c rest =>
      obtain rfl : c = '/' := by simpa using ends
      exact .inr (.inl (up_to_slash system rest))
  · rintro (rfl | ⟨below, rfl⟩ | ⟨topmost, _⟩)
    · exact ⟨List.prefix_rfl, by rw [List.drop_length]⟩
    · rw [List.append_assoc, List.drop_left]
      exact ⟨List.prefix_append _ _, rfl⟩
    · exact absurd topmost (by decide)

/-- A collection that is looked up under an internal key is internal. -/
theorem public_key {written : String} (visible : isSystem written = false) :
    ¬ Internal (keyOf written) := by
  intro internal
  have above := internal_iff.mp internal
  have below : AtOrAbove system written.toList := by
    rcases key_trimmed written with ⟨_, topmost⟩ | ⟨_, _, slashes, split, cut⟩
    · rw [topmost] at above
      exact absurd above (by unfold AtOrAbove; decide)
    · apply at_or_above_trans above
      cases slashes with
      | nil => exact .inl (by simpa using split.symm)
      | cons c rest =>
        obtain rfl := cut c List.mem_cons_self
        rw [split]
        exact .inr (.inl (up_to_slash _ rest))
  have own := internal_iff.mpr below
  rw [Internal, String.ofList_toList, visible] at own
  cases own

/-- Nothing at or above a public collection is internal. -/
theorem public_above (visible : ¬ Internal collection) (above : AtOrAbove key collection) :
    ¬ Internal key :=
  fun internal => visible (internal_iff.mpr (at_or_above_trans (internal_iff.mp internal) above))

end Keys

section Lookups
variable {first second : Registry}

theorem paired_under_key (same : SamePublic first second) {key : List Char}
    (visible : ¬ Internal key) :
    Option.Rel (Paired first second) (first.get? key) (second.get? key) := by
  have sets := same key visible
  cases held : first.get? key with
  | none =>
    cases heldToo : second.get? key with
    | none => exact .none
    | some other => simp [held, heldToo] at sets
  | some one =>
    cases heldToo : second.get? key with
    | none => simp [held, heldToo] at sets
    | some other => exact .some ⟨key, visible, held, heldToo⟩

theorem paired_on_way (same : SamePublic first second) {way : List (List Char)}
    (visible : ∀ key ∈ way, ¬ Internal key) :
    Option.Rel (Paired first second) (way.findSome? first.get?) (way.findSome? second.get?) := by
  induction way with
  | nil => exact .none
  | cons key rest ih =>
    obtain ⟨here, later⟩ := List.forall_mem_cons.mp visible
    rw [List.findSome?_cons, List.findSome?_cons]
    have met := paired_under_key same here
    generalize first.get? key = one at met ⊢
    generalize second.get? key = other at met ⊢
    cases met with
    | none => exact ih later
    | some paired => exact .some paired

theorem paired_in_effect (same : SamePublic first second) {written : String}
    (visible : isSystem written = false) :
    Option.Rel (Paired first second) (first.inEffect? written) (second.inEffect? written) := by
  apply paired_on_way same
  intro key met
  by_cases nothing : key = []
  · rw [nothing, internal_iff]
    unfold AtOrAbove
    decide
  · exact public_above (public_key visible) ((mem_lineage_iff nothing _).mp met)

end Lookups

section Contributions
variable {first second : Registry} {one other : Publication} {found foundToo : List Publication}

/-- Two lookups meet one publication in both registries or in neither. -/
theorem paired_stamps (stamped : Stamped first) (stampedToo : Stamped second)
    {earlier earlierToo : Publication} (before : Paired first second earlier earlierToo)
    (paired : Paired first second one other) :
    earlier.stamp = one.stamp ↔ earlierToo.stamp = other.stamp := by
  obtain ⟨key, _, held, heldToo⟩ := before
  obtain ⟨own, _, here, hereToo⟩ := paired
  constructor
  · intro same
    obtain rfl := stamped.apart key own earlier one held here same
    rw [Option.some.inj (heldToo.symm.trans hereToo)]
  · intro same
    obtain rfl := stampedToo.apart key own earlierToo other heldToo hereToo same
    rw [Option.some.inj (held.symm.trans here)]

theorem paired_any (stamped : Stamped first) (stampedToo : Stamped second)
    (before : List.Forall₂ (Paired first second) found foundToo)
    (paired : Paired first second one other) :
    (found.any fun p => p.stamp == one.stamp) = foundToo.any fun p => p.stamp == other.stamp := by
  induction before with
  | nil => rfl
  | cons head _ ih =>
    have stamps := paired_stamps stamped stampedToo head paired
    rw [List.any_cons, List.any_cons, ih]
    congr 1
    rw [Bool.eq_iff_iff, beq_iff_eq, beq_iff_eq]
    exact stamps

theorem paired_once (stamped : Stamped first) (stampedToo : Stamped second)
    (before : List.Forall₂ (Paired first second) found foundToo)
    (paired : Paired first second one other) :
    List.Forall₂ (Paired first second) (Registry.addOnce found one)
      (Registry.addOnce foundToo other) := by
  unfold Registry.addOnce
  rw [paired_any stamped stampedToo before paired]
  split
  · exact before
  · exact List.rel_append before (.cons paired .nil)

/-- A collection contributes to both or to neither. -/
theorem paired_contribute (same : SamePublic first second) (stamped : Stamped first)
    (stampedToo : Stamped second) (before : List.Forall₂ (Paired first second) found foundToo)
    (written : String) :
    List.Forall₂ (Paired first second) (contribute first found written)
      (contribute second foundToo written) := by
  unfold contribute
  by_cases internal : isSystem written = true
  · rw [if_pos internal, if_pos internal]
    exact before
  · rw [if_neg internal, if_neg internal]
    have met := paired_in_effect same (Bool.eq_false_iff.mpr internal)
    generalize first.inEffect? written = one at met ⊢
    generalize second.inEffect? written = other at met ⊢
    cases met with
    | none => exact before
    | some paired => exact paired_once stamped stampedToo before paired

theorem paired_contributions (same : SamePublic first second) (stamped : Stamped first)
    (stampedToo : Stamped second) (before : List.Forall₂ (Paired first second) found foundToo)
    (collections : List String) :
    List.Forall₂ (Paired first second) (collections.foldl (contribute first) found)
      (collections.foldl (contribute second) foundToo) := by
  induction collections generalizing found foundToo with
  | nil => exact before
  | cons written rest ih => exact ih (paired_contribute same stamped stampedToo before written)

theorem rule_sets_of_paired (same : SamePublic first second)
    (paired : List.Forall₂ (Paired first second) found foundToo) :
    found.map (·.ruleSet) = foundToo.map (·.ruleSet) := by
  induction paired with
  | nil => rfl
  | cons head _ ih =>
    obtain ⟨key, visible, held, heldToo⟩ := head
    have sets := same key visible
    rw [held, heldToo, Option.map_some, Option.map_some] at sets
    rw [List.map_cons, List.map_cons, ih, Option.some.inj sets]

/-- The rule sets consulted for a path are the same. -/
theorem same_sets_for (same : SamePublic first second) (stamped : Stamped first)
    (stampedToo : Stamped second) (static : StaticContext) (path : Expr) :
    setsFor first static path = setsFor second static path :=
  rule_sets_of_paired same (paired_contributions same stamped stampedToo .nil _)

end Contributions

section Walking
variable {static : StaticContext}

/-- The walk through a query depends on a registry by the rule sets consulted alone. -/
theorem same_walk {first second : Registry}
    (sets : ∀ path, setsFor first static path = setsFor second static path) (e : Expr) :
    e.optimizeWith first static = e.optimizeWith second static := by
  induction e using walk_induction with
  | leaf e leaf => rw [leaf_stays leaf, leaf_stays leaf]
  | located left axis test predicates before inside =>
    rw [located_eq, located_eq, before, lastStep, lastStep, seenTo, seenTo,
      map_predicates_congr inside, optimizeStep, optimizeStep, sets]
  | path left right other before after => rw [path_eq other, path_eq other, before, after]
  | step axis test predicates inside =>
    rw [step_eq, step_eq, seenTo, seenTo, map_predicates_congr inside]
  | filter inner predicates before inside =>
    rw [filter_eq, filter_eq, before, map_predicates_congr inside]
  | binary left op right before after => simp only [binary_eq, before, after]
  | union left right before after => simp only [union_eq, before, after]
  | negate inner before => simp only [negate_eq, before]
  | call function arguments each => rw [call_eq, call_eq, List.map_congr_left each]
  | sequence items each => rw [sequence_eq, sequence_eq, List.map_congr_left each]

/-- Without rule sets the walk changes nothing. -/
theorem walk_without_sets {registry : Registry}
    (none : ∀ path, setsFor registry static path = []) (e : Expr) :
    e.optimizeWith registry static = e := by
  induction e using walk_induction with
  | leaf e leaf => exact leaf_stays leaf
  | located left axis test predicates before inside =>
    have seen : seenTo registry static ⟨axis, test, predicates⟩ = ⟨axis, test, predicates⟩ := by
      rw [seenTo, map_predicates_unchanged inside]
    rw [located_eq, before, lastStep, seen, optimizeStep, none]
    simp
  | path left right other before after => rw [path_eq other, before, after]
  | step axis test predicates inside => rw [step_eq, seenTo, map_predicates_unchanged inside]
  | filter inner predicates before inside =>
    rw [filter_eq, before, map_predicates_unchanged inside]
  | binary left op right before after => rw [binary_eq, before, after]
  | union left right before after => rw [union_eq, before, after]
  | negate inner before => rw [negate_eq, before]
  | call function arguments each => rw [call_eq, map_unchanged each]
  | sequence items each => rw [sequence_eq, map_unchanged each]

theorem no_sets_without_publications {registry : Registry} (empty : registry.isEmpty = true)
    (path : Expr) : setsFor registry static path = [] := by
  rw [List.eq_nil_iff_forall_not_mem]
  intro set consulted
  obtain ⟨collection, _, _, publication, inEffect, _⟩ := consulted_set_in_effect consulted
  obtain ⟨key, _, held⟩ := List.exists_of_findSome?_eq_some inEffect
  rw [Registry.get?, List.isEmpty_iff.mp empty] at held
  cases held

/-- Optimizing is the walk, also when nothing is published. -/
theorem optimize_eq_walk (registry : Registry) (query : Expr) :
    optimize registry static query = query.optimizeWith registry static := by
  unfold optimize
  by_cases empty : registry.isEmpty = true
  · rw [if_pos empty, walk_without_sets (no_sets_without_publications empty)]
  · rw [if_neg empty]

end Walking

/-- Two registries that hold the same rule sets under all public keys, each after any history of its
own, give every query the same optimized form, whatever they hold under internal keys. -/
theorem system_collections_ignored {first second : List Change}
    (same : SamePublic (after first) (after second)) (static : StaticContext) (query : Expr) :
    optimize (after first) static query = optimize (after second) static query := by
  rw [optimize_eq_walk, optimize_eq_walk]
  exact same_walk (same_sets_for same (after_stamped first) (after_stamped second) static) query

section Sample

/-- Entries indexed by name. -/
def namesIndexed (collection : String) : RuleSet :=
  ⟨collection, [{ path := anywhere "entry", fields := [⟨"name", entryNames, {}⟩] }]⟩

/-- A public collection is configured. -/
def configured : Change := .publish (namesIndexed "/db/a")

/-- An internal collection is configured. -/
def configuredInside : Change := .publish (namesIndexed "/db/system/config//")

/-- Both collections are read, in spellings of their own. -/
def spelledApart : StaticContext := { defaultCollections := ["/db/system/config/", "/db/a//"] }

/-- What an internal collection has configured does not change what a query is optimized to. -/
theorem internal_configuration_ignored :
    SamePublic (after [configured]) (after [configuredInside, configured]) ∧
      optimize (after [configured]) spelledApart namedQuery =
        optimize (after [configuredInside, configured]) spelledApart namedQuery ∧
      optimize (after [configured]) spelledApart namedQuery =
        .path fromAnywhere (.lookup namedLookup) := by
  have internal : Internal configuredInside.key :=
    internal_iff.mpr (by unfold AtOrAbove; with_unfolding_all decide)
  have same : SamePublic (after [configured]) (after [configuredInside, configured]) := by
    intro key visible
    by_cases own : configured.key = key
    · subst own
      with_unfolding_all rfl
    · have hidden : configuredInside.key ≠ key := fun same => visible (same ▸ internal)
      change ((configured.apply .empty).get? key).map _ =
        ((configured.apply (configuredInside.apply .empty)).get? key).map _
      rw [get_apply_of_ne own, get_apply_of_ne own, get_apply_of_ne hidden]
  exact ⟨same, system_collections_ignored same spelledApart namedQuery, by with_unfolding_all rfl⟩

end Sample

end RangeIndex.SystemCollections

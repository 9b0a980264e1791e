import RangeIndex.Proofs.QueryWalk

/-! An optimized query has nothing left to optimize. A second walk meets, at every path, a left side
that the first one has been through: it leads to the same locations or to none that are known, and
it starts from the same collections. So whatever the first walk left alone is left alone again, and
lookups are never touched. -/
namespace RangeIndex.OptimizationFixpoint
open Query PredicateFates QueryWalk

section Surroundings
variable {registry : Registry} {static : StaticContext}

theorem context_of_other {right : Expr} (other : ∀ step, right ≠ .step step) (bindings : Bindings)
    (left : Expr) : contextPath? bindings (.path left right) = none := by
  cases right with
  | step last => exact absurd rfl (other last)
  | _ => rfl

/-- The walk does not lead a path to other locations, though it may make them unknown. -/
theorem context_of_walked (e : Expr) {bindings : Bindings} {context : Pattern}
    (known : contextPath? bindings (e.optimizeWith registry static) = some context) :
    contextPath? bindings e = some context := by
  induction e using walk_induction generalizing context with
  | leaf e leaf => rwa [leaf_stays leaf] at known
  | located left axis test predicates before _ =>
    rw [located_eq] at known
    rcases last_step_forms registry static left ⟨axis, test, predicates⟩ with
      alone | ⟨lookup, residual, replaced, _⟩
    · rw [alone] at known
      obtain ⟨pattern, reached, extended⟩ := Option.bind_eq_some_iff.mp known
      exact Option.bind_eq_some_iff.mpr ⟨pattern, before reached, extended⟩
    · rw [replaced, context_of_other fun _ => filtered_is_no_step _ _] at known
      cases known
  | path left right other _ _ =>
    rw [path_eq other, context_of_other] at known
    · cases known
    · intro step same
      obtain ⟨before, rfl⟩ := step_of_step same
      exact other before rfl
  | filter inner predicates inside _ =>
    rw [filter_eq] at known
    exact inside known
  | call function arguments _ =>
    rw [call_eq] at known
    exact known
  | step | binary | union | negate | sequence =>
    simp [contextPath?] at known

/-- The walk goes through the root of a path as well, which is a root still. -/
theorem root_of_walked (e : Expr) : pathRoot? (e.optimizeWith registry static) =
    (pathRoot? e).map (Expr.optimizeWith registry static) := by
  induction e using walk_induction with
  | leaf e leaf =>
    cases e with
    | root | context | parent | string | number | var | lookup => rfl
    | path | step | filter | binary | union | negate | call | sequence => cases leaf
  | located left axis test predicates before _ =>
    rw [located_eq]
    exact before
  | path left right other before _ =>
    rw [path_eq other]
    exact before
  | filter inner predicates inside _ =>
    rw [filter_eq]
    exact inside
  | call function arguments _ =>
    rw [call_eq, pathRoot?, pathRoot?]
    split
    · rw [Option.map_some, call_eq]
    · rfl
  | step | binary | union | negate | sequence => simp [pathRoot?]

theorem no_collections_of_other (function : String) {address : Expr}
    (other : ∀ text, address ≠ .string text) (rest : List Expr) :
    rootCollections static (.call function (address :: rest)) = [] := by
  cases address with
  | string text => exact absurd rfl (other text)
  | _ => rfl

/-- A root is at the same collections after the walk: an address that was a literal stays one, and
no other becomes one. -/
theorem collections_of_walked (e : Expr) :
    rootCollections static (e.optimizeWith registry static) = rootCollections static e := by
  cases e with
  | call function arguments =>
    rw [call_eq]
    cases arguments with
    | nil => rfl
    | cons address rest =>
      rw [List.map_cons]
      by_cases literal : ∃ text, address = .string text
      · obtain ⟨text, rfl⟩ := literal
        rw [leaf_stays rfl]
        rfl
      · have before : ∀ text, address ≠ .string text := fun text same => literal ⟨text, same⟩
        have after : ∀ text, address.optimizeWith registry static ≠ .string text :=
          fun text same => before text (string_of_string same)
        rw [no_collections_of_other function before, no_collections_of_other function after]
  | path left right => cases right <;> simp [rootCollections]
  | step last => simp [rootCollections]
  | _ => rfl

theorem sets_for_walked (path : Expr) :
    setsFor registry static (path.optimizeWith registry static) = setsFor registry static path := by
  have collections : (pathRoot? (path.optimizeWith registry static)).map (rootCollections static) =
      (pathRoot? path).map (rootCollections static) := by
    rw [root_of_walked, Option.map_map]
    have same : rootCollections static ∘ Expr.optimizeWith registry static =
        rootCollections static := funext collections_of_walked
    rw [same]
  rw [setsFor, setsFor, collections]

end Surroundings

section Settling
variable {registry : Registry} {static : StaticContext}

/-- A step left alone where its path was known is left alone where the path is the same or
unknown. -/
theorem step_left_alone {first second : Expr} {step : Step}
    (sets : setsFor registry static second = setsFor registry static first)
    (contexts : ∀ context, contextPath? static.bindings second = some context →
      contextPath? static.bindings first = some context)
    (alone : optimizeStep registry static first step = .step step) :
    optimizeStep registry static second step = .step step := by
  unfold optimizeStep at alone ⊢
  dsimp only at alone ⊢
  rw [sets]
  cases known : contextPath? static.bindings second with
  | none => simp [rewriteStep]
  | some context =>
    rw [contexts context known] at alone
    exact alone

theorem seen_to_settled {step : Step}
    (each : ∀ p ∈ step.predicates, ∀ x ∈ p, x.optimizeWith registry static = x) :
    seenTo registry static step = step := by
  obtain ⟨axis, test, predicates⟩ := step
  rw [seenTo, map_predicates_unchanged each]

/-- What a walk has been through is settled when each part of it is. -/
theorem walked_items_settled {items : List Expr}
    (each : ∀ x ∈ items, (x.optimizeWith registry static).optimizeWith registry static =
      x.optimizeWith registry static) :
    ∀ x ∈ items.map (Expr.optimizeWith registry static), x.optimizeWith registry static = x :=
  List.forall_mem_map.mpr each

theorem walked_predicates_settled {predicates : List Predicate}
    (each : ∀ p ∈ predicates, ∀ x ∈ p,
      (x.optimizeWith registry static).optimizeWith registry static =
        x.optimizeWith registry static) :
    ∀ p ∈ predicates.map (List.map (Expr.optimizeWith registry static)), ∀ x ∈ p,
      x.optimizeWith registry static = x :=
  List.forall_mem_map.mpr fun p member => walked_items_settled (each p member)

theorem filtered_settled (lookup : FieldLookup) {residual : List Predicate}
    (each : ∀ p ∈ residual, ∀ x ∈ p, x.optimizeWith registry static = x) :
    (filtered lookup residual).optimizeWith registry static = filtered lookup residual := by
  unfold filtered
  split
  · exact leaf_stays rfl
  · rw [filter_eq, map_predicates_unchanged each, leaf_stays rfl]

/-- The last step of a path is settled after one walk, whether it was replaced or not. -/
theorem last_step_settled (left : Expr) {step : Step}
    (inside : ∀ p ∈ (seenTo registry static step).predicates, ∀ x ∈ p,
      x.optimizeWith registry static = x)
    (before : (left.optimizeWith registry static).optimizeWith registry static =
      left.optimizeWith registry static) :
    let walked := (Expr.path left (.step step)).optimizeWith registry static
    walked.optimizeWith registry static = walked := by
  intro walked
  have again := seen_to_settled inside
  have same : walked = .path (left.optimizeWith registry static) (lastStep registry static left step) :=
    located_eq left step
  rcases last_step_forms registry static left step with alone | ⟨lookup, residual, replaced, stay⟩
  · rw [alone] at same
    rw [same, located_eq, before, lastStep, again]
    by_cases plain : (seenTo registry static step).predicates.isEmpty = true
    · rw [if_pos plain]
    · have full : ¬ step.predicates.isEmpty = true := by simpa [seenTo] using plain
      rw [lastStep, if_neg full] at alone
      rw [if_neg plain, ← same,
        step_left_alone (sets_for_walked _) (fun _ => context_of_walked _) alone, ← same]
  · rw [replaced] at same
    have settled := filtered_settled lookup fun p member => inside p (stay p member)
    rw [same, path_eq fun _ => filtered_is_no_step _ _, before, settled]

/-- One walk settles a query. -/
theorem walk_settles (e : Expr) :
    (e.optimizeWith registry static).optimizeWith registry static = e.optimizeWith registry static := by
  induction e using walk_induction with
  | leaf e leaf => rw [leaf_stays leaf, leaf_stays leaf]
  | located left axis test predicates before inside =>
    exact last_step_settled left (walked_predicates_settled inside) before
  | path left right other before after =>
    have still : ∀ step, right.optimizeWith registry static ≠ .step step := by
      intro step same
      obtain ⟨first, rfl⟩ := step_of_step same
      exact other first rfl
    rw [path_eq other, path_eq still, before, after]
  | step axis test predicates inside =>
    rw [step_eq, step_eq, seen_to_settled (walked_predicates_settled inside)]
  | filter inner predicates before inside =>
    rw [filter_eq, filter_eq, before, map_predicates_unchanged (walked_predicates_settled inside)]
  | binary left op right before after => simp only [binary_eq, before, after]
  | union left right before after => simp only [union_eq, before, after]
  | negate inner before => simp only [negate_eq, before]
  | call function arguments each =>
    rw [call_eq, call_eq, map_unchanged (walked_items_settled each)]
  | sequence items each =>
    rw [sequence_eq, sequence_eq, map_unchanged (walked_items_settled each)]

end Settling

/-- Optimizing an optimized query against the same publications changes nothing. -/
theorem optimizing_again_changes_nothing (registry : Registry) (static : StaticContext)
    (query : Expr) :
    optimize registry static (optimize registry static query) = optimize registry static query := by
  unfold optimize
  split
  · rfl
  · exact walk_settles query

end RangeIndex.OptimizationFixpoint

import RangeIndex.Proofs.CollectionCoverage

/-! Every lookup keeps the step it stands in for. Putting these steps back, the ones inside their
predicates first, gives the query as it was before it was optimized: the walk neither drops nor adds
nor moves anything else. -/
namespace RangeIndex.StepRestoration
open Query PredicateFates QueryWalk LookupOrigins

mutual

/-- The expression with the step put back for every lookup, and for every lookup with the filter
around it. -/
def restored : Expr → Expr
  | .lookup ⟨_, fallback⟩ => .step (restoredStep fallback)
  | .filter (.lookup ⟨_, fallback⟩) _ => .step (restoredStep fallback)
  | .filter inner predicates => .filter (restored inner) (restoredPredicates predicates)
  | .path left right => .path (restored left) (restored right)
  | .step step => .step (restoredStep step)
  | .binary left op right => .binary (restored left) op (restored right)
  | .union left right => .union (restored left) (restored right)
  | .negate inner => .negate (restored inner)
  | .call function arguments => .call function (restoredAll arguments)
  | .sequence items => .sequence (restoredAll items)
  | .root => .root
  | .context => .context
  | .parent => .parent
  | .string value => .string value
  | .number value => .number value
  | .var name => .var name

/-- The step with the expressions in its predicates restored. -/
def restoredStep : Step → Step
  | ⟨axis, test, predicates⟩ => ⟨axis, test, restoredPredicates predicates⟩

/-- The expressions of a list restored. -/
def restoredAll : List Expr → List Expr
  | [] => []
  | x :: rest => restored x :: restoredAll rest

/-- The predicates of a list restored. -/
def restoredPredicates : List (List Expr) → List (List Expr)
  | [] => []
  | p :: rest => restoredAll p :: restoredPredicates rest

end

theorem restored_all_eq (items : List Expr) : restoredAll items = items.map restored := by
  induction items with
  | nil => rfl
  | cons x rest ih => exact congrArg (restored x :: ·) ih

theorem restored_predicates_eq (predicates : List Predicate) :
    restoredPredicates predicates = predicates.map (List.map restored) := by
  induction predicates with
  | nil => rfl
  | cons p rest ih => exact List.cons_eq_cons.mpr ⟨restored_all_eq p, ih⟩

@[simp] theorem restored_step_eq (step : Step) :
    restoredStep step = { step with predicates := step.predicates.map (List.map restored) } := by
  cases step
  rw [← restored_predicates_eq]
  rfl

theorem restored_filter_eq {inner : Expr} (other : ∀ lookup, inner ≠ .lookup lookup)
    (predicates : List Predicate) : restored (.filter inner predicates) =
      .filter (restored inner) (predicates.map (List.map restored)) := by
  rw [← restored_predicates_eq]
  cases inner with
  | lookup lookup => exact absurd rfl (other lookup)
  | _ => rfl

/-- A lookup is restored to its step whether it is filtered or not. -/
theorem restored_filtered (lookup : FieldLookup) (residual : List Predicate) :
    restored (filtered lookup residual) = .step (restoredStep lookup.fallback) := by
  cases lookup
  unfold filtered
  split <;> rfl

section Walking
variable {registry : Registry} {static : StaticContext}

/-- Only a lookup becomes a lookup. -/
theorem lookup_of_lookup {e : Expr} {lookup : FieldLookup}
    (walked : e.optimizeWith registry static = .lookup lookup) : e = .lookup lookup := by
  cases e with
  | lookup other => rwa [leaf_stays rfl] at walked
  | path left right => cases right <;> simp at walked
  | step last => simp at walked
  | _ => cases walked

theorem walked_predicates_restored {predicates : List Predicate}
    (each : ∀ p ∈ predicates, ∀ x ∈ p,
      restored (x.optimizeWith registry static) = restored x) :
    (predicates.map (List.map (Expr.optimizeWith registry static))).map (List.map restored) =
      predicates.map (List.map restored) := by
  rw [List.map_map]
  refine List.map_congr_left fun p listed => ?_
  rw [Function.comp_apply, List.map_map]
  exact List.map_congr_left (each p listed)

theorem walked_items_restored {items : List Expr}
    (each : ∀ x ∈ items, restored (x.optimizeWith registry static) = restored x) :
    (items.map (Expr.optimizeWith registry static)).map restored = items.map restored := by
  rw [List.map_map]
  exact List.map_congr_left each

/-- The last step of a path is restored whether it was replaced or not. -/
theorem last_step_restored (left : Expr) {step : Step}
    (inside : ∀ p ∈ step.predicates, ∀ x ∈ p,
      restored (x.optimizeWith registry static) = restored x) :
    restored (lastStep registry static left step) = .step (restoredStep step) := by
  have seen : restoredStep (seenTo registry static step) = restoredStep step := by
    simp only [restored_step_eq, seenTo, walked_predicates_restored inside]
  rcases last_step_cases left step with alone | ⟨_, lookup, _, rewritten⟩
  · rw [alone, restored, seen]
  · rw [rewritten.form, restored_filtered, rewritten.fallback, seen]

/-- Optimizing changes nothing that restoring does not undo. -/
theorem walk_restored (e : Expr) :
    restored (e.optimizeWith registry static) = restored e := by
  induction e using walk_induction with
  | leaf e leaf => rw [leaf_stays leaf]
  | located left axis test predicates before inside =>
    rw [located_eq, restored, restored, restored, before, last_step_restored left inside]
  | path left right other before after =>
    rw [path_eq other, restored, restored, before, after]
  | step axis test predicates inside =>
    simp only [step_eq, restored, restored_step_eq, seenTo, walked_predicates_restored inside]
  | filter inner predicates before inside =>
    rw [filter_eq]
    by_cases looked : ∃ lookup, inner = .lookup lookup
    · obtain ⟨⟨entries, fallback⟩, rfl⟩ := looked
      rw [leaf_stays rfl, restored, restored]
    · have first : ∀ lookup, inner ≠ .lookup lookup := fun lookup same => looked ⟨lookup, same⟩
      have second : ∀ lookup, inner.optimizeWith registry static ≠ .lookup lookup :=
        fun lookup same => looked ⟨lookup, lookup_of_lookup same⟩
      rw [restored_filter_eq first, restored_filter_eq second, before,
        walked_predicates_restored inside]
  | binary left op right before after => simp only [binary_eq, restored, before, after]
  | union left right before after => simp only [union_eq, restored, before, after]
  | negate inner before => simp only [negate_eq, restored, before]
  | call function arguments each =>
    rw [call_eq, restored, restored, restored_all_eq, restored_all_eq, walked_items_restored each]
  | sequence items each =>
    rw [sequence_eq, restored, restored, restored_all_eq, restored_all_eq,
      walked_items_restored each]

end Walking

/-- Where there is no lookup there is nothing to restore. -/
theorem restored_of_lookup_free {e : Expr} (free : LookupFree e) : restored e = e := by
  refine lookup_free_induction (fun e own below inside => ?_) free
  cases e with
  | root | context | parent | string | number | var => rfl
  | lookup lookup => exact absurd rfl (own lookup)
  | path left right =>
    obtain ⟨before, after⟩ := forall_mem_pair.mp inside
    rw [restored, before, after]
  | step step =>
    obtain ⟨axis, test, predicates⟩ := step
    rw [restored, restored_step_eq, map_predicates_unchanged (forall_mem_flatten.mp inside)]
  | filter inner predicates =>
    obtain ⟨before, within⟩ := List.forall_mem_cons.mp inside
    have plain : ∀ lookup, inner ≠ .lookup lookup := by
      rintro lookup rfl
      exact below _ List.mem_cons_self lookup (.self _)
    rw [restored_filter_eq plain, before, map_predicates_unchanged (forall_mem_flatten.mp within)]
  | binary left op right =>
    obtain ⟨before, after⟩ := forall_mem_pair.mp inside
    rw [restored, before, after]
  | union left right =>
    obtain ⟨before, after⟩ := forall_mem_pair.mp inside
    rw [restored, before, after]
  | negate inner => rw [restored, List.forall_mem_singleton.mp inside]
  | call function arguments =>
    have each : ∀ x ∈ arguments, restored x = x := inside
    rw [restored, restored_all_eq, map_unchanged each]
  | sequence items =>
    have each : ∀ x ∈ items, restored x = x := inside
    rw [restored, restored_all_eq, map_unchanged each]

/-- Restoring an optimized query that had no lookups gives the query itself. -/
theorem optimizing_only_substitutes_steps (registry : Registry) (static : StaticContext)
    {query : Expr} (free : LookupFree query) :
    restored (optimize registry static query) = query := by
  have unchanged := restored_of_lookup_free free
  unfold optimize
  split
  · exact unchanged
  · rw [walk_restored, unchanged]

section Sample
open PredicateConservation CollectionCoverage

/-- Entries of one name, kept where some entry of that name has a given text. -/
def nestedStep : Step :=
  entries [[.binary namedQuery .eq (.string "y")],
    [.binary (.step ⟨.child, .named "name", []⟩) .eq (.string "x")]]

def nestedQuery : Expr := .path fromAnywhere (.step nestedStep)

/-- The step that the outer lookup keeps has a lookup in its own predicate. -/
def keptStep : Step :=
  { nestedStep with predicates :=
      [.binary (.path fromAnywhere (.lookup namedLookup)) .eq (.string "y")] ::
        nestedStep.predicates.drop 1 }

/-- Both the query and the query in its predicate are optimized, and both are restored. -/
theorem nested_query_restored :
    LookupFree nestedQuery ∧
      optimize oneConfigured sharing nestedQuery =
        .path fromAnywhere (.filter (.lookup ⟨namedLookup.entries, keptStep⟩)
          (keptStep.predicates.take 1)) ∧
      restored (optimize oneConfigured sharing nestedQuery) = nestedQuery := by
  have text (value : String) : LookupFree (.string value) := lookup_free_leaf rfl rfl
  have start : LookupFree fromAnywhere :=
    lookup_free_pair rfl rfl (lookup_free_leaf rfl rfl) (lookup_free_leaf rfl rfl)
  have named : LookupFree (.binary (.step ⟨.child, .named "name", []⟩) .eq (.string "x")) :=
    lookup_free_pair rfl rfl (lookup_free_leaf rfl rfl) (text "x")
  have inner : LookupFree namedQuery :=
    lookup_free_pair rfl rfl start (lookup_free_of_parts rfl (List.forall_mem_singleton.mpr named))
  have compared : LookupFree (.binary namedQuery .eq (.string "y")) :=
    lookup_free_pair rfl rfl inner (text "y")
  have outer : LookupFree (.step nestedStep) :=
    lookup_free_of_parts rfl (forall_mem_pair.mpr ⟨compared, named⟩)
  have free : LookupFree nestedQuery := lookup_free_pair rfl rfl start outer
  exact ⟨free, by with_unfolding_all rfl, optimizing_only_substitutes_steps _ _ free⟩

end Sample

end RangeIndex.StepRestoration

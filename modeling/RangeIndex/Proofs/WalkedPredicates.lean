import RangeIndex.Proofs.CollectionCoverage
import RangeIndex.Proofs.PositionCalls

/-! What walking the predicates of a step means for the step. They are walked first, so the step is
rewritten with lookups inside its predicates where there were steps. This leaves what is examined as it
was: the same predicates make the same comparisons, with walked keys, so the same ones are served, are
dropped and stay. The one thing that can change is whether a predicate that stays may select by position.
A path ending in a step is known to come to nodes, and one ending in a lookup is not; so a predicate that
is a path whose own step is replaced keeps the step around it from being replaced. -/
namespace RangeIndex.WalkedPredicates
open Query RuleResolution PredicateFates Examination QueryWalk LookupOrigins PositionCalls

section Definitions

/-- A predicate that is one path, the last step of which is replaced by a lookup. -/
def EndsInLookup (registry : Registry) (static : StaticContext) (predicate : Predicate) : Prop :=
  ∃ left step lookup, predicate = [.path left (.step step)] ∧ Replaces registry static left step lookup

/-- The predicates that stay when a step is examined. -/
def residual (sets : List RuleSet) (static : StaticContext) (context : Pattern) (step : Step) :
    List Predicate :=
  staying step.predicates (Examination.fates ⟨sets, static, context, step.predicates⟩)

/-- A comparison whose sides have been walked. -/
def walkedComparison (registry : Registry) (static : StaticContext) (comparison : Comparison) :
    Comparison :=
  { comparison with
    path := comparison.path.optimizeWith registry static
    key := comparison.key.optimizeWith registry static }

/-- The shape of a walked predicate. -/
def walkedShape (registry : Registry) (static : StaticContext) (shape : PredicateShape) :
    PredicateShape :=
  { shape with comparison := walkedComparison registry static shape.comparison }

def walkedEntry (registry : Registry) (static : StaticContext) (entry : LookupEntry) : LookupEntry :=
  { entry with key := entry.key.optimizeWith registry static }

/-- The fate of a walked predicate. -/
def walkedFate (registry : Registry) (static : StaticContext) : Fate → Fate
  | .served entry => .served (walkedEntry registry static entry)
  | .residual => .residual
  | .implied => .implied

def walkedExamined (registry : Registry) (static : StaticContext) (examined : Examined) : Examined :=
  ⟨examined.predicate.map (Expr.optimizeWith registry static),
    examined.shape.map (walkedShape registry static), walkedFate registry static examined.fate⟩

end Definitions

section Classes
variable {registry : Registry} {static : StaticContext}

theorem path_never_number_iff {left right : Expr} :
    (Expr.path left right).isNeverNumber = true ↔ ∃ step, right = .step step := by
  cases right <;> simp [Expr.isNeverNumber]

/-- The last step of a path is replaced, or a step it stays. -/
theorem replaced_iff {left : Expr} {step : Step} :
    (∃ lookup, Replaces registry static left step lookup) ↔
      ¬ ∃ other, lastStep registry static left step = .step other := by
  constructor
  · rintro ⟨lookup, others, walked⟩ ⟨other, stays⟩
    rw [located_eq, stays, Expr.path.injEq] at walked
    exact filtered_is_no_step _ _ walked.2.symm
  · intro gone
    rcases last_step_forms registry static left step with alone | ⟨lookup, others, replaced, _⟩
    · exact absurd ⟨_, alone⟩ gone
    · exact ⟨lookup, others, by rw [located_eq, replaced]⟩

theorem ends_in_lookup_iff {left : Expr} {step : Step} :
    EndsInLookup registry static [.path left (.step step)] ↔
      ∃ lookup, Replaces registry static left step lookup := by
  constructor
  · rintro ⟨_, _, lookup, same, replaced⟩
    cases same
    exact ⟨lookup, replaced⟩
  · rintro ⟨lookup, replaced⟩
    exact ⟨left, step, lookup, rfl, replaced⟩

/-- An expression that is no path ending in a step is known never to be a number after the walk if it was
before. -/
theorem never_number_elsewhere {e : Expr} (elsewhere : ∀ left step, e ≠ .path left (.step step)) :
    (e.optimizeWith registry static).isNeverNumber = e.isNeverNumber := by
  cases e with
  | path left right =>
    have other : ∀ step, right ≠ .step step := fun step same => elsewhere left step (same ▸ rfl)
    rw [path_eq other, Bool.eq_iff_iff, path_never_number_iff, path_never_number_iff]
    refine iff_of_false ?_ fun ⟨step, same⟩ => other step same
    rintro ⟨step, walked⟩
    obtain ⟨before, same⟩ := step_of_step walked
    exact other before same
  | root | context | parent | string | number | var | lookup => rw [leaf_stays rfl]
  | step step => rw [step_eq]; rfl
  | filter inner predicates => rw [filter_eq]; rfl
  | binary left op right => rfl
  | union left right => rfl
  | negate inner => rfl
  | call function arguments => rw [call_eq]; rfl
  | sequence items => rw [sequence_eq]; rfl

/-- The walk takes this knowledge away from paths that end in a lookup, and from nothing else. A path to
a last step is known to come to nodes, and still is if the step has stayed one. -/
theorem walked_never_number (e : Expr) :
    (e.optimizeWith registry static).isNeverNumber = true ↔
      e.isNeverNumber = true ∧ ¬ EndsInLookup registry static [e] := by
  by_cases located : ∃ left step, e = .path left (.step step)
  · obtain ⟨left, step, rfl⟩ := located
    rw [located_eq, path_never_number_iff, path_never_number_iff, ends_in_lookup_iff, replaced_iff,
      not_not]
    exact (and_iff_right ⟨step, rfl⟩).symm
  · have elsewhere : ∀ left step, e ≠ .path left (.step step) :=
      fun left step same => located ⟨left, step, same⟩
    rw [never_number_elsewhere elsewhere]
    refine (and_iff_left ?_).symm
    rintro ⟨left, step, _, same, _⟩
    exact elsewhere left step (List.singleton_inj.mp same)

/-- After the walk a predicate may select by position if it could before, or if it ends in a lookup. -/
theorem walked_position_iff (predicate : Predicate) :
    Predicate.mayDependOnPosition (predicate.map (Expr.optimizeWith registry static)) = true ↔
      predicate.mayDependOnPosition = true ∨ EndsInLookup registry static predicate := by
  match predicate with
  | [] => exact iff_of_true rfl (.inl rfl)
  | [e] =>
    simp only [List.map_singleton, Predicate.mayDependOnPosition, walked_calls, Bool.or_eq_true,
      Bool.not_eq_true', ← Bool.not_eq_true, walked_never_number]
    grind
  | _ :: _ :: _ => exact iff_of_true rfl (.inl rfl)

end Classes

section Shapes
variable {registry : Registry} {static : StaticContext}

theorem any_depends_eq (items : List Expr) :
    Expr.anyDependsOnContext items = items.any Expr.dependsOnContext := by
  induction items with
  | nil => rfl
  | cons x rest ih => rw [Expr.anyDependsOnContext, ih, List.any_cons]

/-- A walked expression depends on the context item if and only if it did: what replaces a step is on the
right side of a path. -/
theorem walked_depends (e : Expr) :
    (e.optimizeWith registry static).dependsOnContext = e.dependsOnContext := by
  induction e using walk_induction with
  | leaf e leaf => rw [leaf_stays leaf]
  | located left axis test predicates before inside =>
    rw [located_eq, Expr.dependsOnContext, Expr.dependsOnContext, before]
  | path left right other before after =>
    rw [path_eq other, Expr.dependsOnContext, Expr.dependsOnContext, before]
  | step axis test predicates inside => rw [step_eq]; rfl
  | filter inner predicates before inside =>
    rw [filter_eq, Expr.dependsOnContext, Expr.dependsOnContext, before]
  | binary left op right before after => simp only [binary_eq, Expr.dependsOnContext, before, after]
  | union left right before after => simp only [union_eq, Expr.dependsOnContext, before, after]
  | negate inner before => simp only [negate_eq, Expr.dependsOnContext, before]
  | call function arguments each =>
    rw [call_eq, Expr.dependsOnContext, Expr.dependsOnContext, List.isEmpty_map, any_depends_eq,
      any_depends_eq, any_changed each]
  | sequence items each =>
    rw [sequence_eq, Expr.dependsOnContext, Expr.dependsOnContext, any_depends_eq, any_depends_eq,
      any_changed each]

theorem seen_to_plain {step : Step} (plain : step.predicates.isEmpty = true) :
    seenTo registry static step = step := by
  obtain ⟨axis, test, predicates⟩ := step
  obtain rfl : predicates = [] := List.isEmpty_iff.mp plain
  rfl

theorem inner_of_other {right : Expr} (other : ∀ step, right ≠ .step step) (bindings : Bindings)
    (left : Expr) : innerPath? bindings (.path left right) = none := by
  cases right with
  | step last => exact absurd rfl (other last)
  | _ => rfl

theorem inner_of_full {step : Step} (full : step.predicates.isEmpty = false) (bindings : Bindings)
    (left : Expr) : innerPath? bindings (.path left (.step step)) = none := by
  simp [innerPath?, full]

/-- Only steps without predicates have a relative pattern, and those are walked without a change: a step
that is replaced had predicates, and so no pattern to lose. -/
theorem walked_inner (bindings : Bindings) (e : Expr) :
    innerPath? bindings (e.optimizeWith registry static) = innerPath? bindings e := by
  induction e using walk_induction with
  | leaf e leaf => rw [leaf_stays leaf]
  | located left axis test predicates before inside =>
    rw [located_eq]
    cases plain : predicates.isEmpty with
    | true =>
      rw [lastStep, if_pos plain, seen_to_plain plain, innerPath?, innerPath?, before]
    | false =>
      rw [inner_of_full plain]
      rcases last_step_forms registry static left ⟨axis, test, predicates⟩ with
        alone | ⟨lookup, others, replaced, _⟩
      · rw [alone]
        exact inner_of_full (by simpa [seenTo] using plain) bindings _
      · rw [replaced]
        exact inner_of_other (fun _ => filtered_is_no_step _ _) bindings _
  | path left right other before after =>
    rw [path_eq other, inner_of_other other, inner_of_other]
    intro step walked
    obtain ⟨first, same⟩ := step_of_step walked
    exact other first same
  | step axis test predicates inside =>
    rw [step_eq]
    cases plain : predicates.isEmpty with
    | true => rw [seen_to_plain plain]
    | false =>
      have full : (seenTo registry static ⟨axis, test, predicates⟩).predicates.isEmpty = false := by
        simpa [seenTo] using plain
      simp [innerPath?, full, plain]
  | filter inner predicates before inside => rw [filter_eq]; rfl
  | binary left op right before after => rfl
  | union left right before after => rfl
  | negate inner before => rfl
  | call function arguments each => rw [call_eq]; rfl
  | sequence items each => rw [sequence_eq]; rfl

theorem walked_literal (e : Expr) :
    literalText? (e.optimizeWith registry static) = literalText? e := by
  cases e with
  | root | context | parent | string | number | var | lookup => rw [leaf_stays rfl]
  | path left right => cases right <;> simp [literalText?]
  | step step => rw [step_eq]; rfl
  | filter inner predicates => rw [filter_eq]; rfl
  | binary | union | negate => rfl
  | call function arguments => rw [call_eq]; rfl
  | sequence items => rw [sequence_eq]; rfl

theorem walked_compares (e : Expr) :
    Comparison.of? static (e.optimizeWith registry static) =
      (Comparison.of? static e).map (walkedComparison registry static) := by
  cases e with
  | root | context | parent | string | number | var | lookup => rw [leaf_stays rfl]; rfl
  | path left right => cases right <;> simp [Comparison.of?]
  | step step => rw [step_eq]; rfl
  | filter inner predicates => rw [filter_eq]; rfl
  | binary left op right =>
    rw [binary_eq, Comparison.of?, Comparison.of?, Option.map_map]
    rfl
  | union | negate => rfl
  | call function arguments =>
    rw [call_eq]
    match arguments with
    | [] | [_] | _ :: _ :: _ :: _ => rfl
    | [path, key] =>
      rw [List.map_cons, List.map_singleton, Comparison.of?, Comparison.of?, Option.map_map]
      rfl
  | sequence items => rw [sequence_eq]; rfl

/-- A walked predicate makes the comparison it made before, with both sides walked. -/
theorem walked_shape (predicate : Predicate) :
    PredicateShape.of? static (predicate.map (Expr.optimizeWith registry static)) =
      (PredicateShape.of? static predicate).map (walkedShape registry static) := by
  have compared : Comparison.ofPredicate? static (predicate.map (Expr.optimizeWith registry static)) =
      (Comparison.ofPredicate? static predicate).map (walkedComparison registry static) := by
    match predicate with
    | [] | _ :: _ :: _ => rfl
    | [item] => exact walked_compares item
  rw [PredicateShape.of?, PredicateShape.of?, compared]
  cases Comparison.ofPredicate? static predicate with
  | none => rfl
  | some comparison =>
    simp only [Option.map_some, Option.bind_some, walkedComparison, walked_depends, walked_inner]
    split
    · rfl
    · rw [Option.map_map]
      rfl

/-- Conditions see no difference in a walked predicate. -/
theorem walked_satisfies (shape : PredicateShape) (condition : Condition) :
    (walkedShape registry static shape).satisfies condition = shape.satisfies condition := by
  simp only [PredicateShape.satisfies, walkedShape, walkedComparison, walked_literal]

end Shapes

section Examining
variable {registry : Registry} {static : StaticContext} {sets : List RuleSet} {context : Pattern}

theorem walked_offers (earlier : List Examined) :
    offeredFrom (earlier.map (walkedExamined registry static)) =
      (offeredFrom earlier).map (Prod.map id (walkedShape registry static)) := by
  rw [offeredFrom, offeredFrom, List.zipIdx_map, List.filterMap_map, List.map_filterMap]
  congr 1
  funext placed
  obtain ⟨⟨predicate, shape, fate⟩, place⟩ := placed
  cases fate <;> cases shape <;> rfl

/-- A walked predicate is served by the same field as before, with its key walked, and consumes the same
predicates: the rules see a predicate through its conditions only, and these see no difference. -/
theorem walked_serve (earlier : List Examined) (shape : PredicateShape) :
    serve? sets context (earlier.map (walkedExamined registry static)) (walkedShape registry static shape) =
      (serve? sets context earlier shape).map (Prod.map (walkedEntry registry static) id) := by
  have resolved : Resolution.resolve? sets PredicateShape.satisfies (context.joined shape.inner)
        (offeredFrom (earlier.map (walkedExamined registry static))) =
      Resolution.resolve? sets PredicateShape.satisfies (context.joined shape.inner)
        (offeredFrom earlier) := by
    have seen : (fun offer => PredicateShape.satisfies (walkedShape registry static offer)) =
        PredicateShape.satisfies := funext₂ walked_satisfies
    rw [walked_offers, resolve_map, seen]
  unfold serve?
  dsimp only [walkedShape]
  rw [resolved]
  split
  · rfl
  · simp only [Option.bind_eq_bind, Option.map_bind, Function.comp_def, Option.pure_def,
      Option.map_some]
    rfl

theorem walked_consume (places : List Nat) (earlier : List Examined) :
    consume places (earlier.map (walkedExamined registry static)) =
      (consume places earlier).map (walkedExamined registry static) := by
  rw [consume, consume, List.zipIdx_map, List.map_map, List.map_map]
  congr 1
  funext placed
  obtain ⟨examined, place⟩ := placed
  simp only [Function.comp_apply, Prod.map_apply, id_eq]
  split <;> rfl

/-- Examining a walked predicate among walked ones is walking what is examined. -/
theorem walked_examine (earlier : List Examined) (predicate : Predicate) :
    examine sets static context (earlier.map (walkedExamined registry static))
        (predicate.map (Expr.optimizeWith registry static)) =
      (examine sets static context earlier predicate).map (walkedExamined registry static) := by
  have served : ((PredicateShape.of? static predicate).map (walkedShape registry static)).bind
        (serve? sets context (earlier.map (walkedExamined registry static))) =
      ((PredicateShape.of? static predicate).bind (serve? sets context earlier)).map
        (Prod.map (walkedEntry registry static) id) := by
    rw [Option.bind_map, Option.map_bind]
    exact congrArg _ (funext (walked_serve earlier))
  rw [examine, examine, walked_shape, served]
  cases (PredicateShape.of? static predicate).bind (serve? sets context earlier) with
  | none =>
    rw [Option.map_none, List.map_append]
    rfl
  | some found =>
    obtain ⟨entry, consumed⟩ := found
    rw [Option.map_some, List.map_append, ← walked_consume]
    rfl

theorem walked_examine_all (predicates : List Predicate) :
    examineAll sets static context (predicates.map (List.map (Expr.optimizeWith registry static))) =
      (examineAll sets static context predicates).map (walkedExamined registry static) := by
  have run (earlier : List Examined) :
      (predicates.map (List.map (Expr.optimizeWith registry static))).foldl (examine sets static context)
          (earlier.map (walkedExamined registry static)) =
        (predicates.foldl (examine sets static context) earlier).map (walkedExamined registry static) := by
    induction predicates generalizing earlier with
    | nil => rfl
    | cons predicate rest ih => rw [List.map_cons, List.foldl_cons, List.foldl_cons, walked_examine, ih]
  exact run []

theorem walked_fates (predicates : List Predicate) :
    Examination.fates ⟨sets, static, context,
        predicates.map (List.map (Expr.optimizeWith registry static))⟩ =
      (Examination.fates ⟨sets, static, context, predicates⟩).map (walkedFate registry static) := by
  rw [Examination.fates, Examination.fates, Examination.final, Examination.final, walked_examine_all,
    List.map_map, List.map_map]
  rfl

theorem walked_entries (fates : List Fate) :
    (fates.map (walkedFate registry static)).filterMap Fate.entry? =
      (fates.filterMap Fate.entry?).map (walkedEntry registry static) := by
  rw [List.filterMap_map, List.map_filterMap]
  congr 1
  funext fate
  cases fate <;> rfl

theorem walked_staying (predicates : List Predicate) (fates : List Fate) :
    staying (predicates.map (List.map (Expr.optimizeWith registry static)))
        (fates.map (walkedFate registry static)) =
      (staying predicates fates).map (List.map (Expr.optimizeWith registry static)) := by
  have same : (fun labelled : Predicate × Fate => labelled.2.isResidual) ∘
        Prod.map (List.map (Expr.optimizeWith registry static)) (walkedFate registry static) =
      fun labelled => labelled.2.isResidual := by
    funext labelled
    obtain ⟨_, fate⟩ := labelled
    cases fate <;> rfl
  rw [staying, staying, List.zip_map, List.filter_map, same, List.map_map, List.map_map]
  rfl

theorem walked_named (entries : List LookupEntry) :
    (∀ entry ∈ entries.map (walkedEntry registry static), entry.field ≠ "") ↔
      ∀ entry ∈ entries, entry.field ≠ "" :=
  List.forall_mem_map

/-- No walked predicate may select by position if none could before and none ends in a lookup. -/
theorem walked_positions (predicates : List Predicate) :
    (predicates.map (List.map (Expr.optimizeWith registry static))).any
        Predicate.mayDependOnPosition = false ↔
      predicates.any Predicate.mayDependOnPosition = false ∧
        ∀ p ∈ predicates, ¬ EndsInLookup registry static p := by
  simp only [List.any_eq_false, List.forall_mem_map, walked_position_iff, not_or, forall_and]

/-- A step whose predicates were walked is rewritten where the step as written would be, unless a
predicate that stays ends in a lookup. -/
theorem walked_step_rewritten_iff (step : Step) :
    (rewriteStep? sets static context (seenTo registry static step)).isSome = true ↔
      (rewriteStep? sets static context step).isSome = true ∧
        ∀ p ∈ residual sets static context step, ¬ EndsInLookup registry static p := by
  have fates : Examination.fates ⟨sets, static, context, (seenTo registry static step).predicates⟩ =
      (Examination.fates ⟨sets, static, context, step.predicates⟩).map (walkedFate registry static) :=
    walked_fates step.predicates
  have written := rewrite_step_some_iff sets static context step
  refine (rewrite_step_some_iff sets static context (seenTo registry static step)).trans ?_
  refine Iff.trans ?_ (and_congr_left' written.symm)
  rw [fates, walked_entries, walked_named, ne_eq, List.map_eq_nil_iff, seenTo, walked_staying,
    walked_positions, and_assoc, and_assoc]
  rfl

end Examining

/-- Walking a predicate leaves its class as it is exactly when it does not end in a lookup or may select
by position anyhow. So the predicates of a step can be walked before the step is rewritten: the step is
replaced as it would be without that, unless a predicate that stays ends in a lookup. -/
theorem classed_alike_iff (registry : Registry) (static : StaticContext) :
    (∀ predicate : Predicate,
      Predicate.mayDependOnPosition (Expr.optimizeAll registry static predicate) =
          predicate.mayDependOnPosition ↔
        (EndsInLookup registry static predicate → predicate.mayDependOnPosition = true)) ∧
    ∀ sets context (step : Step),
      (rewriteStep? sets static context (seenTo registry static step)).isSome = true ↔
        (rewriteStep? sets static context step).isSome = true ∧
          ∀ predicate ∈ residual sets static context step,
            ¬ EndsInLookup registry static predicate := by
  refine ⟨fun predicate => ?_, fun sets context step => walked_step_rewritten_iff step⟩
  rw [optimize_all_eq, Bool.eq_iff_iff, walked_position_iff]
  exact or_iff_left_iff_imp

section Sample
open PredicateConservation CollectionCoverage

/-- Entries of one name, if there is any entry of that name. -/
def guardedStep : Step := entries (namedEntries.predicates ++ [[namedQuery]])

theorem named_query_lookup_free : LookupFree namedQuery := by
  have start : LookupFree fromAnywhere :=
    lookup_free_pair rfl rfl (lookup_free_leaf rfl rfl) (lookup_free_leaf rfl rfl)
  have named : LookupFree (.binary (.step ⟨.child, .named "name", []⟩) .eq (.string "x")) :=
    lookup_free_pair rfl rfl (lookup_free_leaf rfl rfl) (lookup_free_leaf rfl rfl)
  exact lookup_free_pair rfl rfl start
    (lookup_free_of_parts rfl (List.forall_mem_singleton.mpr named))

/-- The predicate `[//entry[name = "x"]]` does not select by position, but after the walk it is said that
it may. The step it stays at would be replaced as it is written, and is not. -/
theorem nested_path_reclassed :
    let sets := setsFor oneConfigured sharing namedQuery
    LookupFree namedQuery ∧
      Predicate.mayDependOnPosition [namedQuery] = false ∧
      Predicate.mayDependOnPosition (Expr.optimizeAll oneConfigured sharing [namedQuery]) = true ∧
      (rewriteStep? sets sharing (anywhere "entry") guardedStep).isSome = true ∧
      optimize oneConfigured sharing (.path fromAnywhere (.step guardedStep)) =
        .path fromAnywhere (.step (entries
          (namedEntries.predicates ++ [[.path fromAnywhere (.lookup namedLookup)]]))) := by
  refine ⟨named_query_lookup_free, rfl, ?_, ?_, ?_⟩ <;> with_unfolding_all rfl

end Sample

end RangeIndex.WalkedPredicates

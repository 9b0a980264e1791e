import RangeIndex.Proofs.QueryWalk

/-! Where the lookups of an optimized query come from. One that was not in the query takes the place
of the last step of some path in it, and all else inside it, its keys and the step it stands in for,
comes from the predicates of that step. -/
namespace RangeIndex.LookupOrigins
open Query PredicateFates QueryWalk

section Occurring

/-- The expressions right inside an expression, those in its predicates included. -/
def parts : Expr → List Expr
  | .path left right => [left, right]
  | .step step => step.predicates.flatten
  | .filter inner predicates => inner :: predicates.flatten
  | .binary left _ right => [left, right]
  | .union left right => [left, right]
  | .negate inner => [inner]
  | .call _ arguments => arguments
  | .sequence items => items
  | .lookup lookup =>
    lookup.entries.map (fun entry => entry.key) ++ lookup.fallback.predicates.flatten
  | .root | .context | .parent | .string _ | .number _ | .var _ => []

/-- An expression is another one or somewhere inside it. -/
inductive Occurs : Expr → Expr → Prop where
  | self (e : Expr) : Occurs e e
  | inside {e part whole : Expr} : part ∈ parts whole → Occurs e part → Occurs e whole

theorem occurs_iff {e whole : Expr} :
    Occurs e whole ↔ e = whole ∨ ∃ part ∈ parts whole, Occurs e part := by
  constructor
  · intro occurs
    cases occurs with
    | self => exact .inl rfl
    | inside member deeper => exact .inr ⟨_, member, deeper⟩
  · rintro (rfl | ⟨part, member, deeper⟩)
    · exact .self e
    · exact .inside member deeper

theorem forall_mem_flatten {predicates : List Predicate} {holds : Expr → Prop} :
    (∀ x ∈ predicates.flatten, holds x) ↔ ∀ p ∈ predicates, ∀ x ∈ p, holds x := by
  constructor
  · intro each p listed x member
    exact each x (List.mem_flatten.mpr ⟨p, listed, member⟩)
  · intro each x member
    obtain ⟨p, listed, member⟩ := List.mem_flatten.mp member
    exact each p listed x member

theorem forall_mem_pair {left right : Expr} {holds : Expr → Prop} :
    (∀ x ∈ [left, right], holds x) ↔ holds left ∧ holds right := by
  rw [List.forall_mem_cons, List.forall_mem_singleton]

end Occurring

/-- No part of the expression is a lookup. -/
def LookupFree (e : Expr) : Prop := ∀ lookup, ¬ Occurs (.lookup lookup) e

section Unoptimized

theorem part_lookup_free {part whole : Expr} (free : LookupFree whole) (member : part ∈ parts whole) :
    LookupFree part :=
  fun lookup occurs => free lookup (.inside member occurs)

def isLookup : Expr → Bool
  | .lookup _ => true
  | _ => false

theorem lookup_free_of_parts {e : Expr} (own : isLookup e = false)
    (each : ∀ part ∈ parts e, LookupFree part) : LookupFree e := by
  intro lookup occurs
  rcases occurs_iff.mp occurs with self | ⟨part, member, deeper⟩
  · subst self
    cases own
  · exact each part member lookup deeper

theorem lookup_free_leaf {e : Expr} (own : isLookup e = false) (alone : parts e = []) :
    LookupFree e :=
  lookup_free_of_parts own (by simp [alone])

theorem lookup_free_pair {e left right : Expr} (own : isLookup e = false)
    (two : parts e = [left, right]) (first : LookupFree left) (second : LookupFree right) :
    LookupFree e :=
  lookup_free_of_parts own (two ▸ forall_mem_pair.mpr ⟨first, second⟩)

/-- Induction over the parts of an expression without lookups. -/
@[elab_as_elim]
theorem lookup_free_induction {motive : Expr → Prop}
    (each : ∀ e, (∀ lookup, e ≠ .lookup lookup) → (∀ part ∈ parts e, LookupFree part) →
      (∀ part ∈ parts e, motive part) → motive e)
    {e : Expr} (free : LookupFree e) : motive e := by
  have whole {e : Expr} (free : LookupFree e)
      (inside : ∀ part ∈ parts e, LookupFree part → motive part) : motive e := by
    have below : ∀ part ∈ parts e, LookupFree part := fun _ member => part_lookup_free free member
    exact each e (fun lookup same => free lookup (same ▸ .self e)) below
      fun part member => inside part member (below part member)
  induction e using walk_induction with
  | leaf e leaf =>
    refine whole free fun part member => ?_
    cases e with
    | lookup lookup => exact absurd (.self _) (free lookup)
    | root | context | parent | string | number | var => cases member
    | path | step | filter | binary | union | negate | call | sequence => cases leaf
  | located left axis test predicates before inside =>
    have last : ∀ part ∈ parts (.step ⟨axis, test, predicates⟩), LookupFree part → motive part :=
      forall_mem_flatten.mpr inside
    refine whole free (List.forall_mem_cons.mpr ⟨before, List.forall_mem_cons.mpr ⟨?_, nofun⟩⟩)
    exact fun free => whole free last
  | path left right other before after =>
    exact whole free (forall_mem_pair.mpr ⟨before, after⟩)
  | step axis test predicates inside => exact whole free (forall_mem_flatten.mpr inside)
  | filter inner predicates before inside =>
    exact whole free (List.forall_mem_cons.mpr ⟨before, forall_mem_flatten.mpr inside⟩)
  | binary left op right before after =>
    exact whole free (forall_mem_pair.mpr ⟨before, after⟩)
  | union left right before after => exact whole free (forall_mem_pair.mpr ⟨before, after⟩)
  | negate inner before => exact whole free (List.forall_mem_singleton.mpr before)
  | call function arguments inside => exact whole free inside
  | sequence items inside => exact whole free inside

end Unoptimized

/-- A lookup takes the place of the last step of a path, with some predicates around it or none. -/
def Replaces (registry : Registry) (static : StaticContext) (left : Expr) (step : Step)
    (lookup : FieldLookup) : Prop :=
  ∃ residual, (Expr.path left (.step step)).optimizeWith registry static =
    .path (left.optimizeWith registry static) (filtered lookup residual)

section Replacing
variable {registry : Registry} {static : StaticContext} {left : Expr} {step : Step}
  {lookup : FieldLookup}

theorem filtered_lookup_unique {other : FieldLookup} {residual others : List Predicate}
    (same : filtered lookup residual = filtered other others) : lookup = other := by
  unfold filtered at same
  split at same
  · split at same
    · exact Expr.lookup.inj same
    · cases same
  · split at same
    · cases same
    · exact Expr.lookup.inj (Expr.filter.inj same).1

/-- A replaced step is at a path that is known, and the lookup is what its predicates were rewritten
to. -/
theorem replaced_parts (replaced : Replaces registry static left step lookup) :
    ∃ context, contextPath? static.bindings (.path left (.step step)) = some context ∧
      Rewritten ⟨setsFor registry static (.path left (.step step)), static, context,
        (seenTo registry static step).predicates⟩ (seenTo registry static step)
        (lastStep registry static left step) lookup := by
  obtain ⟨residual, walked⟩ := replaced
  rw [located_eq, Expr.path.injEq] at walked
  rcases last_step_cases left step with alone | ⟨context, found, known, rewritten⟩
  · exact absurd (walked.2.symm.trans alone) (filtered_is_no_step _ _)
  · have same : found = lookup := filtered_lookup_unique (rewritten.form.symm.trans walked.2)
    exact ⟨context, known, same ▸ rewritten⟩

/-- The key of a comparison is part of the one expression in its predicate. -/
theorem key_is_part {predicate : Predicate} {shape : PredicateShape}
    (shaped : PredicateShape.of? static predicate = some shape) :
    ∃ x ∈ predicate, shape.comparison.key ∈ parts x := by
  rcases shape_forms shaped with ⟨op, same⟩ | ⟨function, same, _⟩
  · exact ⟨_, same ▸ List.mem_singleton_self _, by simp [parts]⟩
  · exact ⟨_, same ▸ List.mem_singleton_self _, by simp [parts]⟩

theorem entry_key_is_inside {e : Examination} {entry : LookupEntry}
    (member : entry ∈ e.fates.filterMap Fate.entry?) :
    ∃ x ∈ e.predicates.flatten, entry.key ∈ parts x := by
  obtain ⟨fate, found, taken⟩ := List.mem_filterMap.mp member
  have served : fate = .served entry := by
    cases fate with
    | served other => exact congrArg Fate.served (Option.some.inj taken)
    | residual | implied => cases taken
  subst served
  obtain ⟨place, at'⟩ := List.mem_iff_getElem?.mp found
  obtain ⟨⟨_, first⟩, _⟩ := Examination.served_iff.mp at'
  obtain ⟨shape, _, _, serves, _⟩ := Examination.served_at_spec first
  obtain ⟨predicate, origin, shaped⟩ := Option.bind_eq_some_iff.mp serves.shaped
  obtain ⟨x, inside, key⟩ := key_is_part shaped
  refine ⟨x, List.mem_flatten.mpr ⟨predicate, List.mem_of_getElem? origin, inside⟩, ?_⟩
  rw [serves.columns]
  exact key

/-- What is put in place of a step holds nothing new but the lookup itself. -/
theorem occurs_in_replacement {found : FieldLookup} {e : Examination} {result : Expr}
    (same : e.predicates = step.predicates)
    (rewritten : Rewritten e step result lookup) (occurs : Occurs (.lookup found) result) :
    found = lookup ∨ ∃ x ∈ step.predicates.flatten, Occurs (.lookup found) x := by
  have inLookup : Occurs (.lookup found) (.lookup lookup) →
      found = lookup ∨ ∃ x ∈ step.predicates.flatten, Occurs (.lookup found) x := by
    intro occurs
    rcases occurs_iff.mp occurs with self | ⟨part, member, deeper⟩
    · exact .inl (Expr.lookup.inj self)
    · right
      rcases List.mem_append.mp member with key | kept
      · obtain ⟨entry, listed, rfl⟩ := List.mem_map.mp key
        have listed : entry ∈ e.fates.filterMap Fate.entry? := rewritten.entries ▸ listed
        obtain ⟨x, origin, key⟩ := entry_key_is_inside listed
        exact ⟨x, same ▸ origin, .inside key deeper⟩
      · exact ⟨part, rewritten.fallback ▸ kept, deeper⟩
  rw [rewritten.form, filtered] at occurs
  split at occurs
  · exact inLookup occurs
  · rcases occurs_iff.mp occurs with self | ⟨part, member, deeper⟩
    · cases self
    · rcases List.mem_cons.mp member with rfl | kept
      · exact inLookup deeper
      · obtain ⟨p, stays, inside⟩ := List.mem_flatten.mp kept
        exact .inr ⟨part, List.mem_flatten.mpr ⟨p, mem_staying stays, inside⟩, deeper⟩

end Replacing

/-- A lookup was in a query, or replaces the last step of some path in it. -/
def ComesFrom (registry : Registry) (static : StaticContext) (lookup : FieldLookup) (query : Expr) :
    Prop :=
  Occurs (.lookup lookup) query ∨
    ∃ left step, Occurs (.path left (.step step)) query ∧ Replaces registry static left step lookup

section Origins
variable {registry : Registry} {static : StaticContext} {lookup : FieldLookup}

theorem comes_from_part {part whole : Expr} (member : part ∈ parts whole)
    (origin : ComesFrom registry static lookup part) : ComesFrom registry static lookup whole := by
  rcases origin with before | ⟨left, step, path, replaced⟩
  · exact .inl (.inside member before)
  · exact .inr ⟨left, step, .inside member path, replaced⟩

/-- Where the parts of an expression are walked one by one, lookups come from them. -/
theorem comes_from_walked_parts {e : Expr}
    (walked : parts (e.optimizeWith registry static) =
      (parts e).map (Expr.optimizeWith registry static))
    (noLookup : e.optimizeWith registry static ≠ .lookup lookup)
    (each : ∀ part ∈ parts e, Occurs (.lookup lookup) (part.optimizeWith registry static) →
      ComesFrom registry static lookup part)
    (occurs : Occurs (.lookup lookup) (e.optimizeWith registry static)) :
    ComesFrom registry static lookup e := by
  rcases occurs_iff.mp occurs with self | ⟨x, member, deeper⟩
  · exact absurd self.symm noLookup
  · rw [walked] at member
    obtain ⟨part, inside, rfl⟩ := List.mem_map.mp member
    exact comes_from_part inside (each part inside deeper)

/-- A step that is not at the end of a path has only its predicates walked. -/
theorem step_origin {step : Step}
    (inside : ∀ x ∈ step.predicates.flatten, Occurs (.lookup lookup) (x.optimizeWith registry static) →
      ComesFrom registry static lookup x)
    (occurs : Occurs (.lookup lookup) ((Expr.step step).optimizeWith registry static)) :
    ComesFrom registry static lookup (.step step) := by
  refine comes_from_walked_parts ?_ (by simp) inside occurs
  rw [step_eq]
  exact List.map_flatten.symm

/-- The last step of a path is walked like any other unless it is replaced. -/
theorem located_origin {left : Expr} {step : Step}
    (before : Occurs (.lookup lookup) (left.optimizeWith registry static) →
      ComesFrom registry static lookup left)
    (inside : ∀ x ∈ step.predicates.flatten, Occurs (.lookup lookup) (x.optimizeWith registry static) →
      ComesFrom registry static lookup x)
    (occurs : Occurs (.lookup lookup) ((Expr.path left (.step step)).optimizeWith registry static)) :
    ComesFrom registry static lookup (.path left (.step step)) := by
  have walkedStep : Occurs (.lookup lookup) (.step (seenTo registry static step)) →
      ComesFrom registry static lookup (.path left (.step step)) := by
    intro occurs
    rw [← step_eq] at occurs
    exact comes_from_part (by simp [parts]) (step_origin inside occurs)
  rw [located_eq] at occurs
  rcases occurs_iff.mp occurs with self | ⟨part, member, deeper⟩
  · cases self
  · rcases List.mem_cons.mp member with rfl | member
    · exact comes_from_part (by simp [parts]) (before deeper)
    · rw [List.mem_singleton.mp member] at deeper
      rcases last_step_cases left step with alone | ⟨_, found, _, rewritten⟩
      · exact walkedStep (alone ▸ deeper)
      · rcases occurs_in_replacement rfl rewritten deeper with rfl | ⟨x, listed, deeper⟩
        · have walked : (Expr.path left (.step step)).optimizeWith registry static = _ :=
            located_eq left step
          rw [rewritten.form] at walked
          exact .inr ⟨left, step, .self _, _, walked⟩
        · exact walkedStep (.inside listed deeper)

/-- Every lookup of a walked query was there before, or is there because a step was replaced. -/
theorem lookup_origin (e : Expr)
    (occurs : Occurs (.lookup lookup) (e.optimizeWith registry static)) :
    ComesFrom registry static lookup e := by
  induction e using walk_induction with
  | leaf e leaf =>
    rw [leaf_stays leaf] at occurs
    exact .inl occurs
  | located left axis test predicates before inside =>
    exact located_origin before (forall_mem_flatten.mpr inside) occurs
  | path left right other before after =>
    refine comes_from_walked_parts ?_ ?_ ?_ occurs
    · rw [path_eq other]; rfl
    · rw [path_eq other]; nofun
    · simpa [parts] using ⟨before, after⟩
  | step axis test predicates inside =>
    exact step_origin (forall_mem_flatten.mpr inside) occurs
  | filter inner predicates before inside =>
    refine comes_from_walked_parts ?_ (by simp) ?_ occurs
    · rw [filter_eq]
      exact congrArg (_ :: ·) List.map_flatten.symm
    · exact List.forall_mem_cons.mpr ⟨before, forall_mem_flatten.mpr inside⟩
  | binary left op right before after =>
    refine comes_from_walked_parts (by simp [parts]) ?_ ?_ occurs
    · simp
    · simpa [parts] using ⟨before, after⟩
  | union left right before after =>
    refine comes_from_walked_parts (by simp [parts]) ?_ ?_ occurs
    · simp
    · simpa [parts] using ⟨before, after⟩
  | negate inner before =>
    refine comes_from_walked_parts (by simp [parts]) ?_ ?_ occurs
    · simp
    · simpa [parts] using before
  | call function arguments each =>
    exact comes_from_walked_parts (by simp [parts]) (by simp) each occurs
  | sequence items each =>
    exact comes_from_walked_parts (by simp [parts]) (by simp) each occurs

end Origins

end RangeIndex.LookupOrigins

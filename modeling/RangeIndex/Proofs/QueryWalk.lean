import RangeIndex.Proofs.PredicateFates
import RangeIndex.Query.Optimizing

/-! Optimizing goes through a query from the inside out and keeps its shape. The one place where
something changes is the last step of a path: it becomes a lookup, filtered or not, when the rules
in effect where the path starts find one, and otherwise it stays. -/
namespace RangeIndex.QueryWalk
open Query PredicateFates

/-- Expressions with no others inside, and lookups, which are left as they are. -/
def isLeaf : Expr → Bool
  | .root | .context | .parent | .string _ | .number _ | .var _ | .lookup _ => true
  | _ => false

/-- Induction along the walk. The last step of a path is met together with the path. -/
@[elab_as_elim]
theorem walk_induction {motive : Expr → Prop}
    (leaf : ∀ e, isLeaf e = true → motive e)
    (located : ∀ left axis test predicates, motive left → (∀ p ∈ predicates, ∀ x ∈ p, motive x) →
      motive (.path left (.step ⟨axis, test, predicates⟩)))
    (path : ∀ left right, (∀ step, right ≠ .step step) → motive left → motive right →
      motive (.path left right))
    (step : ∀ axis test predicates, (∀ p ∈ predicates, ∀ x ∈ p, motive x) →
      motive (.step ⟨axis, test, predicates⟩))
    (filter : ∀ inner predicates, motive inner → (∀ p ∈ predicates, ∀ x ∈ p, motive x) →
      motive (.filter inner predicates))
    (binary : ∀ left op right, motive left → motive right → motive (.binary left op right))
    (union : ∀ left right, motive left → motive right → motive (.union left right))
    (negate : ∀ inner, motive inner → motive (.negate inner))
    (call : ∀ function arguments, (∀ x ∈ arguments, motive x) → motive (.call function arguments))
    (sequence : ∀ items, (∀ x ∈ items, motive x) → motive (.sequence items)) (e : Expr) :
    motive e := by
  have none (α : Type) (holds : α → Prop) : ∀ x ∈ ([] : List α), holds x := by simp
  refine Expr.optimizeWith.induct default {} motive (fun items => ∀ x ∈ items, motive x)
    (fun predicates => ∀ p ∈ predicates, ∀ x ∈ p, motive x)
    ?located ?path step filter binary union negate call sequence
    (leaf _ rfl) (leaf _ rfl) (leaf _ rfl) (fun _ => leaf _ rfl) (fun _ => leaf _ rfl)
    (fun _ => leaf _ rfl) (fun _ => leaf _ rfl) (none _ _) ?predicates (none _ _) ?items e
  case located =>
    intro left axis test predicates inside before
    exact located left axis test predicates before inside
  case path =>
    intro left right other before after
    refine path left right ?_ before after
    rintro ⟨axis, test, predicates⟩ same
    exact other axis test predicates same
  case predicates =>
    intro p rest first others
    exact List.forall_mem_cons.mpr ⟨first, others⟩
  case items =>
    intro x rest first others
    exact List.forall_mem_cons.mpr ⟨first, others⟩

section Lists
variable {change : Expr → Expr}

theorem map_unchanged {items : List Expr} (each : ∀ x ∈ items, change x = x) :
    items.map change = items := by
  rw [List.map_congr_left each, List.map_id']

theorem map_predicates_congr {other : Expr → Expr} {predicates : List Predicate}
    (each : ∀ p ∈ predicates, ∀ x ∈ p, change x = other x) :
    predicates.map (List.map change) = predicates.map (List.map other) :=
  List.map_congr_left fun p member => List.map_congr_left (each p member)

theorem map_predicates_unchanged {predicates : List Predicate}
    (each : ∀ p ∈ predicates, ∀ x ∈ p, change x = x) :
    predicates.map (List.map change) = predicates := by
  rw [List.map_congr_left fun p member => map_unchanged (each p member), List.map_id']

end Lists

section Shape
variable {registry : Registry} {static : StaticContext}

theorem optimize_all_eq (items : List Expr) :
    Expr.optimizeAll registry static items = items.map (Expr.optimizeWith registry static) := by
  induction items with
  | nil => rfl
  | cons x rest ih => exact congrArg (x.optimizeWith registry static :: ·) ih

theorem optimize_predicates_eq (predicates : List Predicate) :
    Expr.optimizePredicates registry static predicates =
      predicates.map (List.map (Expr.optimizeWith registry static)) := by
  induction predicates with
  | nil => rfl
  | cons p rest ih => exact List.cons_eq_cons.mpr ⟨optimize_all_eq p, ih⟩

theorem leaf_stays {e : Expr} (leaf : isLeaf e = true) : e.optimizeWith registry static = e := by
  cases e with
  | root | context | parent | string | number | var | lookup => rfl
  | path | step | filter | binary | union | negate | call | sequence => cases leaf

/-- The step that a path ends in once the expressions in its predicates have been seen to. -/
def seenTo (registry : Registry) (static : StaticContext) (step : Step) : Step :=
  { step with predicates := step.predicates.map (List.map (Expr.optimizeWith registry static)) }

/-- What the last step of a path becomes. -/
def lastStep (registry : Registry) (static : StaticContext) (left : Expr) (step : Step) : Expr :=
  if step.predicates.isEmpty then .step (seenTo registry static step)
  else optimizeStep registry static (.path left (.step step)) (seenTo registry static step)

@[simp] theorem located_eq (left : Expr) (step : Step) :
    (Expr.path left (.step step)).optimizeWith registry static =
      .path (left.optimizeWith registry static) (lastStep registry static left step) := by
  obtain ⟨axis, test, predicates⟩ := step
  simp only [lastStep, seenTo, ← optimize_predicates_eq]
  rfl

@[simp] theorem path_eq {right : Expr} (other : ∀ step, right ≠ .step step) (left : Expr) :
    (Expr.path left right).optimizeWith registry static =
      .path (left.optimizeWith registry static) (right.optimizeWith registry static) := by
  cases right with
  | step step => exact absurd rfl (other step)
  | _ => rfl

@[simp] theorem step_eq (step : Step) :
    (Expr.step step).optimizeWith registry static = .step (seenTo registry static step) := by
  obtain ⟨axis, test, predicates⟩ := step
  simp only [seenTo, ← optimize_predicates_eq]
  rfl

@[simp] theorem filter_eq (inner : Expr) (predicates : List Predicate) :
    (Expr.filter inner predicates).optimizeWith registry static =
      .filter (inner.optimizeWith registry static)
        (predicates.map (List.map (Expr.optimizeWith registry static))) := by
  rw [← optimize_predicates_eq]
  rfl

@[simp] theorem binary_eq (left : Expr) (op : BinaryOp) (right : Expr) :
    (Expr.binary left op right).optimizeWith registry static =
      .binary (left.optimizeWith registry static) op (right.optimizeWith registry static) :=
  rfl

@[simp] theorem union_eq (left right : Expr) : (Expr.union left right).optimizeWith registry static =
    .union (left.optimizeWith registry static) (right.optimizeWith registry static) :=
  rfl

@[simp] theorem negate_eq (inner : Expr) : (Expr.negate inner).optimizeWith registry static =
    .negate (inner.optimizeWith registry static) :=
  rfl

@[simp] theorem call_eq (function : String) (arguments : List Expr) :
    (Expr.call function arguments).optimizeWith registry static =
      .call function (arguments.map (Expr.optimizeWith registry static)) := by
  rw [← optimize_all_eq]
  rfl

@[simp] theorem sequence_eq (items : List Expr) :
    (Expr.sequence items).optimizeWith registry static =
      .sequence (items.map (Expr.optimizeWith registry static)) := by
  rw [← optimize_all_eq]
  rfl

/-- Only a step becomes a step, and only a string becomes a string. -/
theorem step_of_step {e : Expr} {step : Step}
    (walked : e.optimizeWith registry static = .step step) : ∃ before, e = .step before := by
  cases e with
  | step before => exact ⟨before, rfl⟩
  | path left right => cases right <;> simp at walked
  | _ => cases walked

theorem string_of_string {e : Expr} {value : String}
    (walked : e.optimizeWith registry static = .string value) : e = .string value := by
  cases e with
  | string other => exact walked
  | path left right => cases right <;> simp at walked
  | step last => simp at walked
  | _ => cases walked

end Shape

section Replacing
variable {registry : Registry} {static : StaticContext} {path : Expr} {step : Step}

theorem mem_staying {predicates : List Predicate} {fates : List Fate} {p : Predicate}
    (stays : p ∈ staying predicates fates) : p ∈ predicates := by
  obtain ⟨⟨_, fate⟩, kept, rfl⟩ := List.mem_map.mp stays
  exact (List.of_mem_zip (List.mem_filter.mp kept).1).1

/-- A step is replaced only where its path is known and the rules in effect find a lookup for it. -/
theorem optimize_step_cases :
    optimizeStep registry static path step = .step step ∨
      ∃ context lookup, contextPath? static.bindings path = some context ∧
        Rewritten ⟨setsFor registry static path, static, context, step.predicates⟩ step
          (optimizeStep registry static path step) lookup := by
  unfold optimizeStep
  dsimp only
  by_cases unindexed : (setsFor registry static path).isEmpty = true
  · exact .inl (if_pos unindexed)
  · rw [if_neg unindexed, rewriteStep]
    cases known : contextPath? static.bindings path with
    | none => exact .inl rfl
    | some context =>
      rw [Option.bind_some]
      cases ran : rewriteStep? (setsFor registry static path) static context step with
      | none => exact .inl rfl
      | some result =>
        obtain ⟨lookup, rewritten⟩ := rewrite_step_parts ran
        exact .inr ⟨context, lookup, rfl, rewritten⟩

theorem last_step_cases (left : Expr) (step : Step) :
    lastStep registry static left step = .step (seenTo registry static step) ∨
      ∃ context lookup, contextPath? static.bindings (.path left (.step step)) = some context ∧
        Rewritten ⟨setsFor registry static (.path left (.step step)), static, context,
          (seenTo registry static step).predicates⟩ (seenTo registry static step)
          (lastStep registry static left step) lookup := by
  unfold lastStep
  by_cases plain : step.predicates.isEmpty = true
  · exact .inl (if_pos plain)
  · rw [if_neg plain]
    exact optimize_step_cases

/-- A lookup put in place of a step is filtered by predicates of the step alone. -/
theorem last_step_forms (registry : Registry) (static : StaticContext) (left : Expr)
    (step : Step) :
    lastStep registry static left step = .step (seenTo registry static step) ∨
      ∃ lookup residual, lastStep registry static left step = filtered lookup residual ∧
        ∀ p ∈ residual, p ∈ (seenTo registry static step).predicates := by
  rcases last_step_cases left step with alone | ⟨_, lookup, _, rewritten⟩
  · exact .inl alone
  · exact .inr ⟨lookup, _, rewritten.form, fun _ stays => mem_staying stays⟩

theorem filtered_is_no_step (lookup : FieldLookup) (residual : List Predicate) :
    filtered lookup residual ≠ .step step := by
  unfold filtered
  split <;> simp

end Replacing

end RangeIndex.QueryWalk

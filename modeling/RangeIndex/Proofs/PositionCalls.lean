import Mathlib.Data.List.Forall2
import RangeIndex.Proofs.PredicateConservation
import RangeIndex.Proofs.QueryWalk
import RangeIndex.Query.Focus

/-! Whether a query asks for a position is the same before and after it is walked. Only the predicates of
a replaced step could make a difference: those that stay are kept as they are, the key of one that is
served goes into the lookup, and nothing else of a comparison can ask for a position; and one that meets
a condition of a rule compares with a literal, so it does not ask at all. -/
namespace RangeIndex.PositionCalls
open Query PredicateFates Examination PredicateConservation QueryWalk

section Lists

/-- A check that a change of single items does not show in does not show it in a list of them. -/
theorem any_changed {α : Type} {change : α → α} {check : α → Bool} {items : List α}
    (each : ∀ x ∈ items, check (change x) = check x) :
    (items.map change).any check = items.any check := by
  induction items with
  | nil => rfl
  | cons x rest ih =>
    obtain ⟨head, later⟩ := List.forall_mem_cons.mp each
    rw [List.map_cons, List.any_cons, List.any_cons, head, ih later]

theorem any_call_eq (items : List Expr) :
    Expr.anyCallsPosition items = items.any Expr.callsPosition := by
  induction items with
  | nil => rfl
  | cons x rest ih => rw [Expr.anyCallsPosition, ih, List.any_cons]

theorem predicates_call_eq (predicates : List Predicate) :
    Expr.predicatesCallPosition predicates = predicates.any Expr.anyCallsPosition := by
  induction predicates with
  | nil => rfl
  | cons p rest ih => rw [Expr.predicatesCallPosition, ih, List.any_cons]

theorem keys_call_eq (entries : List LookupEntry) :
    Expr.anyKeyCallsPosition entries = entries.any fun entry => entry.key.callsPosition := by
  induction entries with
  | nil => rfl
  | cons entry rest ih =>
    obtain ⟨field, operator, key⟩ := entry
    rw [Expr.anyKeyCallsPosition, ih, List.any_cons]

theorem any_call_changed {change : Expr → Expr} {items : List Expr}
    (each : ∀ x ∈ items, (change x).callsPosition = x.callsPosition) :
    Expr.anyCallsPosition (items.map change) = Expr.anyCallsPosition items := by
  rw [any_call_eq, any_call_eq]
  exact any_changed each

theorem predicates_call_changed {change : Expr → Expr} {predicates : List Predicate}
    (each : ∀ p ∈ predicates, ∀ x ∈ p, (change x).callsPosition = x.callsPosition) :
    Expr.predicatesCallPosition (predicates.map (List.map change)) =
      Expr.predicatesCallPosition predicates := by
  rw [predicates_call_eq, predicates_call_eq]
  exact any_changed fun p listed => any_call_changed (each p listed)

end Lists

section Shapes
variable {static : StaticContext} {predicate : Predicate} {shape : PredicateShape}

theorem plain_step_silent {step : Step} (plain : step.predicates.isEmpty = true) :
    (Expr.step step).callsPosition = false := by
  obtain ⟨axis, test, predicates⟩ := step
  obtain rfl : predicates = [] := List.isEmpty_iff.mp plain
  rfl

/-- The steps of a path with a relative pattern have no predicates to ask for a position. -/
theorem relative_path_silent {bindings : Bindings} {e : Expr} {inner : Pattern}
    (relative : innerPath? bindings e = some inner) : e.callsPosition = false := by
  induction e using innerPath?.induct generalizing inner with
  | case1 => rfl
  | case2 step plain => exact plain_step_silent plain
  | case3 step filtered =>
    rw [innerPath?, if_neg filtered] at relative
    cases relative
  | case4 left step ih =>
    obtain ⟨before, reached, extended⟩ := Option.bind_eq_some_iff.mp relative
    split at extended
    · rename_i plain
      exact Bool.or_eq_false_iff.mpr ⟨ih reached, plain_step_silent plain⟩
    · cases extended
  | case5 other notContext notStep notPath =>
    rw [innerPath?] at relative
    · cases relative
    all_goals assumption

/-- A function that compares is none of those that tell a position. -/
theorem comparing_function_silent {function : String} {operator : Operator}
    (found : functionOperator? static function = some operator) : isPositional function = false := by
  unfold functionOperator? at found
  unfold isPositional isBuiltin
  cases name : builtin? function with
  | none => rfl
  | some name' =>
    rw [name] at found
    rw [Option.any_some, ← Bool.not_eq_true, List.contains_iff_mem, List.mem_pair]
    rintro (rfl | rfl) <;> cases found

/-- Of a comparison that an index could answer only the key may ask for a position. -/
theorem shaped_calls (shaped : PredicateShape.of? static predicate = some shape) :
    Expr.anyCallsPosition predicate = shape.comparison.key.callsPosition := by
  have silent := relative_path_silent (shape_of_iff.mp shaped).2.2
  rcases shape_forms shaped with ⟨op, rfl⟩ | ⟨function, rfl, found⟩
  · simp [Expr.anyCallsPosition, Expr.callsPosition, silent]
  · simp [Expr.anyCallsPosition, Expr.callsPosition, silent, comparing_function_silent found]

/-- What meets a condition compares with a literal. -/
theorem satisfying_silent {condition : Condition} (satisfied : shape.satisfies condition = true) :
    shape.comparison.key.callsPosition = false := by
  obtain ⟨_, literal⟩ := Bool.and_eq_true_iff.mp satisfied
  cases key : shape.comparison.key with
  | string | number => rfl
  | _ => simp [key, literalText?] at literal

end Shapes

section Replacing
variable {e : Examination} {place : Nat} {predicate : Predicate}

/-- A predicate with this fate leaves its calls of positional functions in the rewritten step. -/
def Accounted (predicate : Predicate) : Fate → Prop
  | .residual => True
  | .served entry => Expr.anyCallsPosition predicate = entry.key.callsPosition
  | .implied => Expr.anyCallsPosition predicate = false

theorem shape_at_place {shape : PredicateShape} (found : e.predicates[place]? = some predicate)
    (shaped : e.shapeAt? place = some shape) :
    PredicateShape.of? e.static predicate = some shape := by
  rwa [shapeAt?, found, Option.bind_some] at shaped

theorem fate_accounted {fate : Fate} (found : e.predicates[place]? = some predicate)
    (fated : e.fates[place]? = some fate) : Accounted predicate fate := by
  cases fate with
  | residual => trivial
  | served entry =>
    obtain ⟨⟨_, served⟩, _⟩ := served_iff.mp fated
    obtain ⟨shape, _, _, serves, _⟩ := served_at_spec served
    rw [Accounted, shaped_calls (shape_at_place found serves.shaped), serves.columns]
  | implied =>
    obtain ⟨later, consumed⟩ := implied_iff_consumed.mp fated
    obtain ⟨taken, takes⟩ := conditions_taken e later
    obtain ⟨_, _, shape, _, _, shaped, _, _, satisfied⟩ := consumed_meets takes consumed
    rw [Accounted, shaped_calls (shape_at_place found shaped)]
    exact satisfying_silent satisfied

theorem fates_accounted (e : Examination) : List.Forall₂ Accounted e.predicates e.fates := by
  refine List.forall₂_iff_get.mpr ⟨length_fates.symm, fun place bound fated => ?_⟩
  exact fate_accounted (List.getElem?_eq_getElem bound) (List.getElem?_eq_getElem fated)

/-- The entries and the predicates that stay ask for a position if and only if the predicates did. -/
theorem accounted_calls {predicates : List Predicate} {fates : List Fate}
    (accounted : List.Forall₂ Accounted predicates fates) :
    ((fates.filterMap Fate.entry?).any (fun entry => entry.key.callsPosition) ||
        (staying predicates fates).any Expr.anyCallsPosition) =
      predicates.any Expr.anyCallsPosition := by
  induction accounted with
  | nil => rfl
  | @cons predicate fate predicates fates own _ ih =>
    rw [List.any_cons, ← ih]
    cases fate with
    | residual => simp [staying, Fate.entry?, Fate.isResidual, Bool.or_left_comm]
    | served entry => simp [staying, Fate.entry?, Fate.isResidual, Bool.or_assoc, show _ = _ from own]
    | implied => simp [staying, Fate.entry?, Fate.isResidual, show _ = _ from own]

theorem filtered_calls (lookup : FieldLookup) (residual : List Predicate) :
    (filtered lookup residual).callsPosition =
      (lookup.entries.any (fun entry => entry.key.callsPosition) ||
        residual.any Expr.anyCallsPosition) := by
  obtain ⟨entries, fallback⟩ := lookup
  unfold filtered
  split
  · rename_i none
    rw [List.isEmpty_iff.mp none, Expr.callsPosition, keys_call_eq, List.any_nil, Bool.or_false]
  · rw [Expr.callsPosition, Expr.callsPosition, keys_call_eq, predicates_call_eq]

/-- What replaces a step asks for a position if and only if a predicate of the step did. -/
theorem rewritten_calls {sets : List RuleSet} {static : StaticContext} {context : Pattern} {step : Step}
    {result : Expr} {lookup : FieldLookup}
    (rewritten : Rewritten ⟨sets, static, context, step.predicates⟩ step result lookup) :
    result.callsPosition = Expr.predicatesCallPosition step.predicates := by
  rw [rewritten.form, filtered_calls, rewritten.entries, predicates_call_eq]
  exact accounted_calls (fates_accounted ⟨sets, static, context, step.predicates⟩)

end Replacing

section Walking
variable {registry : Registry} {static : StaticContext}

/-- The last step of a path asks for a position as before, whether it was replaced or not. -/
theorem last_step_calls (left : Expr) {step : Step}
    (inside : ∀ p ∈ step.predicates, ∀ x ∈ p,
      (x.optimizeWith registry static).callsPosition = x.callsPosition) :
    (lastStep registry static left step).callsPosition =
      Expr.predicatesCallPosition step.predicates := by
  have seen : Expr.predicatesCallPosition (seenTo registry static step).predicates =
      Expr.predicatesCallPosition step.predicates := predicates_call_changed inside
  rcases last_step_cases left step with alone | ⟨_, lookup, _, rewritten⟩
  · rw [alone, ← seen]
    rfl
  · rw [rewritten_calls rewritten, seen]

/-- The walk neither adds nor removes a call that tells a position. -/
theorem walked_calls (e : Expr) :
    (e.optimizeWith registry static).callsPosition = e.callsPosition := by
  induction e using walk_induction with
  | leaf e leaf => rw [leaf_stays leaf]
  | located left axis test predicates before inside =>
    rw [located_eq, Expr.callsPosition, before, last_step_calls left inside]
    rfl
  | path left right other before after =>
    rw [path_eq other, Expr.callsPosition, Expr.callsPosition, before, after]
  | step axis test predicates inside =>
    rw [step_eq]
    exact predicates_call_changed inside
  | filter inner predicates before inside =>
    rw [filter_eq, Expr.callsPosition, Expr.callsPosition, before, predicates_call_changed inside]
  | binary left op right before after => simp only [binary_eq, Expr.callsPosition, before, after]
  | union left right before after => simp only [union_eq, Expr.callsPosition, before, after]
  | negate inner before => simp only [negate_eq, Expr.callsPosition, before]
  | call function arguments each =>
    rw [call_eq, Expr.callsPosition, Expr.callsPosition, any_call_changed each]
  | sequence items each =>
    rw [sequence_eq, Expr.callsPosition, Expr.callsPosition, any_call_changed each]

end Walking

end RangeIndex.PositionCalls

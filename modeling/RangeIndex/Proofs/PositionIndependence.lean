import RangeIndex.Proofs.Evaluation

/-! Predicates that do not select by position. One that stays when a step is replaced by a lookup is
asked about the items that the lookup finds, which stand at other positions than the nodes of the step
did. A predicate may select by position in two ways: it comes to a number, which is then compared with
the position, or it asks for the position by a function. One that is found to do neither passes an item
or fails it at every position alike. -/
namespace RangeIndex.PositionIndependence
open Query LookupOrigins Evaluation

section Definitions
variable {D : Domain}

/-- The position and the size of the focus are told by the functions named for them and no other. -/
def PositionByName (ev : Evaluator D) : Prop :=
  ∀ function, isPositional function = false → ∀ arguments item position size position' size',
    ev.call function arguments ⟨item, position, size⟩ =
      ev.call function arguments ⟨item, position', size'⟩

/-- An outcome is one truth value, unless it is a failure. -/
def YieldsTruth (outcome : Outcome D) : Prop :=
  ∀ items, outcome = .ok items → ∃ value, items = [.truth value]

/-- All items of an outcome are nodes. -/
def YieldsNodes (outcome : Outcome D) : Prop :=
  ∀ items, outcome = .ok items → ∀ item ∈ items, ∃ node, item = .node node

/-- The comparisons, `and` and `or`. -/
def isTruthOperator : BinaryOp → Bool
  | .eq | .notEq | .lt | .ltEq | .gt | .gtEq | .and | .or => true
  | .add | .sub | .mul | .div | .mod => false

/-- With a focus an evaluator yields values of the kind that an expression tells by its shape. -/
structure KeepsKinds (ev : Evaluator D) (focus : Focus D) : Prop where
  operators : ∀ left op right, isTruthOperator op = true →
    YieldsTruth (ev.eval (.binary left op right) focus)
  functions : ∀ function arguments, isBuiltin truthFunctions function = true →
    YieldsTruth (ev.eval (.call function arguments) focus)
  paths : ∀ left step, YieldsNodes (ev.eval (.path left (.step step)) focus)
  steps : ∀ step, YieldsNodes (ev.eval (.step step) focus)
  root : YieldsNodes (ev.eval .root focus)
  context : YieldsNodes (ev.eval .context focus)
  parent : YieldsNodes (ev.eval .parent focus)

end Definitions

section Kinds
variable {D : Domain} {ev : Evaluator D} {focus : Focus D} {outcome : Outcome D}

theorem truth_no_number (truth : YieldsTruth outcome) (value : D.Num) :
    outcome ≠ .ok [.number value] := by
  rintro rfl
  obtain ⟨_, same⟩ := truth _ rfl
  cases same

theorem nodes_no_number (nodes : YieldsNodes outcome) (value : D.Num) :
    outcome ≠ .ok [.number value] := by
  rintro rfl
  obtain ⟨_, same⟩ := nodes _ rfl _ List.mem_cons_self
  cases same

/-- An expression that is never a number by its shape does not come to one. -/
theorem never_number (kinds : KeepsKinds ev focus) {e : Expr} (never : e.isNeverNumber = true)
    (value : D.Num) : ev.eval e focus ≠ .ok [.number value] := by
  cases e with
  | root => exact nodes_no_number kinds.root value
  | context => exact nodes_no_number kinds.context value
  | parent => exact nodes_no_number kinds.parent value
  | step step => exact nodes_no_number (kinds.steps step) value
  | path left right =>
    cases right with
    | step step => exact nodes_no_number (kinds.paths left step) value
    | _ => cases never
  | binary left op right =>
    have truth : isTruthOperator op = true := by cases op <;> first | rfl | cases never
    exact truth_no_number (kinds.operators left op right truth) value
  | call function arguments => exact truth_no_number (kinds.functions _ arguments never) value
  | string text => exact nofun
  | filter | union | negate | sequence | number | var | lookup => cases never

/-- What is not a number passes at every position or at none. -/
theorem passes_anywhere (other : ∀ value, outcome ≠ .ok [.number value])
    (position position' : Nat) : ev.passes position outcome = ev.passes position' outcome := by
  unfold Evaluator.passes
  split
  · rfl
  · rename_i value
    exact absurd rfl (other value)
  · rfl

end Kinds

section Parts
variable {e : Expr}

theorem none_call {xs : List Expr} (silent : Expr.anyCallsPosition xs = false) :
    ∀ x ∈ xs, x.callsPosition = false := by
  induction xs with
  | nil => nofun
  | cons x rest ih =>
    obtain ⟨head, later⟩ := Bool.or_eq_false_iff.mp silent
    exact List.forall_mem_cons.mpr ⟨head, ih later⟩

/-- No part that shares the focus of an expression asks for the position if nothing in it does. -/
theorem parts_silent (silent : e.callsPosition = false) :
    ∀ part ∈ partsHere e, part.callsPosition = false := by
  cases e with
  | path left right => exact List.forall_mem_singleton.mpr (Bool.or_eq_false_iff.mp silent).1
  | filter inner predicates =>
    exact List.forall_mem_singleton.mpr (Bool.or_eq_false_iff.mp silent).1
  | binary left op right => exact forall_mem_pair.mpr (Bool.or_eq_false_iff.mp silent)
  | union left right => exact forall_mem_pair.mpr (Bool.or_eq_false_iff.mp silent)
  | negate inner => exact List.forall_mem_singleton.mpr silent
  | call function arguments => exact none_call (Bool.or_eq_false_iff.mp silent).2
  | sequence items => exact none_call silent
  | root | context | parent | step | string | number | var | lookup => nofun

end Parts

section Values
variable {D : Domain} {ev : Evaluator D} {e : Expr}

/-- An expression that does not ask for the position reads the item in focus at most. -/
theorem reads_item (named : PositionByName ev) (plain : ∀ lookup, e ≠ .lookup lookup)
    (silent : e.callsPosition = false) (item : Item D) (position size position' size' : Nat) :
    ReadsSame ev ⟨item, position, size⟩ ⟨item, position', size'⟩ e := by
  cases e with
  | root | context | parent | step => rfl
  | lookup lookup => exact absurd rfl (plain lookup)
  | call function arguments =>
    exact named function (Bool.or_eq_false_iff.mp silent).1 _ item position size position' size'
  | path | filter | binary | union | negate | sequence | string | number | var => trivial

/-- An expression that nowhere asks for the position has the same value at every position. -/
theorem value_anywhere (named : PositionByName ev) (plain : LookupFree e)
    (silent : e.callsPosition = false) (item : Item D) (position size position' size' : Nat) :
    ev.eval e ⟨item, position, size⟩ = ev.eval e ⟨item, position', size'⟩ := by
  refine same_value_of_check ?_ ?_ plain silent
  · exact fun _ => parts_silent
  · exact fun _ notLookup clear => reads_item named notLookup clear item position size position' size'

end Values

/-- A predicate that is found not to select by position passes an item or not wherever the item stands
and however many there are. -/
theorem residual_passes_anywhere {D : Domain} {ev : Evaluator D} (named : PositionByName ev)
    {item : Item D} (kinds : ∀ position size, KeepsKinds ev ⟨item, position, size⟩)
    {predicate : Predicate} (plain : ∀ x ∈ predicate, LookupFree x)
    (residual : predicate.mayDependOnPosition = false) (position size position' size' : Nat) :
    ev.passesPredicate predicate ⟨item, position, size⟩ =
      ev.passesPredicate predicate ⟨item, position', size'⟩ := by
  match predicate, residual with
  | [x], residual =>
    obtain ⟨never, silent⟩ := Bool.or_eq_false_iff.mp residual
    have same := value_anywhere named (plain x List.mem_cons_self) silent item position size
      position' size'
    have other := never_number (kinds position size) (by simpa using never)
    change ev.passes position (ev.eval x _) = ev.passes position' (ev.eval x _)
    rw [← same]
    exact passes_anywhere other position position'

section Sample

theorem sample_position_by_name : PositionByName oneOfEach := by
  intro function apart arguments item position size position' size'
  simp only [oneOfEach, apart, Bool.false_eq_true, if_false]

theorem nodes_of_yields (outcome : Outcome namedNodes) : YieldsNodes (nodesOf outcome) := by
  intro items found item member
  cases outcome with
  | error fault => cases found
  | ok all =>
    cases found
    have kind := (List.mem_filter.mp member).2
    cases item with
    | node node => exact ⟨node, rfl⟩
    | truth | text | number | atom => cases kind

theorem one_node_yields (names : List String) :
    YieldsNodes (D := namedNodes) (.ok [.node names]) := by
  rintro _ ⟨⟩ item member
  exact ⟨names, List.mem_singleton.mp member⟩

theorem comparison_yields (op : BinaryOp) (left right : Outcome namedNodes) :
    YieldsTruth (oneOfEach.binary op left right) := by
  intro items found
  cases left with
  | error fault => cases found
  | ok first =>
    cases right with
    | error fault => cases found
    | ok second =>
      cases found
      exact ⟨_, rfl⟩

theorem sample_keeps_kinds (names : List String) (position size : Nat) :
    KeepsKinds oneOfEach ⟨.node names, position, size⟩ where
  operators left op right _ := comparison_yields op _ _
  functions function arguments truth items found := by
    rw [Evaluator.eval] at found
    simp only [oneOfEach, truth, if_true] at found
    cases found
    exact ⟨_, rfl⟩
  paths left step := nodes_of_yields _
  steps | ⟨_, _, _⟩ => nodes_of_yields _
  root := one_node_yields []
  context := one_node_yields names
  parent := one_node_yields names.dropLast

/-- The predicate `[name[. = "name"] and . = "entry"]`. -/
def namedEntry : Predicate :=
  let called (name : String) : Expr := .binary .context .eq (.string name)
  [.binary (.step ⟨.child, .named "name", [[called "name"]]⟩) .and (called "entry")]

theorem named_entry_passes_anywhere :
    PositionByName oneOfEach ∧
      (∀ position size, KeepsKinds oneOfEach ⟨.node ["entry"], position, size⟩) ∧
      (∀ x ∈ namedEntry, LookupFree x) ∧ namedEntry.mayDependOnPosition = false ∧
      oneOfEach.passesPredicate namedEntry ⟨.node ["entry"], 1, 1⟩ = .ok true ∧
      oneOfEach.passesPredicate namedEntry ⟨.node ["entry"], 1, 1⟩ =
        oneOfEach.passesPredicate namedEntry ⟨.node ["entry"], 3, 4⟩ := by
  have kinds (position size : Nat) := sample_keeps_kinds ["entry"] position size
  have plain : ∀ x ∈ namedEntry, LookupFree x := by
    have called (name : String) : LookupFree (.binary .context .eq (.string name)) :=
      lookup_free_pair rfl rfl (lookup_free_leaf rfl rfl) (lookup_free_leaf rfl rfl)
    have child : LookupFree
        (.step ⟨.child, .named "name", [[.binary .context .eq (.string "name")]]⟩) :=
      lookup_free_of_parts rfl (List.forall_mem_singleton.mpr (called "name"))
    exact List.forall_mem_singleton.mpr (lookup_free_pair rfl rfl child (called "entry"))
  refine ⟨sample_position_by_name, kinds, plain, rfl, ?_,
    residual_passes_anywhere sample_position_by_name kinds plain rfl 1 1 3 4⟩
  with_unfolding_all rfl

end Sample

end RangeIndex.PositionIndependence

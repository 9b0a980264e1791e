import RangeIndex.Proofs.Evaluation

/-! Expressions that do not depend on the context item. A key of a comparison is put into a lookup, where
it is evaluated once instead of once for every node, and so with another focus. This is sound for the
keys that are found to be independent: whatever focus they are evaluated with, their value is the same.
The right sides of paths and the predicates in them may read what they like, since they are asked about
items of a value that is the same already. -/
namespace RangeIndex.ContextIndependence
open Query LookupOrigins Evaluation

/-- Calls that may read the focus are those without arguments of the functions that do. Any other call
is a function of its name and of what its arguments come to. -/
def CallsByArguments {D : Domain} (ev : Evaluator D) : Prop :=
  ∀ function arguments, (arguments = [] → isBuiltin implicitReaders function = false) →
    ∀ focus focus', ev.call function arguments focus = ev.call function arguments focus'

section Parts
variable {e : Expr}

theorem all_independent {xs : List Expr} (independent : Expr.anyDependsOnContext xs = false) :
    ∀ x ∈ xs, x.dependsOnContext = false := by
  induction xs with
  | nil => nofun
  | cons x rest ih =>
    obtain ⟨head, later⟩ := Bool.or_eq_false_iff.mp independent
    exact List.forall_mem_cons.mpr ⟨head, ih later⟩

/-- The parts that share the focus of an independent expression are independent. -/
theorem parts_independent (independent : e.dependsOnContext = false) :
    ∀ part ∈ partsHere e, part.dependsOnContext = false := by
  cases e with
  | path left right => exact List.forall_mem_singleton.mpr independent
  | filter inner predicates => exact List.forall_mem_singleton.mpr independent
  | binary left op right => exact forall_mem_pair.mpr (Bool.or_eq_false_iff.mp independent)
  | union left right => exact forall_mem_pair.mpr (Bool.or_eq_false_iff.mp independent)
  | negate inner => exact List.forall_mem_singleton.mpr independent
  | call function arguments =>
    cases arguments with
    | nil => nofun
    | cons first rest => exact all_independent independent
  | sequence items => exact all_independent independent
  | root | context | parent | step | string | number | var | lookup => nofun

/-- An independent expression reads nothing of the focus itself. -/
theorem reads_nothing {D : Domain} {ev : Evaluator D} (explicit : CallsByArguments ev)
    (plain : ∀ lookup, e ≠ .lookup lookup) (independent : e.dependsOnContext = false)
    (focus focus' : Focus D) : ReadsSame ev focus focus' e := by
  cases e with
  | root | context | parent | step => cases independent
  | lookup lookup => exact absurd rfl (plain lookup)
  | call function arguments =>
    refine explicit function _ (fun none => ?_) focus focus'
    cases arguments with
    | nil => exact independent
    | cons first rest => cases none
  | path | filter | binary | union | negate | sequence | string | number | var => trivial

end Parts

/-- An expression that does not depend on the context item has the same value whatever it is, and
wherever among the others. -/
theorem independent_value_same {D : Domain} {ev : Evaluator D} (explicit : CallsByArguments ev)
    {e : Expr} (plain : LookupFree e) (independent : e.dependsOnContext = false)
    (focus focus' : Focus D) : ev.eval e focus = ev.eval e focus' := by
  refine same_value_of_check ?_ ?_ plain independent
  · exact fun _ => parts_independent
  · exact fun _ notLookup clear => reads_nothing explicit notLookup clear focus focus'

section Sample

/-- The entries of a document that have a name, in the place of a key. -/
def documentEntries : Expr :=
  let named := .binary (.step ⟨.child, .named "name", []⟩) .eq (.string "name")
  .path (.call "doc" [.string "d"]) (.step ⟨.child, .named "entry", [[named]]⟩)

/-- The step and its predicate read items of their own, and not those in focus. -/
theorem document_entries_same :
    CallsByArguments oneOfEach ∧ LookupFree documentEntries ∧
      documentEntries.dependsOnContext = false ∧
      oneOfEach.eval documentEntries ⟨.node ["other"], 1, 1⟩ = .ok [.node ["entry"]] ∧
      oneOfEach.eval documentEntries ⟨.node ["other"], 1, 1⟩ =
        oneOfEach.eval documentEntries ⟨.text "name", 2, 3⟩ := by
  have explicit : CallsByArguments oneOfEach := by
    intro function arguments apart focus focus'
    have unread : (arguments.isEmpty && isBuiltin implicitReaders function) = false := by
      cases arguments with
      | nil => exact apart rfl
      | cons first rest => rfl
    simp only [oneOfEach, unread, Bool.false_eq_true, if_false]
  have plain : LookupFree documentEntries := by
    have text (value : String) : LookupFree (.string value) := lookup_free_leaf rfl rfl
    have named : LookupFree (.binary (.step ⟨.child, .named "name", []⟩) .eq (.string "name")) :=
      lookup_free_pair rfl rfl (lookup_free_leaf rfl rfl) (text "name")
    exact lookup_free_pair rfl rfl
      (lookup_free_of_parts rfl (List.forall_mem_singleton.mpr (text "d")))
      (lookup_free_of_parts rfl (List.forall_mem_singleton.mpr named))
  have independent : documentEntries.dependsOnContext = false := rfl
  refine ⟨explicit, plain, independent, ?_, independent_value_same explicit plain independent _ _⟩
  with_unfolding_all rfl

end Sample

end RangeIndex.ContextIndependence

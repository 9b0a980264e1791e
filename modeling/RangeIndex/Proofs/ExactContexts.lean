import RangeIndex.Proofs.StepReach

/-! Among elements the pattern of a path is neither too wide nor too narrow. Whatever element it takes
in lies where the steps of the path lead, since every level and every gap of the pattern was added by
a step that goes down by as many names. The other half asks for steps that cannot stay where their
pattern goes further down, which `child`, `descendant` and attribute steps with names and the two
steps to any node never do. -/
namespace RangeIndex.ExactContexts
open Query Pattern StepReach

/-- The steps whose components say just where they lead. -/
inductive ExactStep : Axis → NodeTest → Prop where
  | child (written : String) : ExactStep .child (.named written)
  | anyChild : ExactStep .child .any
  | descendant (written : String) : ExactStep .descendant (.named written)
  | anyDescendant : ExactStep .descendant .any
  | attribute (written : String) : ExactStep .attribute (.named written)
  | stay : ExactStep .self .node
  | atOrBelow : ExactStep .descendantOrSelf .node

/-- All steps of a path are such, whatever their predicates. -/
def ExactPath : Expr → Prop
  | .filter inner _ => ExactPath inner
  | .path left (.step step) => ExactPath left ∧ ExactStep step.axis step.test
  | _ => True

/-- A place of elements alone. -/
def Elements (place : Place) : Prop := ∀ name ∈ place, name.kind = .element

section Elements
variable {upper lower : Place}

theorem elements_above (elements : Elements (upper ++ lower)) : Elements upper :=
  fun name member => elements name (List.mem_append_left lower member)

theorem elements_below (elements : Elements (upper ++ lower)) : Elements lower :=
  fun name member => elements name (List.mem_append_right upper member)

end Elements

section Narrow
variable {bindings : Bindings} {before pattern : Pattern} {step : Step} {e : Expr}
  {place deeper : Place}

/-- An element of a name that passes a test stands below every place it continues. -/
theorem below_of_passed {test : NodeTest} {between : Place} {name : QName}
    (elements : Elements (place ++ between ++ [name]))
    (passed : passes bindings .element test name = true) :
    Below bindings test place (place ++ between ++ [name]) :=
  ⟨between, name, rfl, elements_below (elements_above elements),
    elements_below elements name (List.mem_singleton_self name), passed⟩

/-- What lies anywhere at or below a place is reached by the step to any node there. -/
theorem at_or_below_leads {lower : Place} (elements : Elements (place ++ lower)) :
    Leads bindings .descendantOrSelf .node place (place ++ lower) := by
  rcases List.eq_nil_or_concat lower with rfl | ⟨between, name, rfl⟩
  · rw [List.append_nil]
    exact .stay (.inl rfl)
  · rw [List.concat_eq_append, ← List.append_assoc] at elements ⊢
    exact .descend (below_of_passed elements rfl)

/-- An element that the pattern takes in after a step is one the step leads to from an element that
the pattern took in before it. -/
theorem step_matches_led (opened : before.closed = false)
    (extended : extendByStep? bindings before step = some pattern)
    (elements : Elements deeper) (found : pattern.isMatch (location deeper) = true) :
    ∃ place, Elements place ∧ before.isMatch (location place) = true ∧
      Leads bindings step.axis step.test place deeper := by
  rcases extend_by_step_cases extended with
    ⟨axis, level, rfl, tests⟩ | ⟨axis, level, rfl, tests⟩ | ⟨axis, test, rfl⟩ |
    ⟨axis, test, rfl⟩ | ⟨axis, level, rfl, tests⟩
  · obtain ⟨place, name, rfl, accepted, foundAbove⟩ :=
      (match_extend_level tests.single opened).mp found
    rw [tests.accepts] at accepted
    exact ⟨place, elements_above elements, foundAbove,
      axis ▸ .toChild (tests.ofKind name accepted) accepted⟩
  · obtain ⟨place, name, rfl, accepted, foundAbove⟩ :=
      (match_extend_level tests.single opened).mp found
    rw [tests.accepts] at accepted
    exact ⟨place, elements_above elements, foundAbove,
      axis ▸ .toAttribute (tests.ofKind name accepted) accepted⟩
  · exact ⟨deeper, elements, found, axis ▸ .toSelf (.inl test)⟩
  · obtain ⟨place, lower, rfl, foundAbove⟩ := (match_extend_gap opened).mp found
    refine ⟨place, elements_above elements, foundAbove, ?_⟩
    rw [axis, test]
    exact at_or_below_leads elements
  · have stillOpen : (before.extend .gap).closed = false := by rw [closed_extend, opened]
    obtain ⟨above, name, rfl, accepted, foundAbove⟩ :=
      (match_extend_level tests.single stillOpen).mp found
    obtain ⟨place, between, rfl, foundBefore⟩ := (match_extend_gap opened).mp foundAbove
    have below := below_of_passed elements (tests.accepts name ▸ accepted)
    refine ⟨place, elements_above (elements_above elements), foundBefore, ?_⟩
    rcases axis with axis | axis
    · exact axis ▸ .toDescendant below
    · exact axis ▸ .descend below

/-- The pattern of a path takes in no element that the path does not reach. -/
theorem matched_is_reached (known : contextPath? bindings e = some pattern) :
    ∀ place, Elements place → pattern.isMatch (location place) = true →
      Reaches bindings e place := by
  refine known_induction known ?root ?documents ?filter ?path
  case root =>
    intro place _ found
    obtain rfl : place = [] := by simpa [Pattern.empty, location] using found
    exact .root
  case documents =>
    intro function arguments start place _ found
    obtain rfl : place = [] := by simpa [Pattern.empty, location] using found
    exact .documents start
  case filter =>
    intro inner predicates pattern _ ih place elements found
    exact .filter (ih place elements found)
  case path =>
    intro left step before pattern reached extended ih deeper elements found
    obtain ⟨place, above, foundBefore, leads⟩ :=
      step_matches_led (context_open reached) extended elements found
    exact .path (ih place above foundBefore) leads

end Narrow

theorem at_or_below_any_node {test : NodeTest} (exact : ExactStep .descendantOrSelf test) :
    test = .node := by
  cases exact
  rfl

/-- A path of exact steps never stays at a node where its pattern leaves the node out. -/
theorem exact_self_covered {bindings : Bindings} {e : Expr} (exact : ExactPath e) :
    SelfCovered bindings e := by
  induction e using ExactPath.induct with
  | case1 inner predicates ih => exact ih exact
  | case2 left step ih =>
    refine ⟨ih exact.1, ?_⟩
    rintro pattern _ ⟨axis, test, _⟩
    exact test (at_or_below_any_node (axis ▸ exact.2))
  | case3 e notFilter notStep =>
    rw [SelfCovered]
    · trivial
    · assumption
    · assumption

/-- For a path of exact steps the pattern takes in an element exactly when the path reaches it. -/
theorem element_matched_iff_reached {bindings : Bindings} {e : Expr} {pattern : Pattern}
    (known : contextPath? bindings e = some pattern) (exact : ExactPath e) {place : Place}
    (elements : Elements place) :
    pattern.isMatch (location place) = true ↔ Reaches bindings e place :=
  ⟨matched_is_reached known place elements, reached_is_matched (exact_self_covered exact) known⟩

section Sample

/-- The path `//entry[name]/descendant::*`. -/
def insideNamedEntries : Expr :=
  .path
    (.path (.path .root (.step .descendantOrSelf))
      (.step ⟨.child, .named "entry", [[.step ⟨.child, .named "name", []⟩]]⟩))
    (.step ⟨.descendant, .any, []⟩)

/-- Its pattern has no room for the predicate, so it takes in what is below any entry. -/
def insideEntries : Pattern := ⟨[.gap, .named (element "entry"), .gap, .wildcard], false⟩

/-- A paragraph two levels below an entry of a book. -/
def paragraph : Place := [element "book", element "entry", element "text", element "p"]

/-- The pattern takes the paragraph in, so the path reaches it. -/
theorem paragraph_reached :
    contextPath? .initial insideNamedEntries = some insideEntries ∧
      ExactPath insideNamedEntries ∧ Elements paragraph ∧
      Reaches .initial insideNamedEntries paragraph := by
  have known : contextPath? .initial insideNamedEntries = some insideEntries := by
    with_unfolding_all rfl
  have exact : ExactPath insideNamedEntries :=
    ⟨⟨⟨trivial, .atOrBelow⟩, .child "entry"⟩, .anyDescendant⟩
  have elements : Elements paragraph := by simp [Elements, paragraph, element, QName.unqualified]
  exact ⟨known, exact, elements, (element_matched_iff_reached known exact elements).mp (by decide)⟩

end Sample

end RangeIndex.ExactContexts

import RangeIndex.Proofs.PathGrammar
import RangeIndex.Proofs.StepReach
import RangeIndex.Rule.Resolution

/-! The path a predicate compares, joined to the path of the step it filters, stands for the same places
as the whole path written out. Gaps are kept apart while a path is followed step by step, so the two can
only differ where one path ends in a gap and the other begins with one. Nothing but a gap takes a gap, and
a gap that takes one takes the next as well, so no pattern tells a run of gaps from a single one. -/
namespace RangeIndex.PathsInPlace
open Query Pattern PathGrammar StepReach

/-- An expression followed by the steps of a relative path. The context item adds no step. -/
def followedBy (start : Expr) : Expr → Expr
  | .context => start
  | .path left last => .path (followedBy start left) last
  | first => .path start first

/-- A location with every run of gaps made one gap. -/
def singleGaps (location : Pattern) : Pattern :=
  { location with components := collapseGaps location.components }

section Runs
variable {closed atEnd : Bool} {location location' : List Component}

/-- What is matched alike is matched alike behind one component more. -/
theorem match_behind
    (same : ∀ components, isMatch ⟨components, closed⟩ ⟨location, atEnd⟩ =
      isMatch ⟨components, closed⟩ ⟨location', atEnd⟩)
    (actual : Component) (components : List Component) :
    isMatch ⟨components, closed⟩ ⟨actual :: location, atEnd⟩ =
      isMatch ⟨components, closed⟩ ⟨actual :: location', atEnd⟩ := by
  induction components with
  | nil => rfl
  | cons component later ih =>
    cases gap : component.isGap with
    | true =>
      cases component <;> cases gap
      rw [isMatch_gap_cons, isMatch_gap_cons, ih, same]
    | false => rw [isMatch_level_cons gap, isMatch_level_cons gap, same]

theorem level_accepts_no_gap {component : Component} : component.accepts .gap = false := by
  cases component <;> rfl

/-- A gap in front of a gap makes no difference. A gap of the pattern may end before either; what is
left then begins with a gap. -/
theorem match_second_gap (rest components : List Component) :
    isMatch ⟨components, closed⟩ ⟨.gap :: .gap :: rest, atEnd⟩ =
      isMatch ⟨components, closed⟩ ⟨.gap :: rest, atEnd⟩ := by
  induction components with
  | nil => rfl
  | cons component later ih =>
    cases gap : component.isGap with
    | true =>
      cases component <;> cases gap
      rw [isMatch_gap_cons, isMatch_gap_cons, ih, ← Bool.or_assoc, Bool.or_self]
    | false =>
      rw [isMatch_level_cons gap, isMatch_level_cons gap, level_accepts_no_gap, Bool.and_false,
        Bool.and_false]

/-- A gap is dropped in front of components that begin with one. -/
theorem collapse_cons (component : Component) (rest : List Component) :
    collapseGaps (component :: rest) =
      if component.isGap && (collapseGaps rest).head?.any Component.isGap then collapseGaps rest
      else component :: collapseGaps rest := by
  cases collapsed : collapseGaps rest with
  | nil => cases component <;> simp [collapseGaps, collapsed]
  | cons next later =>
    cases component <;> cases next <;> simp [collapseGaps, collapsed, Component.isGap]

/-- One component more in front is kept, or is a gap and dropped in front of another one. -/
theorem collapse_cases (component : Component) (rest : List Component) :
    (∃ later, component = .gap ∧ collapseGaps rest = .gap :: later ∧
        collapseGaps (component :: rest) = .gap :: later) ∨
      collapseGaps (component :: rest) = component :: collapseGaps rest := by
  rw [collapse_cons]
  split
  · rename_i dropped
    obtain ⟨gap, next⟩ := Bool.and_eq_true_iff.mp dropped
    obtain ⟨first, front, nextGap⟩ := (Option.any_eq_true ..).mp next
    obtain ⟨later, collapsed⟩ := List.head?_eq_some_iff.mp front
    cases component <;> cases gap
    cases first <;> cases nextGap
    exact .inl ⟨later, rfl, collapsed, collapsed⟩
  · exact .inr rfl

theorem match_collapsed (location components : List Component) :
    isMatch ⟨components, closed⟩ ⟨collapseGaps location, atEnd⟩ =
      isMatch ⟨components, closed⟩ ⟨location, atEnd⟩ := by
  induction location generalizing components with
  | nil => rfl
  | cons component rest ih =>
    rw [← match_behind ih component components]
    rcases collapse_cases component rest with ⟨later, rfl, collapsed, dropped⟩ | kept
    · rw [dropped, collapsed, match_second_gap]
    · rw [kept]

/-- No pattern tells a run of gaps in a location from a single one. -/
theorem match_single_gaps (pattern location : Pattern) :
    pattern.isMatch (singleGaps location) = pattern.isMatch location :=
  match_collapsed location.components pattern.components

theorem collapse_collapsed (components : List Component) :
    collapseGaps (collapseGaps components) = collapseGaps components := by
  induction components with
  | nil => rfl
  | cons component rest ih =>
    rw [collapse_cons component rest]
    split
    · exact ih
    · rename_i kept
      rw [collapse_cons, ih, if_neg kept]

theorem collapse_behind (front later : List Component) :
    collapseGaps (front ++ collapseGaps later) = collapseGaps (front ++ later) := by
  induction front with
  | nil => exact collapse_collapsed later
  | cons component rest ih =>
    rw [List.cons_append, List.cons_append, collapse_cons, collapse_cons, ih]

theorem collapse_in_front (front later : List Component) :
    collapseGaps (collapseGaps front ++ later) = collapseGaps (front ++ later) := by
  have twice := extend_all later false (collapseGaps front)
  rw [collapse_collapsed, extend_all later false front] at twice
  exact (congrArg Pattern.components twice).symm

end Runs

section Steps
variable {bindings : Bindings} {e r : Expr} {context inner : Pattern}

/-- The pattern of a path is what its steps add, with runs of gaps made one. -/
theorem context_collapsed (known : contextPath? bindings e = some context) :
    ∃ before, context = ⟨collapseGaps before, false⟩ := by
  refine known_induction known ?root ?documents ?filter ?path
  case root => exact ⟨[], rfl⟩
  case documents => exact fun _ _ _ => ⟨[], rfl⟩
  case filter => exact fun _ _ _ _ before => before
  case path =>
    rintro left step context' pattern - extended ⟨before, rfl⟩
    obtain ⟨added, -, rfl⟩ := Option.map_eq_some_iff.mp extended
    exact ⟨before ++ added, extend_all added false before⟩

/-- A relative path adds the same components behind a path as it has on its own. -/
theorem followed_collapsed {before : List Component}
    (known : contextPath? bindings e = some ⟨collapseGaps before, false⟩)
    (relative : innerPath? bindings r = some inner) :
    ∃ added, inner = ⟨collapseGaps added, false⟩ ∧
      contextPath? bindings (followedBy e r) = some ⟨collapseGaps (before ++ added), false⟩ := by
  induction r using innerPath?.induct generalizing inner with
  | case1 =>
    cases relative
    exact ⟨[], rfl, by rw [List.append_nil]; exact known⟩
  | case2 step plain =>
    rw [innerPath?, if_pos plain] at relative
    obtain ⟨added, components, rfl⟩ := Option.map_eq_some_iff.mp relative
    refine ⟨added, extend_all added false [], ?_⟩
    change contextPath? bindings (.path e (.step step)) = _
    rw [contextPath?, known, Option.bind_some, extendByStep?, components]
    exact congrArg some (extend_all added false before)
  | case3 step filtered =>
    rw [innerPath?, if_neg filtered] at relative
    cases relative
  | case4 left step ih =>
    obtain ⟨upper, reached, extended⟩ := Option.bind_eq_some_iff.mp relative
    obtain ⟨added, rfl, whole⟩ := ih reached
    split at extended
    · obtain ⟨more, components, rfl⟩ := Option.map_eq_some_iff.mp extended
      refine ⟨added ++ more, extend_all more false added, ?_⟩
      rw [followedBy, contextPath?, whole, Option.bind_some, extendByStep?, components,
        ← List.append_assoc]
      exact congrArg some (extend_all more false (before ++ added))
    · cases extended
  | case5 other notContext notStep notPath =>
    rw [innerPath?] at relative
    · cases relative
    all_goals assumption

/-- The path followed by the relative one has the joined pattern, with one gap for two where they
meet. -/
theorem followed_pattern (known : contextPath? bindings e = some context)
    (relative : innerPath? bindings r = some inner) :
    contextPath? bindings (followedBy e r) = some (singleGaps (context.joined inner)) := by
  obtain ⟨before, rfl⟩ := context_collapsed known
  obtain ⟨added, rfl, followed⟩ := followed_collapsed known relative
  rw [followed, singleGaps, joined]
  dsimp only
  rw [collapse_in_front, collapse_behind]

end Steps

/-- Which rule and which of its fields serve a predicate does not depend on whether its path is joined to
that of the step or analysed together with it. -/
theorem resolved_in_place {α : Type} (sets : List RuleSet) (satisfies : α → Condition → Bool)
    (location : Pattern) (offered : List (Nat × α)) :
    Resolution.resolve? sets satisfies (singleGaps location) offered =
        Resolution.resolve? sets satisfies location offered ∧
      ∀ rule : Rule, rule.fieldAt? (singleGaps location) = rule.fieldAt? location := by
  have covers (field : FieldRule) : field.covers (singleGaps location) = field.covers location :=
    match_single_gaps field.path location
  have covering (set : RuleSet) : set.covering (singleGaps location) = set.covering location := by
    simp only [RuleSet.covering, Rule.covers, covers, match_single_gaps]
  constructor
  · simp only [Resolution.resolve?, Resolution.candidates, covering]
  · intro rule
    simp only [Rule.fieldAt?, covers]

/-- The path of a predicate may be analysed on its own. Joined to the path of the step it stands for the
same places as the whole path, which is known too: the two have the same components but for a second
gap where they meet, and every pattern matches both or neither. -/
theorem path_analysed_in_place {bindings : Bindings} {e r : Expr} {context inner : Pattern}
    (known : contextPath? bindings e = some context) (relative : innerPath? bindings r = some inner) :
    ∃ whole, contextPath? bindings (followedBy e r) = some whole ∧
      whole = singleGaps (context.joined inner) ∧
      ∀ pattern : Pattern, pattern.isMatch (context.joined inner) = pattern.isMatch whole :=
  ⟨_, followed_pattern known relative, rfl, fun pattern => (match_single_gaps pattern _).symm⟩

section Sample

/-- The path `/a/descendant-or-self::node()`, which ends in a gap. -/
def anywhereBelow : Expr :=
  .path (.path .root (.step ⟨.child, .named "a", []⟩)) (.step .descendantOrSelf)

/-- The path `.//b`, which begins with one. -/
def anyNamed : Expr := .path (.path .context (.step .descendantOrSelf)) (.step ⟨.child, .named "b", []⟩)

/-- Joined, the two have two gaps in a row, and the one followed by the other has one. -/
theorem gaps_meet_in_place :
    let name (written : String) : Component := .named (.unqualified .element written)
    contextPath? .initial anywhereBelow = some ⟨[name "a", .gap], false⟩ ∧
      innerPath? .initial anyNamed = some ⟨[.gap, name "b"], false⟩ ∧
      contextPath? .initial (followedBy anywhereBelow anyNamed) =
        some ⟨[name "a", .gap, name "b"], false⟩ ∧
      ∀ pattern : Pattern, pattern.isMatch ⟨[name "a", .gap, .gap, name "b"], false⟩ =
        pattern.isMatch ⟨[name "a", .gap, name "b"], false⟩ := by
  intro name
  have known : contextPath? .initial anywhereBelow = some ⟨[name "a", .gap], false⟩ := by
    with_unfolding_all rfl
  have relative : innerPath? .initial anyNamed = some ⟨[.gap, name "b"], false⟩ := by
    with_unfolding_all rfl
  obtain ⟨whole, together, rfl, same⟩ := path_analysed_in_place known relative
  exact ⟨known, relative, together, same⟩

end Sample

end RangeIndex.PathsInPlace

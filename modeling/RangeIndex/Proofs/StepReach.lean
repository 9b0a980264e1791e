import Mathlib.Data.List.Induction
import RangeIndex.Proofs.PatternContainment
import RangeIndex.Query.StaticPath

/-! The pattern of a path stands for the places its steps lead to. Each axis adds names to a place,
and the pattern has a component for each of them, or a gap where there may be any number. One case
has no component: a step along `descendant-or-self` with a name or a wildcard may stay where it is,
while its pattern always goes further down. So the pattern takes in every place that can be reached
exactly when no step of the path can stay in this way. -/
namespace RangeIndex.StepReach
open Query Pattern PatternContainment

/-- Where a node stands: the names from the outermost element down to its own. -/
abbrev Place := List QName

/-- The literal location of a place. -/
def location (place : Place) : Pattern := ⟨place.map .named, false⟩

/-- Whether a node of that name passes a test on an axis that leads to one kind of nodes. -/
def passes (bindings : Bindings) (kind : NameKind) : NodeTest → QName → Bool
  | .named written, name => (bindings.qualify kind written).any name.same
  | .any, name => decide (name.kind = kind)
  | .labelled label, name => decide (name.kind = kind) &&
      (bindings.resolve label).any fun space => name.space == presentText (some space)
  | .node, _ => true
  | .text, _ | .comment, _ | .instruction _, _ => false

/-- Whether the node at a place passes a test itself; the document passes `node()` alone. -/
def Stays (bindings : Bindings) (test : NodeTest) (place : Place) : Prop :=
  test = .node ∨ ∃ name, place.getLast? = some name ∧ passes bindings .element test name = true

/-- Whether an element somewhere below a place stands at the other one and passes a test. -/
def Below (bindings : Bindings) (test : NodeTest) (place deeper : Place) : Prop :=
  ∃ between name, deeper = place ++ between ++ [name] ∧
    (∀ ancestor ∈ between, ancestor.kind = .element) ∧ name.kind = .element ∧
    passes bindings .element test name = true

/-- The places a step leads to. -/
inductive Leads (bindings : Bindings) : Axis → NodeTest → Place → Place → Prop where
  | toChild {test place name} (kind : name.kind = .element)
      (passed : passes bindings .element test name = true) :
      Leads bindings .child test place (place ++ [name])
  | toAttribute {test place name} (kind : name.kind = .attribute)
      (passed : passes bindings .attribute test name = true) :
      Leads bindings .attribute test place (place ++ [name])
  | toSelf {test place} (stays : Stays bindings test place) : Leads bindings .self test place place
  | toDescendant {test place deeper} (below : Below bindings test place deeper) :
      Leads bindings .descendant test place deeper
  | stay {test place} (stays : Stays bindings test place) :
      Leads bindings .descendantOrSelf test place place
  | descend {test place deeper} (below : Below bindings test place deeper) :
      Leads bindings .descendantOrSelf test place deeper

/-- The places the steps of an expression reach from the roots of documents, whatever its
predicates. -/
inductive Reaches (bindings : Bindings) : Expr → Place → Prop where
  | root : Reaches bindings .root []
  | documents {function arguments} (documents : isDocumentRoot function = true) :
      Reaches bindings (.call function arguments) []
  | filter {inner predicates place} (reached : Reaches bindings inner place) :
      Reaches bindings (.filter inner predicates) place
  | path {left step place deeper} (reached : Reaches bindings left place)
      (leads : Leads bindings step.axis step.test place deeper) :
      Reaches bindings (.path left (.step step)) deeper

/-- The components of a pattern that are not gaps. Each takes one name of a place. -/
def levels (pattern : Pattern) : List Component :=
  pattern.components.filter fun component => !component.isGap

/-- A step after a pattern may stay where it is, and its own pattern leaves this out. -/
def MissesSelf (bindings : Bindings) (pattern : Pattern) (step : Step) : Prop :=
  step.axis = .descendantOrSelf ∧ step.test ≠ .node ∧
    ∃ level name, (levels pattern).getLast? = some level ∧ level.accepts (.named name) = true ∧
      passes bindings .element step.test name = true

/-- No step of a path may stay where its pattern leaves this out. -/
def SelfCovered (bindings : Bindings) : Expr → Prop
  | .filter inner _ => SelfCovered bindings inner
  | .path left (.step step) => SelfCovered bindings left ∧
      ∀ pattern, contextPath? bindings left = some pattern → ¬ MissesSelf bindings pattern step
  | _ => True

section Matching
variable {components : List Component} {pattern : Pattern} {place : Place}

theorem match_gap_last :
    isMatch ⟨components ++ [.gap], false⟩ (location place) = true ↔
      ∃ upper lower, place = upper ++ lower ∧
        isMatch ⟨components, false⟩ (location upper) = true := by
  rw [location, match_append]
  constructor
  · rintro ⟨upper, lower, split, before, _⟩
    obtain ⟨first, last, rfl, rfl, rfl⟩ := List.map_eq_append_iff.mp split
    exact ⟨first, last, rfl, before⟩
  · rintro ⟨upper, lower, rfl, before⟩
    exact ⟨_, _, List.map_append, before, gap_takes_all _⟩

theorem match_level_last {level : Component} (single : level.isGap = false) :
    isMatch ⟨components ++ [level], false⟩ (location place) = true ↔
      ∃ upper name, place = upper ++ [name] ∧ level.accepts (.named name) = true ∧
        isMatch ⟨components, false⟩ (location upper) = true := by
  rw [location, match_append]
  constructor
  · rintro ⟨upper, lower, split, before, found⟩
    obtain ⟨actual, rest, rfl, accepted, ended⟩ := (level_takes_head single _ _).mp found
    obtain rfl : rest = [] := by simpa using ended
    obtain ⟨first, last, rfl, rfl, same⟩ := List.map_eq_append_iff.mp split
    obtain ⟨name, rfl, rfl⟩ := List.map_eq_singleton_iff.mp same
    exact ⟨first, name, rfl, accepted, before⟩
  · rintro ⟨upper, name, rfl, accepted, before⟩
    exact ⟨_, _, List.map_append, before,
      (level_takes_head single _ _).mpr ⟨_, _, rfl, accepted, by simp⟩⟩

/-- An open pattern extended by a gap takes in all that lies below what it took in. -/
theorem match_extend_gap (opened : pattern.closed = false) :
    (pattern.extend .gap).isMatch (location place) = true ↔
      ∃ upper lower, place = upper ++ lower ∧ pattern.isMatch (location upper) = true := by
  obtain ⟨components, closed⟩ := pattern
  cases opened
  unfold extend
  split
  · next collapsed =>
    simp only [Bool.and_eq_true, Option.any_eq_true] at collapsed
    obtain ⟨_, last, ended, gap⟩ := collapsed
    cases last <;> cases gap
    obtain ⟨before, rfl⟩ := List.getLast?_eq_some_iff.mp ended
    constructor
    · intro found
      exact ⟨place, [], by simp, found⟩
    · rintro ⟨upper, lower, rfl, found⟩
      obtain ⟨higher, between, rfl, above⟩ := match_gap_last.mp found
      exact match_gap_last.mpr ⟨higher, between ++ lower, by simp, above⟩
  · exact match_gap_last

/-- An open pattern extended by a level takes in what the level accepts right below what it took
in. -/
theorem match_extend_level {level : Component} (single : level.isGap = false)
    (opened : pattern.closed = false) :
    (pattern.extend level).isMatch (location place) = true ↔
      ∃ upper name, place = upper ++ [name] ∧ level.accepts (.named name) = true ∧
        pattern.isMatch (location upper) = true := by
  obtain ⟨components, closed⟩ := pattern
  cases opened
  simpa [extend, single, push] using match_level_last single

theorem closed_extend (pattern : Pattern) (component : Component) :
    (pattern.extend component).closed = pattern.closed := by
  unfold extend
  split <;> rfl

end Matching

section Levels
variable {pattern : Pattern}

@[simp] theorem levels_extend_gap : levels (pattern.extend .gap) = levels pattern := by
  have gap : Component.isGap .gap = true := rfl
  unfold extend
  split
  · rfl
  · simp [levels, push, gap]

@[simp] theorem levels_extend_level {level : Component} (single : level.isGap = false) :
    levels (pattern.extend level) = levels pattern ++ [level] := by
  simp [levels, extend, push, single]

theorem levels_gap_last (components : List Component) (closed : Bool) :
    levels ⟨components ++ [.gap], closed⟩ = levels ⟨components, closed⟩ := by
  have gap : Component.isGap .gap = true := rfl
  simp [levels, gap]

theorem levels_level_last {level : Component} (single : level.isGap = false)
    (components : List Component) (closed : Bool) :
    levels ⟨components ++ [level], closed⟩ = levels ⟨components, closed⟩ ++ [level] := by
  simp [levels, single]

/-- A pattern takes in no place with fewer names than it has levels. -/
theorem levels_le_length {components : List Component} {place : Place}
    (found : isMatch ⟨components, false⟩ (location place) = true) :
    (levels ⟨components, false⟩).length ≤ place.length := by
  induction components using List.reverseRecOn generalizing place with
  | nil => exact Nat.zero_le _
  | append_singleton before last ih =>
    cases gap : last.isGap with
    | true =>
      cases last <;> cases gap
      obtain ⟨upper, lower, rfl, above⟩ := match_gap_last.mp found
      rw [levels_gap_last, List.length_append]
      exact Nat.le_add_right_of_le (ih above)
    | false =>
      obtain ⟨upper, name, rfl, _, above⟩ := (match_level_last gap).mp found
      rw [levels_level_last gap, List.length_append, List.length_append]
      exact Nat.add_le_add_right (ih above) 1

/-- The last name of a place was taken by the last level of a pattern, or by a gap after it, and then
the pattern takes in whatever else is at that place as well. -/
theorem last_name_taken {components : List Component} {upper : Place} {name : QName}
    (found : isMatch ⟨components, false⟩ (location (upper ++ [name])) = true) :
    (∃ level, (levels ⟨components, false⟩).getLast? = some level ∧
      level.accepts (.named name) = true) ∨
      (extend ⟨components, false⟩ .gap).isMatch (location upper) = true := by
  induction components using List.reverseRecOn generalizing upper name with
  | nil => simp [location] at found
  | append_singleton before last ih =>
    cases gap : last.isGap with
    | true =>
      cases last <;> cases gap
      rw [match_extend_gap rfl, levels_gap_last]
      obtain ⟨higher, lower, split, above⟩ := match_gap_last.mp found
      rcases List.eq_nil_or_concat lower with rfl | ⟨between, other, rfl⟩
      · rw [List.append_nil] at split
        subst split
        rcases ih above with taken | below
        · exact .inl taken
        · rw [match_extend_gap rfl] at below
          exact .inr ⟨upper, [], by simp, match_gap_last.mpr below⟩
      · rw [List.concat_eq_append, ← List.append_assoc] at split
        obtain ⟨rfl, _⟩ := List.append_inj' split rfl
        exact .inr ⟨higher ++ between, [], by simp,
          match_gap_last.mpr ⟨higher, between, rfl, above⟩⟩
    | false =>
      obtain ⟨_, other, split, accepted, _⟩ := (match_level_last gap).mp found
      obtain ⟨_, same⟩ := List.append_inj' split rfl
      cases same
      exact .inl ⟨last, by simp [levels_level_last gap], accepted⟩

end Levels

section Steps
variable {bindings : Bindings}

/-- A component takes the place of a test: it is one level and accepts the names that pass. -/
structure Tests (bindings : Bindings) (kind : NameKind) (test : NodeTest) (level : Component) :
    Prop where
  single : level.isGap = false
  accepts : ∀ name, level.accepts (.named name) = passes bindings kind test name
  own : test ≠ .node
  ofKind : ∀ name, passes bindings kind test name = true → name.kind = kind
  inhabited : ∃ name, passes bindings kind test name = true

theorem kind_of_qualify {kind : NameKind} {written : String} {name : QName}
    (qualified : bindings.qualify kind written = some name) : name.kind = kind := by
  unfold Bindings.qualify at qualified
  split at qualified
  · cases qualified; rfl
  · obtain ⟨_, _, rfl⟩ := Option.map_eq_some_iff.mp qualified
    rfl

theorem name_tests {kind : NameKind} {written : String} {name : QName}
    (qualified : bindings.qualify kind written = some name) :
    Tests bindings kind (.named written) (.named name) where
  single := rfl
  accepts actual := by
    simp only [Component.accepts, passes, qualified, Option.any_some, QName.same, eq_comm]
  own := nofun
  ofKind actual passed := by
    rw [passes, qualified, Option.any_some, QName.same_iff] at passed
    rw [← kind_of_qualify qualified, passed]
  inhabited := ⟨name, by simp [passes, qualified, QName.same_iff]⟩

theorem wildcard_tests : Tests bindings .element .any .wildcard where
  single := rfl
  accepts name := by
    cases kind : name.kind <;> simp [Component.accepts, passes, QName.isAttribute, kind]
  own := nofun
  ofKind name passed := by simpa [passes] using passed
  inhabited := ⟨.unqualified .element "", rfl⟩

/-- The components of a step: one level for one name, a gap in front of it for a name further down,
a gap alone for any number of names, and nothing where the step stays. -/
theorem step_components_cases {axis : Axis} {test : NodeTest} {components : List Component}
    (known : stepComponents? bindings axis test = some components) :
    (axis = .child ∧ ∃ level, components = [level] ∧ Tests bindings .element test level) ∨
    (axis = .attribute ∧ ∃ level, components = [level] ∧ Tests bindings .attribute test level) ∨
    (axis = .self ∧ test = .node ∧ components = []) ∨
    (axis = .descendantOrSelf ∧ test = .node ∧ components = [.gap]) ∨
    ((axis = .descendant ∨ axis = .descendantOrSelf) ∧
      ∃ level, components = [.gap, level] ∧ Tests bindings .element test level) := by
  unfold stepComponents? at known
  split at known
  · obtain ⟨name, qualified, rfl⟩ := Option.map_eq_some_iff.mp known
    exact .inl ⟨rfl, _, rfl, name_tests qualified⟩
  · cases known
    exact .inl ⟨rfl, _, rfl, wildcard_tests⟩
  · obtain ⟨name, qualified, rfl⟩ := Option.map_eq_some_iff.mp known
    exact .inr (.inl ⟨rfl, _, rfl, name_tests qualified⟩)
  · cases known
    exact .inr (.inr (.inl ⟨rfl, rfl, rfl⟩))
  · cases known
    exact .inr (.inr (.inr (.inl ⟨rfl, rfl, rfl⟩)))
  · obtain ⟨name, qualified, rfl⟩ := Option.map_eq_some_iff.mp known
    exact .inr (.inr (.inr (.inr ⟨.inl rfl, _, rfl, name_tests qualified⟩)))
  · obtain ⟨name, qualified, rfl⟩ := Option.map_eq_some_iff.mp known
    exact .inr (.inr (.inr (.inr ⟨.inr rfl, _, rfl, name_tests qualified⟩)))
  · cases known
    exact .inr (.inr (.inr (.inr ⟨.inl rfl, _, rfl, wildcard_tests⟩)))
  · cases known
    exact .inr (.inr (.inr (.inr ⟨.inr rfl, _, rfl, wildcard_tests⟩)))
  · cases known

/-- What a step adds to the pattern of the path before it. -/
theorem extend_by_step_cases {before pattern : Pattern} {step : Step}
    (extended : extendByStep? bindings before step = some pattern) :
    (step.axis = .child ∧
      ∃ level, pattern = before.extend level ∧ Tests bindings .element step.test level) ∨
    (step.axis = .attribute ∧
      ∃ level, pattern = before.extend level ∧ Tests bindings .attribute step.test level) ∨
    (step.axis = .self ∧ step.test = .node ∧ pattern = before) ∨
    (step.axis = .descendantOrSelf ∧ step.test = .node ∧ pattern = before.extend .gap) ∨
    ((step.axis = .descendant ∨ step.axis = .descendantOrSelf) ∧
      ∃ level, pattern = (before.extend .gap).extend level ∧
        Tests bindings .element step.test level) := by
  obtain ⟨components, known, rfl⟩ := Option.map_eq_some_iff.mp extended
  rcases step_components_cases known with
    ⟨axis, level, rfl, tests⟩ | ⟨axis, level, rfl, tests⟩ | ⟨axis, test, rfl⟩ |
    ⟨axis, test, rfl⟩ | ⟨axis, level, rfl, tests⟩
  · exact .inl ⟨axis, level, rfl, tests⟩
  · exact .inr (.inl ⟨axis, level, rfl, tests⟩)
  · exact .inr (.inr (.inl ⟨axis, test, rfl⟩))
  · exact .inr (.inr (.inr (.inl ⟨axis, test, rfl⟩)))
  · exact .inr (.inr (.inr (.inr ⟨axis, level, rfl, tests⟩)))

/-- Induction along a path whose pattern is known. -/
@[elab_as_elim]
theorem known_induction {motive : Expr → Pattern → Prop} {e : Expr} {pattern : Pattern}
    (known : contextPath? bindings e = some pattern) (root : motive .root .empty)
    (documents : ∀ function arguments, isDocumentRoot function = true →
      motive (.call function arguments) .empty)
    (filter : ∀ inner predicates pattern, contextPath? bindings inner = some pattern →
      motive inner pattern → motive (.filter inner predicates) pattern)
    (path : ∀ left step before pattern, contextPath? bindings left = some before →
      extendByStep? bindings before step = some pattern → motive left before →
      motive (.path left (.step step)) pattern) : motive e pattern := by
  induction e using contextPath?.induct generalizing pattern with
  | case1 =>
    cases known
    exact root
  | case2 function arguments start =>
    rw [contextPath?, if_pos start] at known
    cases known
    exact documents function arguments start
  | case3 function arguments other =>
    rw [contextPath?, if_neg other] at known
    cases known
  | case4 inner predicates ih => exact filter inner predicates pattern known (ih known)
  | case5 left step ih =>
    obtain ⟨before, reached, extended⟩ := Option.bind_eq_some_iff.mp known
    exact path left step before pattern reached extended (ih reached)
  | case6 e notRoot notCall notFilter notStep =>
    rw [contextPath?] at known
    · cases known
    all_goals assumption

theorem open_after_step {before pattern : Pattern} {step : Step} (opened : before.closed = false)
    (extended : extendByStep? bindings before step = some pattern) : pattern.closed = false := by
  rcases extend_by_step_cases extended with
    ⟨_, _, rfl, _⟩ | ⟨_, _, rfl, _⟩ | ⟨_, _, rfl⟩ | ⟨_, _, rfl⟩ | ⟨_, _, rfl, _⟩ <;>
    simp only [closed_extend, opened]

theorem context_open {e : Expr} {pattern : Pattern}
    (known : contextPath? bindings e = some pattern) : pattern.closed = false := by
  refine known_induction known ?root ?documents ?filter ?path
  case root => rfl
  case documents => exact fun _ _ _ => rfl
  case filter => exact fun _ _ _ _ opened => opened
  case path => exact fun _ _ _ _ _ extended opened => open_after_step opened extended

end Steps

section Covering
variable {bindings : Bindings} {before pattern : Pattern} {step : Step} {place deeper : Place}

theorem below_is_matched {level : Component} (opened : before.closed = false)
    (tests : Tests bindings .element step.test level)
    (found : before.isMatch (location place) = true) (below : Below bindings step.test place deeper) :
    ((before.extend .gap).extend level).isMatch (location deeper) = true := by
  obtain ⟨between, name, rfl, _, _, passed⟩ := below
  refine (match_extend_level tests.single (by rw [closed_extend, opened])).mpr
    ⟨place ++ between, name, rfl, by rw [tests.accepts, passed], ?_⟩
  exact (match_extend_gap opened).mpr ⟨place, between, rfl, found⟩

/-- A step that stays at a place is taken in all the same where the pattern before it had a gap for
the last name. -/
theorem stay_is_matched {level : Component} (opened : before.closed = false)
    (axis : step.axis = .descendantOrSelf) (tests : Tests bindings .element step.test level)
    (covered : ¬ MissesSelf bindings before step)
    (found : before.isMatch (location place) = true) (stays : Stays bindings step.test place) :
    ((before.extend .gap).extend level).isMatch (location place) = true := by
  rcases stays with node | ⟨name, last, passed⟩
  · exact absurd node tests.own
  · obtain ⟨upper, rfl⟩ := List.getLast?_eq_some_iff.mp last
    obtain ⟨components, closed⟩ := before
    cases opened
    rcases last_name_taken found with ⟨own, lastLevel, accepted⟩ | below
    · exact absurd ⟨axis, tests.own, own, name, lastLevel, accepted, passed⟩ covered
    · exact (match_extend_level tests.single (closed_extend _ _)).mpr
        ⟨upper, name, rfl, by rw [tests.accepts, passed], below⟩

/-- One step keeps what is reached within what is matched. -/
theorem step_is_matched (opened : before.closed = false)
    (extended : extendByStep? bindings before step = some pattern)
    (covered : ¬ MissesSelf bindings before step)
    (found : before.isMatch (location place) = true)
    (leads : Leads bindings step.axis step.test place deeper) :
    pattern.isMatch (location deeper) = true := by
  rcases extend_by_step_cases extended with
    ⟨axis, level, rfl, tests⟩ | ⟨axis, level, rfl, tests⟩ | ⟨axis, test, rfl⟩ |
    ⟨axis, test, rfl⟩ | ⟨axis | axis, level, rfl, tests⟩
  · rw [axis] at leads
    cases leads with
    | toChild _ passed =>
      exact (match_extend_level tests.single opened).mpr
        ⟨place, _, rfl, by rw [tests.accepts, passed], found⟩
  · rw [axis] at leads
    cases leads with
    | toAttribute _ passed =>
      exact (match_extend_level tests.single opened).mpr
        ⟨place, _, rfl, by rw [tests.accepts, passed], found⟩
  · rw [axis] at leads
    cases leads
    exact found
  · rw [axis] at leads
    cases leads with
    | stay => exact (match_extend_gap opened).mpr ⟨place, [], by simp, found⟩
    | descend below =>
      obtain ⟨between, name, rfl, _⟩ := below
      exact (match_extend_gap opened).mpr ⟨place, between ++ [name], by simp, found⟩
  · rw [axis] at leads
    cases leads with
    | toDescendant below => exact below_is_matched opened tests found below
  · rw [axis] at leads
    cases leads with
    | stay stays => exact stay_is_matched opened axis tests covered found stays
    | descend below => exact below_is_matched opened tests found below

/-- Where no step can stay unnoticed, the pattern takes in every place that is reached. -/
theorem reached_is_matched {e : Expr} (covered : SelfCovered bindings e)
    (known : contextPath? bindings e = some pattern) (reached : Reaches bindings e place) :
    pattern.isMatch (location place) = true := by
  induction reached generalizing pattern with
  | root =>
    cases known
    rfl
  | documents start =>
    rw [contextPath?, if_pos start] at known
    cases known
    rfl
  | filter _ ih => exact ih covered known
  | path _ leads ih =>
    obtain ⟨before, reached, extended⟩ := Option.bind_eq_some_iff.mp known
    exact step_is_matched (context_open reached) extended (covered.2 before reached)
      (ih covered.1 reached) leads

end Covering

section Shortest
variable {bindings : Bindings} {before pattern : Pattern} {step : Step} {e : Expr}

theorem below_itself {level : Component} (tests : Tests bindings .element step.test level)
    {name : QName} (passed : passes bindings .element step.test name = true) (place : Place) :
    Below bindings step.test place (place ++ [name]) :=
  ⟨[], name, by simp, by simp, tests.ofKind name passed, passed⟩

/-- A step adds one level, and from every place it leads to all names that pass its test right below;
or it adds none, and it may stay at every place. -/
theorem step_adds_level_or_stays (extended : extendByStep? bindings before step = some pattern) :
    (∃ kind level, Tests bindings kind step.test level ∧
      levels pattern = levels before ++ [level] ∧
      ∀ place name, passes bindings kind step.test name = true →
        Leads bindings step.axis step.test place (place ++ [name])) ∨
    (levels pattern = levels before ∧
      ∀ place, Leads bindings step.axis step.test place place) := by
  rcases extend_by_step_cases extended with
    ⟨axis, level, rfl, tests⟩ | ⟨axis, level, rfl, tests⟩ | ⟨axis, test, rfl⟩ |
    ⟨axis, test, rfl⟩ | ⟨axis | axis, level, rfl, tests⟩ <;> rw [axis]
  · exact .inl ⟨_, level, tests, levels_extend_level tests.single,
      fun _ name passed => .toChild (tests.ofKind name passed) passed⟩
  · exact .inl ⟨_, level, tests, levels_extend_level tests.single,
      fun _ name passed => .toAttribute (tests.ofKind name passed) passed⟩
  · exact .inr ⟨rfl, fun _ => .toSelf (.inl test)⟩
  · exact .inr ⟨levels_extend_gap, fun _ => .stay (.inl test)⟩
  · exact .inl ⟨_, level, tests, by rw [levels_extend_level tests.single, levels_extend_gap],
      fun place _ passed => .toDescendant (below_itself tests passed place)⟩
  · exact .inl ⟨_, level, tests, by rw [levels_extend_level tests.single, levels_extend_gap],
      fun place _ passed => .descend (below_itself tests passed place)⟩

/-- From every place a step leads on to one with just the names that its own levels add. -/
theorem step_goes_on (extended : extendByStep? bindings before step = some pattern) (place : Place) :
    ∃ deeper, Leads bindings step.axis step.test place deeper ∧
      deeper.length + (levels before).length = place.length + (levels pattern).length := by
  rcases step_adds_level_or_stays extended with ⟨kind, level, tests, added, leads⟩ | ⟨same, leads⟩
  · obtain ⟨name, passed⟩ := tests.inhabited
    refine ⟨place ++ [name], leads place name passed, ?_⟩
    rw [added, List.length_append, List.length_append, List.length_singleton,
      List.length_singleton]
    omega
  · exact ⟨place, leads place, by rw [same]⟩

/-- Some place that is reached has just the names that the levels of the pattern need. -/
theorem shortest_reached (known : contextPath? bindings e = some pattern) :
    ∃ place, Reaches bindings e place ∧ place.length = (levels pattern).length := by
  refine known_induction known ?root ?documents ?filter ?path
  case root => exact ⟨[], .root, rfl⟩
  case documents => exact fun _ _ start => ⟨[], .documents start, rfl⟩
  case filter =>
    rintro inner predicates pattern _ ⟨place, reached, length⟩
    exact ⟨place, .filter reached, length⟩
  case path =>
    rintro left step before pattern _ extended ⟨place, reached, length⟩
    obtain ⟨deeper, leads, longer⟩ := step_goes_on extended place
    exact ⟨deeper, .path reached leads, by omega⟩

/-- Such a place can be had with any last name that the last level accepts. -/
theorem shortest_ending (known : contextPath? bindings e = some pattern) :
    ∀ level name, (levels pattern).getLast? = some level → level.accepts (.named name) = true →
      ∃ upper, Reaches bindings e (upper ++ [name]) ∧
        (upper ++ [name]).length = (levels pattern).length := by
  refine known_induction known ?root ?documents ?filter ?path
  case root => exact fun _ _ none => by cases none
  case documents => exact fun _ _ _ _ _ none => by cases none
  case filter =>
    intro inner predicates pattern _ ih level name last accepted
    obtain ⟨upper, reached, length⟩ := ih level name last accepted
    exact ⟨upper, .filter reached, length⟩
  case path =>
    intro left step before pattern reachedBefore extended ih level name last accepted
    rcases step_adds_level_or_stays extended with ⟨kind, own, tests, added, leads⟩ | ⟨same, leads⟩
    · obtain ⟨place, reached, length⟩ := shortest_reached reachedBefore
      obtain rfl : own = level := by simpa [added] using last
      rw [tests.accepts] at accepted
      refine ⟨place, .path reached (leads place name accepted), ?_⟩
      rw [added, List.length_append, List.length_append, length, List.length_singleton,
        List.length_singleton]
    · rw [same] at last ⊢
      obtain ⟨upper, reached, length⟩ := ih level name last accepted
      exact ⟨upper, .path reached (leads _), length⟩

/-- A step that stays unnoticed adds a level for a name that it need not add. -/
theorem missed_adds_level (extended : extendByStep? bindings before step = some pattern)
    (missed : MissesSelf bindings before step) :
    (levels pattern).length = (levels before).length + 1 := by
  obtain ⟨axis, test, _⟩ := missed
  rcases extend_by_step_cases extended with
    ⟨other, _⟩ | ⟨other, _⟩ | ⟨other, _⟩ | ⟨_, node, _⟩ | ⟨_, level, rfl, tests⟩
  · rw [axis] at other; cases other
  · rw [axis] at other; cases other
  · rw [axis] at other; cases other
  · exact absurd node test
  · rw [levels_extend_level tests.single, levels_extend_gap, List.length_append,
      List.length_singleton]

/-- Where a step may stay unnoticed, some place that is reached has fewer names than the pattern has
levels. -/
theorem missed_place_reached (known : contextPath? bindings e = some pattern) :
    ¬ SelfCovered bindings e →
      ∃ place, Reaches bindings e place ∧ place.length < (levels pattern).length := by
  refine known_induction known ?root ?documents ?filter ?path
  case root => exact fun missed => absurd trivial missed
  case documents => exact fun _ _ _ missed => absurd trivial missed
  case filter =>
    intro inner predicates pattern _ ih missed
    obtain ⟨place, reached, shorter⟩ := ih missed
    exact ⟨place, .filter reached, shorter⟩
  case path =>
    intro left step before pattern reachedBefore extended ih missed
    by_cases covered : SelfCovered bindings left
    · obtain ⟨own, reachedOwn, misses⟩ : ∃ own, contextPath? bindings left = some own ∧
          MissesSelf bindings own step := by
        by_contra none
        exact missed ⟨covered, fun own reached misses => none ⟨own, reached, misses⟩⟩
      obtain rfl := Option.some.inj (reachedBefore.symm.trans reachedOwn)
      have added := missed_adds_level extended misses
      obtain ⟨axis, _, level, name, last, accepted, passed⟩ := misses
      obtain ⟨upper, reached, length⟩ := shortest_ending reachedBefore level name last accepted
      have stays : Stays bindings step.test (upper ++ [name]) := .inr ⟨name, by simp, passed⟩
      exact ⟨upper ++ [name], .path reached (axis ▸ .stay stays), by omega⟩
    · obtain ⟨place, reached, shorter⟩ := ih covered
      obtain ⟨deeper, leads, longer⟩ := step_goes_on extended place
      exact ⟨deeper, .path reached leads, by omega⟩

end Shortest

/-- The pattern of a path takes in every place that the path reaches exactly when no step along
`descendant-or-self` with a name or a wildcard may stay where it is. -/
theorem context_takes_in_reached_iff {bindings : Bindings} {e : Expr} {pattern : Pattern}
    (known : contextPath? bindings e = some pattern) :
    (∀ place, Reaches bindings e place → pattern.isMatch (location place) = true) ↔
      SelfCovered bindings e := by
  constructor
  · intro takesIn
    by_contra missed
    obtain ⟨place, reached, shorter⟩ := missed_place_reached known missed
    have opened := context_open known
    obtain ⟨components, closed⟩ := pattern
    cases opened
    exact absurd (levels_le_length (takesIn place reached)) (Nat.not_le.mpr shorter)
  · intro covered place reached
    exact reached_is_matched covered known reached

section Sample

/-- An element of that name in no namespace. -/
def element (name : String) : QName := .unqualified .element name

/-- The step from the root to the elements of one name, and one that may stay there or go on. -/
def stayingPath (name other : String) : Expr :=
  .path (.path .root (.step ⟨.child, .named name, []⟩)) (.step ⟨.descendantOrSelf, .named other, []⟩)

/-- The path `/a/descendant-or-self::b` cannot stay at `/a`. -/
theorem other_name_taken_in :
    contextPath? .initial (stayingPath "a" "b") =
        some ⟨[.named (element "a"), .gap, .named (element "b")], false⟩ ∧
      ∀ place, Reaches .initial (stayingPath "a" "b") place →
        isMatch ⟨[.named (element "a"), .gap, .named (element "b")], false⟩ (location place) =
          true := by
  have known : contextPath? .initial (stayingPath "a" "b") =
      some ⟨[.named (element "a"), .gap, .named (element "b")], false⟩ := by with_unfolding_all rfl
  refine ⟨known, (context_takes_in_reached_iff known).mpr ⟨⟨trivial, ?_⟩, ?_⟩⟩
  · rintro _ _ ⟨axis, _⟩
    cases axis
  · rintro pattern reached ⟨_, _, level, name, last, accepted, passed⟩
    have first : contextPath? .initial (.path .root (.step ⟨.child, .named "a", []⟩)) =
        some ⟨[.named (element "a")], false⟩ := by with_unfolding_all rfl
    obtain rfl := Option.some.inj (first.symm.trans reached)
    obtain rfl : .named (element "a") = level := Option.some.inj last
    have isA : name.same (element "a") = true := accepted
    have other : Bindings.initial.qualify .element "b" = some (element "b") := by
      with_unfolding_all rfl
    rw [passes, other, Option.any_some] at passed
    rw [QName.same_iff] at isA passed
    exact absurd (passed.symm.trans isA) (by decide)

/-- The path `/a/descendant-or-self::a` stays at `/a`, which its pattern does not take in. -/
theorem same_name_left_out :
    let pattern : Pattern := ⟨[.named (element "a"), .gap, .named (element "a")], false⟩
    contextPath? .initial (stayingPath "a" "a") = some pattern ∧
      Reaches .initial (stayingPath "a" "a") [element "a"] ∧
      pattern.isMatch (location [element "a"]) = false := by
  refine ⟨by with_unfolding_all rfl, ?_, by decide⟩
  have first : Reaches .initial (.path .root (.step ⟨.child, .named "a", []⟩)) ([] ++ [element "a"]) :=
    .path .root (.toChild rfl (by with_unfolding_all rfl))
  exact .path first (.stay (.inr ⟨element "a", rfl, by with_unfolding_all rfl⟩))

end Sample

end RangeIndex.StepReach

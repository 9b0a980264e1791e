import RangeIndex.Location.Matching

/-! A pattern that accepts another pattern accepts everything the other one accepts. Gaps and
wildcards of the accepted pattern stand for infinitely many locations, so this is what lets a test
of patterns against patterns, made once for a query, speak of every location met later. -/
namespace RangeIndex.PatternContainment
open Pattern

section Splitting
variable {closed atEnd : Bool}

/-- A gap leaves some end of the location to the components after it. -/
theorem gap_leaves_suffix (later location : List Component) :
    isMatch ⟨.gap :: later, closed⟩ ⟨location, atEnd⟩ = true ↔
      ∃ rest, rest <:+ location ∧ isMatch ⟨later, closed⟩ ⟨rest, atEnd⟩ = true := by
  induction location with
  | nil => simp
  | cons actual rest ih =>
    rw [isMatch_gap_cons, Bool.or_eq_true, ih]
    constructor
    · rintro (whole | ⟨shorter, suffix, found⟩)
      · exact ⟨actual :: rest, List.suffix_rfl, whole⟩
      · exact ⟨shorter, suffix.trans (List.suffix_cons actual rest), found⟩
    · rintro ⟨shorter, suffix, found⟩
      rcases List.suffix_cons_iff.mp suffix with rfl | suffix
      · exact .inl found
      · exact .inr ⟨shorter, suffix, found⟩

/-- A gap at the end of a pattern takes whatever there is. -/
theorem gap_takes_all (location : List Component) :
    isMatch ⟨[.gap], closed⟩ ⟨location, atEnd⟩ = true :=
  (gap_leaves_suffix _ _).mpr ⟨[], List.nil_suffix, by simp⟩

/-- A component that takes one level needs a location that begins with one it accepts. -/
theorem level_takes_head {component : Component} (level : component.isGap = false)
    (later location : List Component) :
    isMatch ⟨component :: later, closed⟩ ⟨location, atEnd⟩ = true ↔
      ∃ actual rest, location = actual :: rest ∧ component.accepts actual = true ∧
        isMatch ⟨later, closed⟩ ⟨rest, atEnd⟩ = true := by
  cases location with
  | nil => simp [isMatch_level_nil level]
  | cons actual rest =>
    rw [isMatch_level_cons level, Bool.and_eq_true]
    constructor
    · rintro ⟨found, accepted⟩
      exact ⟨actual, rest, rfl, accepted, found⟩
    · rintro ⟨_, _, same, accepted, found⟩
      cases same
      exact ⟨found, accepted⟩

/-- A pattern in two parts matches what splits into a location of the first part, taken as open, and
one of the second. -/
theorem match_append (before later location : List Component) :
    isMatch ⟨before ++ later, closed⟩ ⟨location, atEnd⟩ = true ↔
      ∃ upper lower, location = upper ++ lower ∧
        isMatch ⟨before, false⟩ ⟨upper, atEnd⟩ = true ∧
        isMatch ⟨later, closed⟩ ⟨lower, atEnd⟩ = true := by
  induction before generalizing location with
  | nil =>
    constructor
    · intro found
      exact ⟨[], location, rfl, isMatch_nil _ _ _, found⟩
    · rintro ⟨upper, lower, rfl, nothing, found⟩
      obtain rfl : upper = [] := by simpa using nothing
      exact found
  | cons component before ih =>
    rw [List.cons_append]
    cases gap : component.isGap with
    | true =>
      cases component <;> cases gap
      rw [gap_leaves_suffix]
      constructor
      · rintro ⟨_, ⟨skipped, rfl⟩, found⟩
        obtain ⟨upper, lower, rfl, accepted, found⟩ := (ih _).mp found
        exact ⟨skipped ++ upper, lower, by simp,
          (gap_leaves_suffix _ _).mpr ⟨upper, List.suffix_append _ _, accepted⟩, found⟩
      · rintro ⟨upper, lower, rfl, whole, found⟩
        obtain ⟨rest, ⟨skipped, rfl⟩, accepted⟩ := (gap_leaves_suffix _ _).mp whole
        exact ⟨rest ++ lower, ⟨skipped, by simp⟩, (ih _).mpr ⟨rest, lower, rfl, accepted, found⟩⟩
    | false =>
      rw [level_takes_head gap]
      constructor
      · rintro ⟨actual, _, rfl, head, found⟩
        obtain ⟨upper, lower, rfl, accepted, found⟩ := (ih _).mp found
        exact ⟨actual :: upper, lower, rfl,
          (level_takes_head gap _ _).mpr ⟨actual, upper, rfl, head, accepted⟩, found⟩
      · rintro ⟨upper, lower, rfl, whole, found⟩
        obtain ⟨actual, rest, rfl, head, accepted⟩ := (level_takes_head gap _ _).mp whole
        exact ⟨actual, rest ++ lower, rfl, head, (ih _).mpr ⟨rest, lower, rfl, accepted, found⟩⟩

/-- What is left of a location after the first components of a pattern satisfies the others. -/
theorem later_accepts_suffix (before later location : List Component)
    (found : isMatch ⟨before ++ later, closed⟩ ⟨location, atEnd⟩ = true) :
    ∃ rest, rest <:+ location ∧ isMatch ⟨later, closed⟩ ⟨rest, atEnd⟩ = true := by
  obtain ⟨upper, lower, rfl, _, found⟩ := (match_append before later location).mp found
  exact ⟨lower, List.suffix_append upper lower, found⟩

/-- Without gaps an open pattern matches locations of its own length only. -/
theorem gap_free_length (components location : List Component)
    (levels : ∀ component ∈ components, component.isGap = false)
    (found : isMatch ⟨components, false⟩ ⟨location, atEnd⟩ = true) :
    location.length = components.length := by
  induction components generalizing location with
  | nil => simpa using found
  | cons component later ih =>
    obtain ⟨level, others⟩ := List.forall_mem_cons.mp levels
    obtain ⟨actual, rest, rfl, _, found⟩ := (level_takes_head level _ _).mp found
    simp [ih rest others found]

end Splitting

/-- Only names are accepted by a single component, and a name stands for itself alone. -/
theorem accepts_trans {component actual deeper : Component}
    (first : component.accepts actual = true) (second : actual.accepts deeper = true) :
    component.accepts deeper = true := by
  cases actual with
  | wildcard => cases component <;> simp [Component.accepts] at first
  | gap => cases component <;> simp [Component.accepts] at first
  | named name =>
    cases deeper with
    | wildcard => simp [Component.accepts] at second
    | gap => simp [Component.accepts] at second
    | named other =>
      have same : other.toNameIdentity = name.toNameIdentity := by
        simpa [Component.accepts, QName.same_iff] using second
      cases component with
      | gap => simp [Component.accepts] at first
      | wildcard =>
        simp only [Component.accepts, QName.isAttribute] at first ⊢
        rw [same]
        exact first
      | named expected =>
        simp only [Component.accepts, QName.same_iff] at first ⊢
        rw [same]
        exact first

/-- A component that takes one level accepts no gap. -/
theorem accepted_is_level {component actual : Component}
    (accepted : component.accepts actual = true) : actual.isGap = false := by
  cases actual with
  | named name => rfl
  | wildcard => rfl
  | gap => cases component <;> simp [Component.accepts] at accepted

/-- Matching is transitive, unless an open pattern is asked about the part below a closed one. A gap
takes whatever the components that it took in between stand for. -/
theorem match_transitive {outer inner : Bool} {pattern : List Component}
    (ends : inner = false ∨ outer = true) (middle location : List Component) (atEnd : Bool)
    (first : isMatch ⟨pattern, outer⟩ ⟨middle, inner⟩ = true)
    (second : isMatch ⟨middle, inner⟩ ⟨location, atEnd⟩ = true) :
    isMatch ⟨pattern, outer⟩ ⟨location, atEnd⟩ = true := by
  induction pattern generalizing middle location with
  | nil =>
    rw [isMatch_nil, Bool.or_eq_true] at first ⊢
    rcases first with empty | outerClosed
    · rw [List.isEmpty_iff] at empty
      subst empty
      rw [isMatch_nil, Bool.or_eq_true] at second
      rcases second with done | innerClosed
      · exact .inl done
      · exact .inr (ends.resolve_left (by simp [innerClosed]))
    · exact .inr outerClosed
  | cons component later ih =>
    cases gap : component.isGap with
    | true =>
      cases component <;> cases gap
      obtain ⟨rest, ⟨taken, rfl⟩, found⟩ := (gap_leaves_suffix _ _).mp first
      obtain ⟨deeper, suffix, reached⟩ := later_accepts_suffix taken rest location second
      exact (gap_leaves_suffix _ _).mpr ⟨deeper, suffix, ih rest deeper found reached⟩
    | false =>
      obtain ⟨actual, rest, rfl, accepted, found⟩ := (level_takes_head gap _ _).mp first
      obtain ⟨deeper, below, rfl, acceptedBelow, reached⟩ :=
        (level_takes_head (accepted_is_level accepted) _ _).mp second
      exact (level_takes_head gap _ _).mpr
        ⟨deeper, below, rfl, accepts_trans accepted acceptedBelow, ih rest below found reached⟩

/-- An open pattern is contained in every pattern that accepts it. -/
theorem open_pattern_contained {rule context location : Pattern} (opened : context.closed = false)
    (covers : rule.isMatch context = true) (reached : context.isMatch location = true) :
    rule.isMatch location = true := by
  obtain ⟨middle, inner⟩ := context
  exact match_transitive (.inl opened) middle location.components location.closed covers reached

end RangeIndex.PatternContainment

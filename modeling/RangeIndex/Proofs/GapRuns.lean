import RangeIndex.Proofs.PathsInPlace
import RangeIndex.Proofs.PatternCuts

/-! Runs of gaps. Reading a path and following its steps never put two gaps side by side, while joining
patterns may. Nothing depends on that: a run of gaps stands for any number of levels, just as a single
gap does, whether it is in the pattern that matches or in the location that is matched. -/
namespace RangeIndex.GapRuns
open Pattern PatternContainment PatternCuts PathsInPlace PathGrammar

section Runs
variable {closed atEnd : Bool}

/-- Of two gaps in a row the second takes what the first leaves, which the first could have taken. -/
theorem second_gap_idle (later location : List Component) :
    isMatch ⟨.gap :: .gap :: later, closed⟩ ⟨location, atEnd⟩ =
      isMatch ⟨.gap :: later, closed⟩ ⟨location, atEnd⟩ := by
  rw [Bool.eq_iff_iff, gap_leaves_suffix, gap_leaves_suffix]
  constructor
  · rintro ⟨rest, suffix, found⟩
    obtain ⟨deeper, below, found⟩ := (gap_leaves_suffix _ _).mp found
    exact ⟨deeper, below.trans suffix, found⟩
  · rintro ⟨rest, suffix, found⟩
    exact ⟨rest, suffix, (gap_leaves_suffix _ _).mpr ⟨rest, List.suffix_rfl, found⟩⟩

/-- Components that match alike match alike behind one component more. -/
theorem match_in_front {later later' : List Component}
    (same : ∀ location, isMatch ⟨later, closed⟩ ⟨location, atEnd⟩ =
      isMatch ⟨later', closed⟩ ⟨location, atEnd⟩)
    (component : Component) (location : List Component) :
    isMatch ⟨component :: later, closed⟩ ⟨location, atEnd⟩ =
      isMatch ⟨component :: later', closed⟩ ⟨location, atEnd⟩ := by
  rw [Bool.eq_iff_iff, match_cons, match_cons]
  simp only [same]

/-- A pattern with every run of gaps made one gap matches what it matched before. Induction is on the
components; a gap is dropped only where those behind it, collapsed, begin with a gap. -/
theorem collapsed_match (components location : List Component) :
    isMatch ⟨collapseGaps components, closed⟩ ⟨location, atEnd⟩ =
      isMatch ⟨components, closed⟩ ⟨location, atEnd⟩ := by
  induction components generalizing location with
  | nil => rfl
  | cons component rest ih =>
    rw [← match_in_front ih component location]
    rcases collapse_cases component rest with ⟨later, rfl, collapsed, dropped⟩ | kept
    · rw [dropped, collapsed, second_gap_idle]
    · rw [kept]

end Runs

theorem single_gaps_match (pattern location : Pattern) :
    (singleGaps pattern).isMatch location = pattern.isMatch location :=
  collapsed_match pattern.components location.components

/-- Making every run of gaps one gap changes no match: not in the pattern, not in the location, and not
in both. -/
theorem repeated_gaps_redundant (pattern location : Pattern) :
    (singleGaps pattern).isMatch location = pattern.isMatch location ∧
    pattern.isMatch (singleGaps location) = pattern.isMatch location ∧
    (singleGaps pattern).isMatch (singleGaps location) = pattern.isMatch location := by
  have first := single_gaps_match pattern location
  have second := match_single_gaps pattern location
  refine ⟨first, second, ?_⟩
  rw [single_gaps_match, second]

end RangeIndex.GapRuns

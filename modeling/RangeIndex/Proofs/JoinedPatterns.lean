import RangeIndex.Location.Buffer
import RangeIndex.Proofs.PatternContainment

/-! Patterns put together from others. A pattern followed by another matches what can be split into a
part for each, wherever gaps and wildcards stand in the two and in what is matched. Where the whole ends
is decided by the first: the second is taken to be closed if the first is, and the first to be open. A
closed end is nothing but a gap that is not written: it takes whatever is left, as a gap behind an open
pattern does. -/
namespace RangeIndex.JoinedPatterns
open Pattern PatternContainment

/-- The pattern with that behaviour at its end. -/
def ended (closed : Bool) (pattern : Pattern) : Pattern := { pattern with closed := closed }

/-- Two patterns in a row match what splits into a location of the first, taken as open, and one of the
second, taken with the end of the first. -/
theorem joined_match_iff (pattern other location : Pattern) :
    (pattern.joined other).isMatch location = true ↔
      ∃ upper lower : Pattern, location.components = upper.components ++ lower.components ∧
        (ended false pattern).isMatch upper = true ∧
        (ended pattern.closed other).isMatch lower = true := by
  obtain ⟨levels, atEnd⟩ := location
  rw [joined, match_append]
  constructor
  · rintro ⟨upper, lower, rfl, accepted, found⟩
    exact ⟨⟨upper, atEnd⟩, ⟨lower, atEnd⟩, rfl, accepted, found⟩
  · rintro ⟨upper, lower, split, accepted, found⟩
    exact ⟨upper.components, lower.components, split, accepted, found⟩

/-- Appending to a buffer joins the other pattern to that of the buffer, whatever room there is. -/
theorem append_joins (buffer : PatternBuffer) (other : Pattern) :
    (buffer.append other.components).pattern = buffer.pattern.joined other :=
  rfl

theorem empty_joined (closed : Bool) (other : Pattern) :
    (ended closed .empty).joined other = ended closed other :=
  rfl

/-- Followed by something that takes whatever is left, a pattern matches all that lies at or below a
location of its own. -/
theorem joined_any_match_iff {pattern other : Pattern}
    (takesAll : ∀ lower, (ended pattern.closed other).isMatch lower = true) (location : Pattern) :
    (pattern.joined other).isMatch location = true ↔
      ∃ upper lower : Pattern, location.components = upper.components ++ lower.components ∧
        (ended false pattern).isMatch upper = true := by
  rw [joined_match_iff]
  constructor
  · rintro ⟨upper, lower, split, accepted, _⟩
    exact ⟨upper, lower, split, accepted⟩
  · rintro ⟨upper, lower, split, accepted⟩
    exact ⟨upper, lower, split, accepted, takesAll lower⟩

theorem closed_match_iff (pattern location : Pattern) :
    (ended true pattern).isMatch location = true ↔
      ∃ upper lower : Pattern, location.components = upper.components ++ lower.components ∧
        (ended false pattern).isMatch upper = true := by
  have whole : ended true pattern = (ended true pattern).joined .empty := by
    simp [ended, joined, Pattern.empty]
  rw [whole]
  refine joined_any_match_iff (fun lower => ?_) location
  exact (isMatch_nil true lower.closed lower.components).trans (Bool.or_true _)

theorem gap_last_match_iff (pattern location : Pattern) :
    ((ended false pattern).push .gap).isMatch location = true ↔
      ∃ upper lower : Pattern, location.components = upper.components ++ lower.components ∧
        (ended false pattern).isMatch upper = true := by
  have whole : (ended false pattern).push .gap = (ended false pattern).joined ⟨[.gap], false⟩ := rfl
  rw [whole]
  refine joined_any_match_iff (fun lower => ?_) location
  exact gap_takes_all lower.components

/-- Joining patterns is concatenation: the joined pattern matches just what can be split into a location
of the first, which is open there, and one of the second, which ends there as the first does. To an
empty pattern, with any room, the other is appended as it is, with the end of the empty one. -/
theorem joined_is_concatenation (pattern other location : Pattern) :
    ((pattern.joined other).isMatch location = true ↔
      ∃ upper lower : Pattern, location.components = upper.components ++ lower.components ∧
        (ended false pattern).isMatch upper = true ∧
        (ended pattern.closed other).isMatch lower = true) ∧
    ∀ closed room, ((PatternBuffer.mk (ended closed .empty) room).append other.components).pattern.isMatch
      location = (ended closed other).isMatch location := by
  refine ⟨joined_match_iff pattern other location, ?_⟩
  intro closed room
  rw [append_joins, empty_joined]

/-- A closed pattern matches what the open one matches with a gap behind it, and that is everything some
upper part of which the open one matches. -/
theorem closing_is_trailing_gap (pattern location : Pattern) :
    (ended true pattern).isMatch location = ((ended false pattern).push .gap).isMatch location ∧
    ((ended true pattern).isMatch location = true ↔
      ∃ upper lower : Pattern, location.components = upper.components ++ lower.components ∧
        (ended false pattern).isMatch upper = true) := by
  have closed := closed_match_iff pattern location
  refine ⟨?_, closed⟩
  rw [Bool.eq_iff_iff, closed, gap_last_match_iff]

end RangeIndex.JoinedPatterns

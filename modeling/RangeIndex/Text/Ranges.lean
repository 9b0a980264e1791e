/-! Character classes are kept as ascending tables of closed code point ranges, so membership is
one walk that stops at the first range reaching the code point asked for. In an ascending table
that walk finds exactly the code points that lie in some range. -/
namespace RangeIndex.Text

/-- Whether no range is empty and each starts above the one before, the first at or above a
bound. -/
def isAscending : Nat → List (Nat × Nat) → Bool
  | _, [] => true
  | bound, (first, last) :: rest =>
    decide (bound ≤ first) && decide (first ≤ last) && isAscending (last + 1) rest

/-- Closed ranges of code points in ascending order. -/
structure Ranges where
  list : List (Nat × Nat)
  ascending : isAscending 0 list = true

/-- Whether a code point lies in one of some ranges. The first range that ends at or above it
decides, since every later one starts higher still. -/
def reaches : List (Nat × Nat) → Nat → Bool
  | [], _ => false
  | (first, last) :: rest, code =>
    if code ≤ last then decide (first ≤ code) else reaches rest code

theorem le_of_isAscending {bound : Nat} {ranges : List (Nat × Nat)}
    (ascending : isAscending bound ranges = true) {range : Nat × Nat} (member : range ∈ ranges) :
    bound ≤ range.1 := by
  induction ranges generalizing bound with
  | nil => cases member
  | cons head rest ih =>
    simp only [isAscending, Bool.and_eq_true, decide_eq_true_eq] at ascending
    obtain ⟨⟨start, nonempty⟩, later⟩ := ascending
    cases member with
    | head => exact start
    | tail _ member =>
      have := ih later member
      omega

theorem reaches_iff {bound : Nat} {ranges : List (Nat × Nat)}
    (ascending : isAscending bound ranges = true) (code : Nat) :
    reaches ranges code = true ↔ ∃ range ∈ ranges, range.1 ≤ code ∧ code ≤ range.2 := by
  induction ranges generalizing bound with
  | nil => simp [reaches]
  | cons head rest ih =>
    simp only [isAscending, Bool.and_eq_true, decide_eq_true_eq] at ascending
    obtain ⟨_, later⟩ := ascending
    simp only [reaches, List.mem_cons, exists_eq_or_imp]
    split
    · next reached =>
      simp only [decide_eq_true_eq]
      constructor
      · intro started
        exact .inl ⟨started, reached⟩
      · rintro (⟨started, _⟩ | ⟨range, member, started, _⟩)
        · exact started
        · have := le_of_isAscending later member
          omega
    · next beyond =>
      rw [ih later]
      constructor
      · exact .inr
      · rintro (⟨_, reached⟩ | found)
        · exact absurd reached beyond
        · exact found

namespace Ranges

/-- Whether a code point lies in one of the ranges. -/
def contains (ranges : Ranges) (code : Nat) : Bool := reaches ranges.list code

/-- The walk over a table finds what lies in some range. -/
theorem contains_iff (ranges : Ranges) (code : Nat) :
    ranges.contains code = true ↔ ∃ range ∈ ranges.list, range.1 ≤ code ∧ code ≤ range.2 :=
  reaches_iff ranges.ascending code

end Ranges

end RangeIndex.Text

import RangeIndex.Location.Basic

/-! A pattern without gaps is compared with a location level by level. For any other, matching
fills one row for every component of the pattern, from the last to the first. An entry of a row
says whether the rest of the pattern, from that component on, accepts the rest of the location from
that place on, so the work is the product of the two lengths. The rows give the same answer where
the levels are enough. -/
namespace RangeIndex.Pattern

/-- Whether components that each take one level accept the first levels of a location, one for one,
and nothing is left of it unless the pattern is closed. -/
def acceptsLevels (closed : Bool) (location components : List Component) : Bool :=
  decide (components.length ≤ location.length) &&
    (closed || location.length == components.length) &&
    (components.zip location).all fun (component, actual) => component.accepts actual

/-- The row after the last component: the rest of the location is accepted when it is empty, or
always when the pattern is closed. -/
def endRow (closed : Bool) : List Component → List Bool
  | [] => [true]
  | _ :: rest => closed :: endRow closed rest

/-- The row of a gap, which accepts where anything from there on is accepted. -/
def gapRow : List Bool → List Bool
  | [] => []
  | accepted :: later =>
    let row := gapRow later
    (accepted || row.headD false) :: row

/-- The row of a component that takes exactly one level. -/
def levelRow (component : Component) : List Component → List Bool → List Bool
  | actual :: rest, _ :: next =>
    (next.headD false && component.accepts actual) :: levelRow component rest next
  | _, _ => [false]

/-- The row of a list of pattern components over a location. -/
def row (closed : Bool) (location : List Component) : List Component → List Bool
  | [] => endRow closed location
  | component :: rest =>
    let next := row closed location rest
    if component.isGap then gapRow next else levelRow component location next

/-- Whether a location of this length may satisfy the pattern. -/
def allowsLength (pattern : Pattern) (length : Nat) : Bool :=
  pattern.closed || pattern.components.any Component.isGap || pattern.length == length

/-- Whether a location satisfies the pattern. -/
def isMatch (pattern location : Pattern) : Bool :=
  if pattern.components.any Component.isGap then
    (row pattern.closed location.components pattern.components).headD false
  else acceptsLevels pattern.closed location.components pattern.components

/-- What satisfies a pattern is of a length that it allows. -/
theorem allowsLength_of_isMatch {pattern location : Pattern}
    (satisfied : pattern.isMatch location = true) :
    pattern.allowsLength location.length = true := by
  unfold isMatch at satisfied
  split at satisfied
  · next gap => simp [allowsLength, gap]
  · simp only [acceptsLevels, Bool.and_eq_true, Bool.or_eq_true] at satisfied
    obtain ⟨⟨_, ended⟩, _⟩ := satisfied
    rcases ended with closed | same
    · simp [allowsLength, closed]
    · simp [allowsLength, Pattern.length, eq_of_beq same]

/-- The row over the end of a location has one entry. -/
theorem row_nil (closed : Bool) (components : List Component) :
    row closed [] components = [(row closed [] components).headD false] := by
  induction components with
  | nil => rfl
  | cons component later ih =>
    simp only [row]
    split
    · rw [ih]; rfl
    · rfl

/-- The row over a location is its own head in front of the row over the location below. -/
theorem row_cons (closed : Bool) (actual : Component) (rest components : List Component) :
    row closed (actual :: rest) components =
      (row closed (actual :: rest) components).headD false :: row closed rest components := by
  induction components with
  | nil => rfl
  | cons component later ih =>
    simp only [row]
    split <;> rw [ih] <;> rfl

/-- Components that each take one level accept one level, and then what they accept below it. -/
theorem acceptsLevels_cons (closed : Bool) (actual component : Component)
    (rest later : List Component) :
    acceptsLevels closed (actual :: rest) (component :: later) =
      (acceptsLevels closed rest later && component.accepts actual) := by
  simp [acceptsLevels, Bool.and_comm, Bool.and_left_comm]

/-- Without gaps the rows say what comparing level by level says. -/
theorem row_eq_acceptsLevels (closed : Bool) (location : List Component)
    {components : List Component} (levels : components.any Component.isGap = false) :
    (row closed location components).headD false = acceptsLevels closed location components := by
  induction components generalizing location with
  | nil => cases location <;> simp [row, endRow, acceptsLevels]
  | cons component later ih =>
    obtain ⟨level, others⟩ : component.isGap = false ∧ later.any Component.isGap = false := by
      simpa using levels
    simp only [row, level, Bool.false_eq_true, if_false]
    cases location with
    | nil => simp [levelRow, acceptsLevels]
    | cons actual rest => rw [row_cons, acceptsLevels_cons, ← ih rest others]; rfl

/-- Whether or not the rows are filled, matching gives their answer. -/
theorem isMatch_eq_row (pattern location : Pattern) :
    pattern.isMatch location =
      (row pattern.closed location.components pattern.components).headD false := by
  unfold isMatch
  split
  · rfl
  · next levels => exact (row_eq_acceptsLevels _ _ ((Bool.not_eq_true _).mp levels)).symm

/-- An exhausted pattern takes the end of a location, and anything when it is closed. -/
@[simp] theorem isMatch_nil (closed atEnd : Bool) (location : List Component) :
    isMatch ⟨[], closed⟩ ⟨location, atEnd⟩ = (location.isEmpty || closed) := by
  cases location <;> simp [isMatch_eq_row, row, endRow]

/-- At the end of a location a gap takes nothing. -/
@[simp] theorem isMatch_gap_nil (closed atEnd : Bool) (later : List Component) :
    isMatch ⟨.gap :: later, closed⟩ ⟨[], atEnd⟩ = isMatch ⟨later, closed⟩ ⟨[], atEnd⟩ := by
  simp only [isMatch_eq_row, row, Component.isGap, if_true]
  rw [row_nil]
  simp [gapRow]

/-- A gap takes nothing, or one component and then what it takes of the rest. -/
theorem isMatch_gap_cons (closed atEnd : Bool) (actual : Component)
    (rest later : List Component) :
    isMatch ⟨.gap :: later, closed⟩ ⟨actual :: rest, atEnd⟩ =
      (isMatch ⟨later, closed⟩ ⟨actual :: rest, atEnd⟩ ||
        isMatch ⟨.gap :: later, closed⟩ ⟨rest, atEnd⟩) := by
  simp only [isMatch_eq_row, row, Component.isGap, if_true]
  rw [row_cons]
  rfl

/-- A component other than a gap needs something to take. -/
theorem isMatch_level_nil {component : Component} (level : component.isGap = false)
    (closed atEnd : Bool) (later : List Component) :
    isMatch ⟨component :: later, closed⟩ ⟨[], atEnd⟩ = false := by
  simp [isMatch_eq_row, row, level, levelRow]

/-- A component other than a gap takes one component. -/
theorem isMatch_level_cons {component : Component} (level : component.isGap = false)
    (closed atEnd : Bool) (actual : Component) (rest later : List Component) :
    isMatch ⟨component :: later, closed⟩ ⟨actual :: rest, atEnd⟩ =
      (isMatch ⟨later, closed⟩ ⟨rest, atEnd⟩ && component.accepts actual) := by
  simp only [isMatch_eq_row, row, level, Bool.false_eq_true, if_false]
  rw [row_cons]
  rfl

end RangeIndex.Pattern

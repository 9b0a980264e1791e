import RangeIndex.Location.Basic

/-! A location is entered and left at its inner end, over and over. A trail has the components from
the inside out and knows how many there are, so that a step does not take longer the deeper the
location is. -/
namespace RangeIndex

/-- A location from the inside out. -/
structure Trail where
  inward : List Component
  depth : Nat
  closed : Bool
  counted : inward.length = depth

namespace Trail

/-- The location that a trail leads to. -/
def location (trail : Trail) : Pattern := ⟨trail.inward.reverse, trail.closed⟩

/-- The trail that leads to a location. -/
def ofLocation (location : Pattern) : Trail :=
  ⟨location.components.reverse, location.length, location.closed, by simp [Pattern.length]⟩

/-- Go one level down. -/
def enter (trail : Trail) (component : Component) : Trail :=
  ⟨component :: trail.inward, trail.depth + 1, trail.closed, by simp [trail.counted]⟩

/-- Go one level up, if there is one. -/
def leave (trail : Trail) : Trail :=
  ⟨trail.inward.tail, trail.depth - 1, trail.closed, by simp [trail.counted]⟩

@[simp] theorem location_ofLocation (location : Pattern) :
    (ofLocation location).location = location := by
  simp [ofLocation, Trail.location]

@[simp] theorem location_enter (trail : Trail) (component : Component) :
    (trail.enter component).location = trail.location.push component := by
  simp [enter, location, Pattern.push]

@[simp] theorem location_leave (trail : Trail) : trail.leave.location = trail.location.pop := by
  simp [leave, location, Pattern.pop]

@[simp] theorem length_location (trail : Trail) : trail.location.length = trail.depth := by
  simp [location, Pattern.length, trail.counted]

@[simp] theorem isEmpty_location (trail : Trail) : trail.location.isEmpty = (trail.depth == 0) := by
  rw [Bool.eq_iff_iff, Pattern.isEmpty_iff, length_location, beq_iff_eq]

end Trail

end RangeIndex

import RangeIndex.Location.Basic

/-! A pattern that is filled and emptied over and over reserves room for more components than it
holds. Room starts small and doubles until it suffices; emptying the pattern gives the room back
only when it has grown far beyond its start. -/
namespace RangeIndex

/-- A pattern and the number of components it has room for. -/
structure PatternBuffer where
  pattern : Pattern
  room : Nat
deriving DecidableEq, Repr

namespace PatternBuffer

/-- The room of a new buffer. -/
def initialRoom : Nat := 5

/-- Emptying a buffer with more room than this many times the initial room gives it back. -/
def excessFactor : Nat := 16

/-- An empty buffer. -/
def new (closed : Bool) : PatternBuffer := ⟨⟨[], closed⟩, initialRoom⟩

/-- A positive room doubled as often as it takes to reach what is needed. -/
def doubled (needed room : Nat) : Nat :=
  if room = 0 ∨ needed ≤ room then room else doubled needed (2 * room)
termination_by needed - room
decreasing_by omega

/-- The room after making sure that so many components fit. -/
def roomFor (needed room : Nat) : Nat :=
  if needed ≤ room then room else doubled needed (max room initialRoom)

/-- Add components at the end. -/
def append (buffer : PatternBuffer) (components : List Component) : PatternBuffer where
  pattern := { buffer.pattern with components := buffer.pattern.components ++ components }
  room := roomFor (buffer.pattern.length + components.length) buffer.room

/-- Add one component at the end. -/
def push (buffer : PatternBuffer) (component : Component) : PatternBuffer :=
  buffer.append [component]

/-- Drop the last component. -/
def pop (buffer : PatternBuffer) : PatternBuffer := { buffer with pattern := buffer.pattern.pop }

/-- Change the behaviour at the end. -/
def setClosed (buffer : PatternBuffer) (closed : Bool) : PatternBuffer :=
  { buffer with pattern := { buffer.pattern with closed := closed } }

/-- Empty the buffer. -/
def reset (buffer : PatternBuffer) : PatternBuffer where
  pattern := { buffer.pattern with components := [] }
  room := if initialRoom * excessFactor < buffer.room then initialRoom else buffer.room

/-- The room after going one level down from so many, and then to levels below that one and back,
each by itself, unless there are none. -/
def roomBelow (depth room : Nat) (bare : Bool) : Nat :=
  let inside := roomFor (depth + 1) room
  if bare then inside else roomFor (depth + 2) inside

/-- The buffer that results from adding a pattern's components one by one. -/
def ofPattern (pattern : Pattern) : PatternBuffer :=
  pattern.components.foldl push (new pattern.closed)

/-- Doubling a positive room reaches what is needed. -/
theorem le_doubled (needed : Nat) {room : Nat} (positive : 0 < room) :
    needed ≤ doubled needed room := by
  fun_induction doubled needed room with
  | case1 room enough => omega
  | case2 room _ ih => exact ih (by omega)

/-- Growing makes room for what is needed. -/
theorem le_roomFor (needed room : Nat) : needed ≤ roomFor needed room := by
  unfold roomFor
  split
  · assumption
  · exact le_doubled needed (by unfold initialRoom; omega)

/-- After adding components the buffer holds no more of them than it has room for. -/
theorem length_append_le_room (buffer : PatternBuffer) (components : List Component) :
    (buffer.append components).pattern.length ≤ (buffer.append components).room := by
  simp only [append, Pattern.length, List.length_append]
  exact le_roomFor _ _

/-- A reset empties the buffer, whatever is in it. -/
theorem reset_pattern (buffer : PatternBuffer) :
    buffer.reset.pattern = ⟨[], buffer.pattern.closed⟩ :=
  rfl

theorem roomFor_roomFor (needed room : Nat) :
    roomFor needed (roomFor needed room) = roomFor needed room :=
  if_pos (le_roomFor needed room)

theorem pop_push (buffer : PatternBuffer) (component : Component) :
    (buffer.push component).pop = ⟨buffer.pattern, roomFor (buffer.pattern.length + 1) buffer.room⟩ :=
  congrArg (PatternBuffer.mk · _) (buffer.pattern.pop_push component)

/-- Visits below a level make room for one level more, however many they are. -/
theorem visits_make_room (buffer : PatternBuffer) (component : Component) (visited : List Component) :
    visited.foldl (fun buffer visit => (buffer.push visit).pop) (buffer.push component) =
      ⟨buffer.pattern.push component,
        roomBelow buffer.pattern.length buffer.room visited.isEmpty⟩ := by
  have length : (buffer.push component).pattern.length = buffer.pattern.length + 1 :=
    buffer.pattern.length_push component
  cases visited with
  | nil => rfl
  | cons first rest =>
    rw [List.foldl_cons, pop_push, length]
    induction rest with
    | nil => rfl
    | cons next rest ih =>
      rw [List.foldl_cons, pop_push, length, roomFor_roomFor]
      exact ih

end PatternBuffer

end RangeIndex

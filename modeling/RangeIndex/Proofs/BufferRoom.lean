import Mathlib.Algebra.Group.Nat.Defs
import Mathlib.Data.List.Induction
import Mathlib.Order.Bounds.Basic
import RangeIndex.Location.Buffer

/-! The room of a buffer is a function of the greatest length it has had. Room is doubled from what
it is, several times at once where many components are added, and given back only where it has
grown far; and yet at every time it is the least that doubling can reach for the greatest length
since the buffer was made or since room was given back. -/
namespace RangeIndex.BufferRoom

section Definitions

/-- What is done with a buffer. -/
inductive Change where
  | push (component : Component)
  | pop
  | append (other : Pattern)
  /-- Append the buffer's own components. -/
  | appendOwn
  | setClosed (closed : Bool)
  | reset

/-- The buffer after a change. -/
def apply (buffer : PatternBuffer) : Change → PatternBuffer
  | .push component => buffer.push component
  | .pop => buffer.pop
  | .append other => buffer.append other.components
  | .appendOwn => buffer.append buffer.pattern.components
  | .setClosed closed => buffer.setClosed closed
  | .reset => buffer.reset

/-- The most room that is kept when a buffer is emptied. -/
def keptRoom : Nat := PatternBuffer.initialRoom * PatternBuffer.excessFactor

/-- Whether a change gives room back. -/
def givesBack (buffer : PatternBuffer) : Change → Bool
  | .reset => decide (keptRoom < buffer.room)
  | _ => false

/-- A buffer with the lengths it has had since it was made or since room was last given back. -/
structure Watched where
  buffer : PatternBuffer
  lengths : List Nat

namespace Watched

def new (closed : Bool) : Watched := ⟨.new closed, [0]⟩

/-- One change, with the length after it. -/
def step (watched : Watched) (change : Change) : Watched :=
  let next := apply watched.buffer change
  let before := if givesBack watched.buffer change then [] else watched.lengths
  ⟨next, before ++ [next.pattern.length]⟩

/-- A new buffer after changes. -/
def run (closed : Bool) (changes : List Change) : Watched := changes.foldl step (new closed)

/-- The greatest of the lengths. -/
def peak (watched : Watched) : Nat := watched.lengths.foldr max 0

end Watched

/-- The rooms that doubling can reach and that are enough for a length. -/
def Rooms (length : Nat) : Set Nat :=
  {room | length ≤ room ∧ ∃ k, room = PatternBuffer.initialRoom * 2 ^ k}

/-- The room is the least for the peak, and the length has not passed the peak. -/
structure Fits (watched : Watched) : Prop where
  room : IsLeast (Rooms watched.peak) watched.buffer.room
  length : watched.buffer.pattern.length ≤ watched.peak

end Definitions

section Growth
variable {needed length room k : Nat}

/-- Doubling stops at the least room that is enough, when less than where it starts is not: what is
enough is another double, and so at least the next one. -/
theorem doubled_least (start : room = PatternBuffer.initialRoom * 2 ^ k)
    (below : ∀ enough ∈ Rooms needed, room ≤ enough) :
    IsLeast (Rooms needed) (PatternBuffer.doubled needed room) := by
  fun_induction PatternBuffer.doubled needed room generalizing k with
  | case1 room stops =>
    have positive : 0 < PatternBuffer.initialRoom * 2 ^ k :=
      Nat.mul_pos (by decide) (Nat.two_pow_pos k)
    exact ⟨⟨by omega, k, start⟩, below⟩
  | case2 room goesOn ih =>
    have twice : 2 * room = PatternBuffer.initialRoom * 2 ^ (k + 1) := by
      rw [start, pow_succ, Nat.mul_left_comm, Nat.mul_comm 2]
    refine ih twice ?_
    rintro enough ⟨holds, j, rfl⟩
    have less : PatternBuffer.initialRoom * 2 ^ k < PatternBuffer.initialRoom * 2 ^ j := by omega
    have steps : k < j := (Nat.pow_lt_pow_iff_right (by decide)).mp (Nat.lt_of_mul_lt_mul_left less)
    rw [twice]
    exact Nat.mul_le_mul_left _ (Nat.pow_le_pow_right (by decide) steps)

/-- The least room for a length grows to the least room for a greater one. -/
theorem grown_least (least : IsLeast (Rooms length) room) (needed : Nat) :
    IsLeast (Rooms (max length needed)) (PatternBuffer.roomFor needed room) := by
  obtain ⟨⟨holds, k, start⟩, below⟩ := least
  unfold PatternBuffer.roomFor
  split
  · rename_i enough
    refine ⟨⟨Nat.max_le.mpr ⟨holds, enough⟩, k, start⟩, ?_⟩
    rintro other ⟨more, j, rfl⟩
    exact below ⟨(Nat.le_max_left _ _).trans more, j, rfl⟩
  · rename_i short
    have peak : max length needed = needed := Nat.max_eq_right (by omega)
    have initial : PatternBuffer.initialRoom ≤ room := by
      rw [start]
      exact Nat.le_mul_of_pos_right _ (Nat.two_pow_pos k)
    rw [peak, Nat.max_eq_left initial]
    refine doubled_least start ?_
    rintro other ⟨more, j, rfl⟩
    exact below ⟨by omega, j, rfl⟩

end Growth

section Steps
variable {watched : Watched}

theorem peak_concat (buffer : PatternBuffer) (lengths : List Nat) (length : Nat) :
    Watched.peak ⟨buffer, lengths ++ [length]⟩ = max (lengths.foldr max 0) length := by
  unfold Watched.peak
  induction lengths with
  | nil => simp
  | cons first rest ih =>
    dsimp only at ih ⊢
    rw [List.cons_append, List.foldr_cons, ih, List.foldr_cons, Nat.max_assoc]

theorem new_fits (closed : Bool) : Fits (.new closed) := by
  constructor
  case room =>
    refine ⟨⟨Nat.zero_le _, 0, rfl⟩, ?_⟩
    rintro other ⟨_, j, rfl⟩
    exact Nat.le_mul_of_pos_right _ (Nat.two_pow_pos j)
  case length => exact Nat.le_refl 0

/-- Adding components makes room for them. -/
theorem append_fits (fits : Fits watched) (components : List Component) :
    let next := watched.buffer.append components
    Fits ⟨next, watched.lengths ++ [next.pattern.length]⟩ := by
  intro next
  have length : next.pattern.length = watched.buffer.pattern.length + components.length := by
    simp [next, PatternBuffer.append, Pattern.length]
  have peak := peak_concat next watched.lengths next.pattern.length
  constructor
  case room =>
    rw [peak, length]
    exact grown_least fits.room _
  case length =>
    rw [peak]
    exact Nat.le_max_right _ _

/-- What adds nothing and leaves the room as it is leaves the peak as it is. -/
theorem kept_fits (fits : Fits watched) {next : PatternBuffer}
    (room : next.room = watched.buffer.room)
    (length : next.pattern.length ≤ watched.buffer.pattern.length) :
    Fits ⟨next, watched.lengths ++ [next.pattern.length]⟩ := by
  have below : next.pattern.length ≤ watched.peak := length.trans fits.length
  have peak : Watched.peak ⟨next, watched.lengths ++ [next.pattern.length]⟩ = watched.peak :=
    (peak_concat next watched.lengths _).trans (Nat.max_eq_left below)
  constructor
  case room =>
    rw [peak]
    show IsLeast (Rooms watched.peak) next.room
    rw [room]
    exact fits.room
  case length =>
    rw [peak]
    exact below

/-- Emptying a buffer that has grown far makes it like a new one. -/
theorem reset_givesBack {buffer : PatternBuffer} (far : keptRoom < buffer.room) :
    buffer.reset = .new buffer.pattern.closed := by
  simp only [keptRoom] at far
  simp [PatternBuffer.reset, PatternBuffer.new, far]

theorem reset_keeps {buffer : PatternBuffer} (near : ¬ keptRoom < buffer.room) :
    buffer.reset.room = buffer.room := by
  simp only [keptRoom] at near
  simp [PatternBuffer.reset, near]

/-- The room of an emptied buffer is bounded, whatever it was before. -/
theorem reset_bounded (buffer : PatternBuffer) : buffer.reset.room ≤ keptRoom := by
  by_cases far : keptRoom < buffer.room
  · rw [reset_givesBack far]
    show PatternBuffer.initialRoom ≤ keptRoom
    decide
  · rw [reset_keeps far]
    omega

/-- Every change keeps the room the least for the peak. -/
theorem step_fits (fits : Fits watched) (change : Change) : Fits (watched.step change) := by
  cases change with
  | push component => exact append_fits fits [component]
  | append other => exact append_fits fits other.components
  | appendOwn => exact append_fits fits watched.buffer.pattern.components
  | pop =>
    refine kept_fits fits rfl ?_
    simp [apply, PatternBuffer.pop, Pattern.pop, Pattern.length]
  | setClosed closed => exact kept_fits fits rfl (Nat.le_refl _)
  | reset =>
    by_cases far : keptRoom < watched.buffer.room
    · have fresh : watched.step .reset = .new watched.buffer.pattern.closed := by
        simp [Watched.step, Watched.new, apply, givesBack, far, reset_givesBack far,
          PatternBuffer.new, Pattern.length]
      rw [fresh]
      exact new_fits _
    · have kept : watched.step .reset =
          ⟨watched.buffer.reset, watched.lengths ++ [watched.buffer.reset.pattern.length]⟩ := by
        simp [Watched.step, apply, givesBack, far]
      rw [kept]
      exact kept_fits fits (reset_keeps far) (Nat.zero_le _)

/-- The room is the least for the peak after every run. -/
theorem run_fits (closed : Bool) (changes : List Change) : Fits (.run closed changes) := by
  induction changes using List.reverseRecOn with
  | nil => exact new_fits closed
  | append_singleton before last ih =>
    rw [Watched.run, List.foldl_append]
    exact step_fits ih last

/-- **Room follows the peak.** After any changes of a new buffer its room is the least that doubling
the initial room reaches for the greatest length since the buffer was made or since room was last
given back; the buffer holds no more than it has room for; and emptying it then leaves no more than
the room that is kept. -/
theorem room_follows_peak (closed : Bool) (changes : List Change) :
    let watched := Watched.run closed changes
    IsLeast (Rooms watched.peak) watched.buffer.room ∧
      watched.buffer.pattern.length ≤ watched.buffer.room ∧
      (Watched.run closed (changes ++ [.reset])).buffer.room ≤ keptRoom := by
  intro watched
  have fits : Fits watched := run_fits closed changes
  refine ⟨fits.room, fits.length.trans fits.room.1.1, ?_⟩
  rw [Watched.run, List.foldl_append]
  exact reset_bounded _

end Steps

section Sample

/-- Forty components fill a room of forty. One more doubles it, and that much is kept. -/
example : (Watched.run false (.replicate 40 (.push .gap))).buffer.room = 40 ∧
    (Watched.run false (.replicate 41 (.push .gap) ++ [.reset])).buffer.room = 80 := by
  cbv

end Sample

end RangeIndex.BufferRoom

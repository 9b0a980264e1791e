import RangeIndex.Markup.Bytes

/-! A place in a byte list. Moving never leaves the list, and what lies ahead is always the list
without the bytes already passed. -/
namespace RangeIndex.Markup

/-- A byte list and the number of bytes passed. -/
structure Cursor where
  input : List UInt8
  position : Nat
deriving DecidableEq, Repr

namespace Cursor

/-- At the start of a byte list. -/
def start (input : List UInt8) : Cursor := ⟨input, 0⟩

/-- The bytes ahead. -/
def rest (cursor : Cursor) : List UInt8 := cursor.input.drop cursor.position

def atEnd (cursor : Cursor) : Bool := decide (cursor.input.length ≤ cursor.position)

/-- At the given place, or at the end when it lies beyond. -/
def moveTo (cursor : Cursor) (position : Nat) : Cursor :=
  { cursor with position := min position cursor.input.length }

/-- Past so many bytes, or at the end. -/
def advance (cursor : Cursor) (count : Nat) : Cursor := cursor.moveTo (cursor.position + count)

/-- Where so many bytes are left ahead. -/
def withAhead (cursor : Cursor) (rest : List UInt8) : Cursor :=
  { cursor with position := cursor.input.length - rest.length }

/-- The byte so many places ahead. -/
def peek? (cursor : Cursor) (ahead : Nat) : Option UInt8 := cursor.rest[ahead]?

/-- Past the blanks ahead. -/
def skipBlanks (cursor : Cursor) : Cursor := cursor.withAhead (Markup.skipBlanks cursor.rest)

/-- The place of the next such byte. -/
def find? (cursor : Cursor) (b : UInt8) : Option Nat :=
  match breakAt b cursor.rest with
  | (_, []) => none
  | (before, _) => some (cursor.position + before.length)

/-- Whether the given bytes are next. -/
def startsWith (cursor : Cursor) (bytes : List UInt8) : Bool := bytes.isPrefixOf cursor.rest

/-- The bytes from one place to another, or to the end. -/
def slice (cursor : Cursor) (first last : Nat) : List UInt8 :=
  (cursor.input.take last).drop first

/-- A byte that is found lies ahead and within the list. -/
theorem find?_bounds {cursor : Cursor} {b : UInt8} {place : Nat}
    (found : cursor.find? b = some place) :
    cursor.position ≤ place ∧ place < cursor.input.length := by
  have parts : (breakAt b cursor.rest).1 ++ (breakAt b cursor.rest).2 = cursor.rest :=
    List.takeWhile_append_dropWhile
  unfold find? at found
  split at found
  · cases found
  · next before after more cut =>
    cases found
    have whole : before ++ after = cursor.rest := by rwa [cut] at parts
    have ahead : 0 < after.length := List.length_pos_iff.mpr more
    have length := congrArg List.length whole
    rw [List.length_append, rest, List.length_drop] at length
    omega

/-- The next place where a terminator stands, given by its first byte and the others. The search
goes from one such first byte to the next, and from one where the others do not follow it goes on
with the byte after it. -/
def search? (cursor : Cursor) (first : UInt8) (others : List UInt8) : Option Nat :=
  match found : cursor.find? first with
  | none => none
  | some place =>
    have := find?_bounds found
    if startsWith { cursor with position := place } (first :: others) then some place
    else search? { cursor with position := place + 1 } first others
termination_by cursor.input.length - cursor.position

/-- The bytes up to a terminator, and the cursor past it; all that is ahead, and the cursor at the
end, when the terminator is not found. Nothing is taken up to an empty one. -/
def takeUntil (cursor : Cursor) : List UInt8 → List UInt8 × Cursor
  | [] => ([], cursor)
  | first :: others =>
    match cursor.search? first others with
    | some place =>
      (cursor.slice cursor.position place,
        { cursor with position := place + (first :: others).length })
    | none => (cursor.rest, { cursor with position := cursor.input.length })

/-- The place of the next `>` outside quotes. -/
def tagEnd? (cursor : Cursor) : Option Nat :=
  (findTagEnd none cursor.rest).map fun rest => cursor.input.length - rest.length

/-- The name ahead, if there is one, and the cursor past it. -/
def takeName (cursor : Cursor) : Option (List UInt8) × Cursor :=
  match Markup.takeName cursor.rest with
  | none => (none, cursor)
  | some (name, rest) => (some name, cursor.withAhead rest)

end Cursor

end RangeIndex.Markup

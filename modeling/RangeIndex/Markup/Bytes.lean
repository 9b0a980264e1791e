/-! The byte classes of markup and the cuts its reader makes. Every cut returns what it took and
what follows, and what follows is never longer than what was given. -/
namespace RangeIndex.Markup

/-- The byte of a character of the first 128. -/
def byteOf (c : Char) : UInt8 := c.toNat.toUInt8

/-- The bytes of a text in the first 128 characters. -/
def bytesOf (text : String) : List UInt8 := text.toList.map byteOf

/-- Space, tab, line feed or carriage return. -/
def isBlankByte (b : UInt8) : Bool := b == 0x20 || b == 0x09 || b == 0x0A || b == 0x0D

/-- A Latin letter of either case. -/
def isLetterByte (b : UInt8) : Bool := (0x41 ≤ b && b ≤ 0x5A) || (0x61 ≤ b && b ≤ 0x7A)

/-- A byte that can start a name: a letter, an underscore, a colon, or any byte of a character
beyond the first 128. -/
def isNameStart (b : UInt8) : Bool := isLetterByte b || b == 0x5F || b == 0x3A || 0x80 ≤ b

/-- A byte that can go on a name: one that can start it, a digit, a hyphen or a point. -/
def isNameByte (b : UInt8) : Bool :=
  isNameStart b || (0x30 ≤ b && b ≤ 0x39) || b == 0x2D || b == 0x2E

/-- The bytes without the blanks in front. -/
def skipBlanks (bytes : List UInt8) : List UInt8 := bytes.dropWhile isBlankByte

/-- The name in front, when there is one, and the bytes after it. -/
def takeName : List UInt8 → Option (List UInt8 × List UInt8)
  | [] => none
  | b :: rest =>
    if isNameStart b then some (b :: rest.takeWhile isNameByte, rest.dropWhile isNameByte)
    else none

/-- The bytes before a given byte and those from it on; all and none when it does not occur. -/
def breakAt (b : UInt8) (bytes : List UInt8) : List UInt8 × List UInt8 :=
  (bytes.takeWhile (· != b), bytes.dropWhile (· != b))

/-- The bytes before the first occurrence of a terminator and those after it; all and none when
it does not occur. -/
def breakAfter (terminator : List UInt8) : List UInt8 → List UInt8 × List UInt8
  | [] => ([], [])
  | b :: rest =>
    if terminator.isPrefixOf (b :: rest) then ([], (b :: rest).drop terminator.length)
    else
      let later := breakAfter terminator rest
      (b :: later.1, later.2)

/-- The bytes from the first `>` outside quotes on. The quote that is open, if one is, ends only
at its own kind. -/
def findTagEnd : Option UInt8 → List UInt8 → Option (List UInt8)
  | _, [] => none
  | none, b :: rest =>
    if b = 0x3E then some (b :: rest)
    else findTagEnd (if b = 0x22 ∨ b = 0x27 then some b else none) rest
  | some quote, b :: rest => findTagEnd (if b = quote then none else some quote) rest

/-- The bytes after a tag end, or none of them when the tag does not end. -/
def skipTag (bytes : List UInt8) : List UInt8 :=
  match findTagEnd none bytes with
  | some (_ :: rest) => rest
  | _ => []

/-- The bytes after a declaration, which ends at the first `>` outside square brackets. -/
def skipDeclaration : Nat → List UInt8 → List UInt8
  | _, [] => []
  | depth, b :: rest =>
    if b = 0x5B then skipDeclaration (depth + 1) rest
    else if b = 0x5D then skipDeclaration (depth - 1) rest
    else if b = 0x3E ∧ depth = 0 then rest
    else skipDeclaration depth rest

theorem skipBlanks_length_le (bytes : List UInt8) : (skipBlanks bytes).length ≤ bytes.length :=
  (List.dropWhile_suffix _).length_le

theorem takeName_length_lt {bytes name rest : List UInt8}
    (found : takeName bytes = some (name, rest)) : rest.length < bytes.length := by
  cases bytes with
  | nil => simp [takeName] at found
  | cons b bytes =>
    simp only [takeName] at found
    split at found
    · cases found
      exact Nat.lt_succ_of_le (List.dropWhile_suffix _).length_le
    · cases found

theorem breakAt_length_le (b : UInt8) (bytes : List UInt8) :
    (breakAt b bytes).2.length ≤ bytes.length :=
  (List.dropWhile_suffix _).length_le

theorem breakAfter_length_le (terminator bytes : List UInt8) :
    (breakAfter terminator bytes).2.length ≤ bytes.length := by
  induction bytes with
  | nil => simp [breakAfter]
  | cons b rest ih =>
    simp only [breakAfter]
    split
    · simp
    · exact Nat.le_succ_of_le ih

theorem findTagEnd_length_le {quote : Option UInt8} {bytes rest : List UInt8}
    (found : findTagEnd quote bytes = some rest) : rest.length ≤ bytes.length := by
  induction bytes generalizing quote with
  | nil => simp [findTagEnd] at found
  | cons b bytes ih =>
    cases quote with
    | none =>
      simp only [findTagEnd] at found
      split at found
      · cases found; exact Nat.le_refl _
      · exact Nat.le_succ_of_le (ih found)
    | some quote => exact Nat.le_succ_of_le (ih found)

theorem skipTag_length_le (bytes : List UInt8) : (skipTag bytes).length ≤ bytes.length := by
  unfold skipTag
  split
  · next found => exact Nat.le_of_succ_le (findTagEnd_length_le found)
  · exact Nat.zero_le _

theorem skipDeclaration_length_le (depth : Nat) (bytes : List UInt8) :
    (skipDeclaration depth bytes).length ≤ bytes.length := by
  induction bytes generalizing depth with
  | nil => simp [skipDeclaration]
  | cons b rest ih =>
    simp only [skipDeclaration]
    split
    · exact Nat.le_succ_of_le (ih _)
    · split
      · exact Nat.le_succ_of_le (ih _)
      · split
        · exact Nat.le_succ _
        · exact Nat.le_succ_of_le (ih _)

end RangeIndex.Markup

import RangeIndex.Markup.Reference

/-! A document as a sequence of tags and texts. The reader accepts every byte list: comments,
instructions and declarations leave no event, and markup that is not well formed is read as text
or skipped. -/
namespace RangeIndex.Markup

open Text

/-- An attribute as written in a start tag, with its value decoded. -/
structure Attribute where
  name : String
  value : String
deriving DecidableEq, Repr

/-- What the reader reports. -/
inductive Event where
  /-- A start tag; a self-closing one has no end tag. -/
  | opened (name : String) (attributes : List Attribute) (selfClosing : Bool)
  /-- An end tag. -/
  | closed (name : String)
  /-- Character data, decoded unless it came from a section of plain characters. -/
  | characters (text : String)
deriving DecidableEq, Repr

/-- The text of undecoded bytes. -/
def plainText (bytes : List UInt8) : String := String.ofList (Utf8.decode bytes)

/-- The text of bytes with references. -/
def referenceText (bytes : List UInt8) : String := String.ofList (decodeText bytes)

/-- The value between quotes at the start, and the bytes after the closing quote. A value whose
quote is not closed goes to the end. -/
def takeQuoted : List UInt8 → Option (List UInt8 × List UInt8)
  | [] => none
  | quote :: rest =>
    if quote = 0x22 ∨ quote = 0x27 then
      let (value, later) := breakAt quote rest
      some (value, later.drop 1)
    else none

/-- The quoted value after an equals sign, unless either is missing, and the bytes where reading
goes on: after the value, or where it was missed. -/
def takeValue (bytes : List UInt8) : Option (List UInt8) × List UInt8 :=
  match skipBlanks bytes with
  | 0x3D :: rest =>
    match takeQuoted (skipBlanks rest) with
    | some (value, later) => (some value, later)
    | none => (none, skipBlanks rest)
  | rest => (none, rest)

/-- The attribute at the start, unless it has no value, and the bytes where reading goes on. -/
def takeAttribute (bytes : List UInt8) : Option Attribute × List UInt8 :=
  match takeName bytes with
  | none => (none, bytes)
  | some (name, rest) =>
    let (value, later) := takeValue rest
    (value.map fun value => ⟨plainText name, referenceText value⟩, later)

theorem takeQuoted_length_le {bytes value rest : List UInt8}
    (found : takeQuoted bytes = some (value, rest)) : rest.length ≤ bytes.length := by
  cases bytes with
  | nil => simp [takeQuoted] at found
  | cons quote bytes =>
    simp only [takeQuoted] at found
    split at found
    · have bound := breakAt_length_le quote bytes
      cases found
      simp only [List.length_drop, List.length_cons]
      omega
    · cases found

theorem takeValue_length_le (bytes : List UInt8) : (takeValue bytes).2.length ≤ bytes.length := by
  have skipped := skipBlanks_length_le bytes
  unfold takeValue
  split
  · next rest equals =>
    rw [equals] at skipped
    have inner := skipBlanks_length_le rest
    simp only [List.length_cons] at skipped
    split
    · next value =>
      have := takeQuoted_length_le value
      dsimp only
      omega
    · dsimp only
      omega
  · exact skipped

/-- Reading an attribute uses at least the first byte of its name. -/
theorem takeAttribute_length_lt {b : UInt8} (rest : List UInt8) (starts : isNameStart b = true) :
    (takeAttribute (b :: rest)).2.length < (b :: rest).length := by
  unfold takeAttribute
  split
  · next missing => simp [takeName, starts] at missing
  · next name later found =>
    exact Nat.lt_of_le_of_lt (takeValue_length_le later) (takeName_length_lt found)

/-- The attributes of a start tag from after its name, whether it closes itself, and the bytes
after it. Bytes that belong to no attribute are passed over, and a tag that does not end closes
itself. -/
def takeAttributes (bytes : List UInt8) : List Attribute × Bool × List UInt8 :=
  match blank : skipBlanks bytes with
  | [] => ([], true, [])
  | b :: rest =>
    have := blank ▸ skipBlanks_length_le bytes
    if b = 0x3E then ([], false, rest)
    else if b = 0x2F ∧ rest.head? = some 0x3E then ([], true, rest.drop 1)
    else if starts : isNameStart b then
      have := takeAttribute_length_lt rest starts
      let next := takeAttribute (b :: rest)
      let later := takeAttributes next.2
      (next.1.toList ++ later.1, later.2)
    else takeAttributes rest
termination_by bytes.length
decreasing_by all_goals simp only [List.length_cons] at *; omega

theorem takeAttributes_length_le (bytes : List UInt8) :
    (takeAttributes bytes).2.2.length ≤ bytes.length := by
  fun_induction takeAttributes bytes with
  | case1 => exact Nat.zero_le _
  | case2 bytes rest blank bound => exact Nat.le_of_succ_le bound
  | case3 bytes b rest blank bound =>
    simp only [List.length_cons, List.length_drop] at *
    omega
  | case4 bytes b rest blank bound _ _ starts shorter next later ih =>
    exact Nat.le_trans ih (Nat.le_trans (Nat.le_of_lt shorter) bound)
  | case5 bytes b rest blank bound _ _ _ ih => exact Nat.le_trans ih (Nat.le_of_succ_le bound)

/-- The event at a start tag, from the first byte of its name, and the bytes after the tag. -/
def takeStartTag (bytes : List UInt8) : List Event × List UInt8 :=
  match takeName bytes with
  | none => ([], bytes)
  | some (name, rest) =>
    let tag := takeAttributes rest
    ([.opened (plainText name) tag.1 tag.2.1], tag.2.2)

/-- The event at an end tag, from after its slash, and the bytes after the tag. A tag without a
name is skipped. -/
def takeEndTag (bytes : List UInt8) : List Event × List UInt8 :=
  match takeName (skipBlanks bytes) with
  | none => ([], skipTag (skipBlanks bytes))
  | some (name, rest) => ([.closed (plainText name)], skipTag rest)

/-- What a `<!` introduces: a comment, a section of plain characters, or a declaration. -/
def takeBang (bytes : List UInt8) : List Event × List UInt8 :=
  if (bytesOf "--").isPrefixOf bytes then ([], (breakAfter (bytesOf "-->") (bytes.drop 2)).2)
  else if (bytesOf "[CDATA[").isPrefixOf bytes then
    let (content, rest) := breakAfter (bytesOf "]]>") (bytes.drop 7)
    ([.characters (plainText content)], rest)
  else ([], skipDeclaration 0 bytes)

/-- The events after a `<` and the bytes where reading goes on. A `<` that introduces nothing is
a character. An instruction may end in the mark that begins it. -/
def takeMarkup (bytes : List UInt8) : List Event × List UInt8 :=
  match bytes with
  | 0x2F :: rest => takeEndTag rest
  | 0x21 :: rest => takeBang rest
  | 0x3F :: _ => ([], (breakAfter (bytesOf "?>") bytes).2)
  | b :: _ => if isNameStart b then takeStartTag bytes else ([.characters "<"], bytes)
  | [] => ([.characters "<"], [])

theorem takeStartTag_length_le (bytes : List UInt8) :
    (takeStartTag bytes).2.length ≤ bytes.length := by
  unfold takeStartTag
  split
  · exact Nat.le_refl _
  · next name rest found =>
    exact Nat.le_trans (takeAttributes_length_le rest) (Nat.le_of_lt (takeName_length_lt found))

theorem takeEndTag_length_le (bytes : List UInt8) :
    (takeEndTag bytes).2.length ≤ bytes.length := by
  have skipped := skipBlanks_length_le bytes
  unfold takeEndTag
  split
  · exact Nat.le_trans (skipTag_length_le _) skipped
  · next name rest found =>
    have := takeName_length_lt found
    have := skipTag_length_le rest
    dsimp only
    omega

theorem takeBang_length_le (bytes : List UInt8) : (takeBang bytes).2.length ≤ bytes.length := by
  unfold takeBang
  split
  · exact Nat.le_trans (breakAfter_length_le _ _) (by simp)
  · split
    · exact Nat.le_trans (breakAfter_length_le _ _) (by simp)
    · exact skipDeclaration_length_le 0 bytes

theorem takeMarkup_length_le (bytes : List UInt8) :
    (takeMarkup bytes).2.length ≤ bytes.length := by
  unfold takeMarkup
  split
  · exact Nat.le_succ_of_le (takeEndTag_length_le _)
  · exact Nat.le_succ_of_le (takeBang_length_le _)
  · exact breakAfter_length_le _ _
  · split
    · exact takeStartTag_length_le _
    · exact Nat.le_refl _
  · exact Nat.le_refl _

/-- The events of a document. -/
def events : List UInt8 → List Event
  | [] => []
  | b :: rest =>
    if b = 0x3C then
      have := takeMarkup_length_le rest
      let next := takeMarkup rest
      next.1 ++ events next.2
    else
      have := breakAt_length_le 0x3C rest
      let next := breakAt 0x3C rest
      .characters (referenceText (b :: next.1)) :: events next.2
termination_by bytes => bytes.length
decreasing_by all_goals simp only [List.length_cons]; omega

end RangeIndex.Markup

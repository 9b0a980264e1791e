import RangeIndex.Text.Ranges

/-! Two notions of blank are in use. Names, numerals and query text follow the Unicode property
White_Space; stored text and markup know only the four blanks of a marked-up document. -/
namespace RangeIndex.Text

/-- Code points with the property White_Space. -/
def blankRanges : Ranges where
  list :=
    [(9, 13), (32, 32), (133, 133), (160, 160), (5760, 5760), (8192, 8202), (8232, 8233),
     (8239, 8239), (8287, 8287), (12288, 12288)]
  ascending := by decide +kernel

/-- A blank of query text, names and numerals. -/
def isBlank (c : Char) : Bool := blankRanges.contains c.toNat

/-- A blank of stored text: space, tab, line feed or carriage return. -/
def isMarkupBlank (c : Char) : Bool := c == ' ' || c == '\t' || c == '\n' || c == '\r'

/-- The text without the characters of a class at either end. -/
def trimBy (belongs : Char → Bool) (text : List Char) : List Char :=
  ((text.dropWhile belongs).reverse.dropWhile belongs).reverse

/-- The text without blanks at either end. -/
def trim (text : List Char) : List Char := trimBy isBlank text

/-- The text without blanks at either end. -/
def trimmed (text : String) : String := String.ofList (trim text.toList)

/-- Where a class is left out in front, something else is first. -/
theorem head_dropWhile {belongs : Char → Bool} {text : List Char} {c : Char}
    (front : (text.dropWhile belongs).head? = some c) : belongs c = false := by
  have first := List.head?_dropWhile_not belongs text
  rwa [front] at first

/-- A text trimmed at both ends is the front of the text trimmed only in front. -/
theorem trimBy_in_front (belongs : Char → Bool) (text : List Char) :
    trimBy belongs text <+: text.dropWhile belongs := by
  obtain ⟨cut, same⟩ := List.dropWhile_suffix (l := (text.dropWhile belongs).reverse) belongs
  refine ⟨cut.reverse, ?_⟩
  rw [trimBy, ← List.reverse_append, same, List.reverse_reverse]

theorem mem_of_mem_trimBy {belongs : Char → Bool} {text : List Char} {c : Char}
    (member : c ∈ trimBy belongs text) : c ∈ text :=
  (List.dropWhile_sublist belongs).subset ((trimBy_in_front belongs text).sublist.subset member)

/-- There is nothing to trim where neither end is of the class. -/
theorem trimBy_of_ends {belongs : Char → Bool} {text : List Char}
    (front : ∀ c, text.head? = some c → belongs c = false)
    (back : ∀ c, text.getLast? = some c → belongs c = false) : trimBy belongs text = text := by
  have stays : ∀ list : List Char, (∀ c, list.head? = some c → belongs c = false) →
      list.dropWhile belongs = list := by
    intro list outside
    cases list with
    | nil => rfl
    | cons c rest => simp [outside c rfl]
  rw [trimBy, stays text front, stays, List.reverse_reverse]
  simpa only [List.head?_reverse] using back

/-- Neither end of what is trimmed is of the class. -/
theorem head_trimBy {belongs : Char → Bool} {text : List Char} {c : Char}
    (front : (trimBy belongs text).head? = some c) : belongs c = false := by
  obtain ⟨cut, same⟩ := trimBy_in_front belongs text
  refine @head_dropWhile _ text _ ?_
  rw [← same, List.head?_append, front]
  rfl

theorem last_trimBy {belongs : Char → Bool} {text : List Char} {c : Char}
    (back : (trimBy belongs text).getLast? = some c) : belongs c = false := by
  rw [trimBy, List.getLast?_reverse] at back
  exact head_dropWhile back

/-- What is trimmed has nothing left to trim. -/
theorem trimBy_trimBy (belongs : Char → Bool) (text : List Char) :
    trimBy belongs (trimBy belongs text) = trimBy belongs text :=
  trimBy_of_ends (fun _ => head_trimBy) fun _ => last_trimBy

end RangeIndex.Text

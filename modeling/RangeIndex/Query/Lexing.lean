import RangeIndex.Number.Decimal
import RangeIndex.Query.Token

/-! Cutting query text into tokens. Each step skips blanks and comments and takes the longest
token in front; what follows a token is shorter than what it was taken from, so the steps come to
an end. -/
namespace RangeIndex.Query

open Text

/-- A character a name can start with. -/
def isNameStart (c : Char) : Bool := isAlphabetic c || c == '_'

/-- A character a name can go on with. -/
def isNameChar (c : Char) : Bool := isAlphanumeric c || c == '_' || c == '-' || c == '.'

/-- The tokens written with signs; a sign that begins another comes after it. -/
def signs : List (List Char × Token) :=
  [(['/', '/'], .doubleSlash), (['.', '.'], .doubleDot), (['!', '='], .notEq),
   (['<', '='], .ltEq), (['>', '='], .gtEq), (['/'], .slash), (['.'], .dot), (['@'], .atSign),
   (['|'], .pipe), (['+'], .plus), (['-'], .minus), (['*'], .star), (['='], .eq), (['<'], .lt),
   (['>'], .gt), (['('], .leftParen), ([')'], .rightParen), (['['], .leftBracket),
   ([']'], .rightBracket), ([','], .comma), (['$'], .dollar)]

/-- The words that are operators. -/
def operatorWords : List (String × Token) :=
  [("and", .and), ("or", .or), ("mod", .mod), ("div", .div)]

/-- A fault with the text from its place on. -/
structure LexicalError where
  fault : LexicalFault
  rest : List Char
deriving DecidableEq, Repr

/-- The text after the first end of a comment. -/
def afterComment : List Char → Option (List Char)
  | [] => none
  | c :: rest =>
    if c = ':' ∧ rest.head? = some ')' then some (rest.drop 1) else afterComment rest

theorem afterComment_length_lt {text rest : List Char}
    (found : afterComment text = some rest) : rest.length < text.length := by
  induction text with
  | nil => simp [afterComment] at found
  | cons c text ih =>
    simp only [afterComment] at found
    split at found
    · cases found
      simp only [List.length_drop, List.length_cons]
      omega
    · exact Nat.lt_succ_of_lt (ih found)

/-- The text without the blanks in front. -/
def dropBlanks (text : List Char) : List Char := text.dropWhile isBlank

theorem dropBlanks_length_le (text : List Char) : (dropBlanks text).length ≤ text.length :=
  (List.dropWhile_suffix _).length_le

/-- The text without the blanks and comments in front. The colon that opens a comment may also
be the one that closes it. -/
def skipTrivia (text : List Char) : Except LexicalError (List Char) :=
  match front : dropBlanks text with
  | '(' :: ':' :: rest =>
    have bound := front ▸ dropBlanks_length_le text
    match found : afterComment (':' :: rest) with
    | some later =>
      have := Nat.lt_of_lt_of_le (afterComment_length_lt found) (Nat.le_of_succ_le bound)
      skipTrivia later
    | none => .error ⟨.unterminatedComment, '(' :: ':' :: rest⟩
  | text => .ok text
termination_by text.length

theorem skipTrivia_length_le {text rest : List Char} (skipped : skipTrivia text = .ok rest) :
    rest.length ≤ text.length := by
  fun_induction skipTrivia text with
  | case1 text _ _ _ later _ shorter ih => exact Nat.le_trans (ih skipped) (Nat.le_of_lt shorter)
  | case2 => cases skipped
  | case3 text =>
    cases skipped
    exact dropBlanks_length_le text

/-- Whether a number is in front: a digit, or a point with a digit after it. -/
def startsNumber : List Char → Bool
  | c :: rest => isDigit c || (c == '.' && rest.head?.any isDigit)
  | [] => false

/-- The fraction in front, a point and at least one digit, without the point. -/
def takeFraction : List Char → List Char × List Char
  | '.' :: rest =>
    if rest.head?.any isDigit then Number.splitDigits rest else ([], '.' :: rest)
  | text => ([], text)

/-- The number in front. -/
def takeNumber (text : List Char) : Token × List Char :=
  let (whole, rest) := Number.splitDigits text
  let (fraction, rest) := takeFraction rest
  (.number (Number.ofDigits false whole fraction 0), rest)

/-- The string up to the next single quote of its kind, and the text after that. A quote written
twice is one quote of the string. -/
def takeLiteral (quote : Char) : List Char → Option (List Char × List Char)
  | [] => none
  | c :: rest =>
    if c = quote then
      match rest with
      | d :: later =>
        if d = quote then (takeLiteral quote later).map fun (value, rest) => (quote :: value, rest)
        else some ([], d :: later)
      | [] => some ([], [])
    else (takeLiteral quote rest).map fun (value, rest) => (c :: value, rest)

/-- The token of the sign in front. -/
def takeSign (text : List Char) : Option (Token × List Char) :=
  (signs.find? fun sign => sign.1.isPrefixOf text).map fun sign =>
    (sign.2, text.drop sign.1.length)

/-- The token that begins with a name: an operator word, an axis, a name with or without a
label, or all names of a label. -/
def takeWord (text : List Char) : Except LexicalError (Token × List Char) :=
  let name := String.ofList (text.takeWhile isNameChar)
  let rest := text.dropWhile isNameChar
  match operatorWords.lookup name, rest with
  | some token, rest => .ok (token, rest)
  | none, ':' :: ':' :: later => .ok (.axis name, later)
  | none, ':' :: '*' :: later => .ok (.labelWildcard name, later)
  | none, ':' :: later =>
    if later.head?.any isNameStart then
      let localPart := String.ofList (later.takeWhile isNameChar)
      .ok (.name (name ++ ":" ++ localPart), later.dropWhile isNameChar)
    else .error ⟨.incompleteName name, ':' :: later⟩
  | none, rest => .ok (.name name, rest)

/-- The token in front of a text that starts with neither blank nor comment; none at the end. -/
def takeToken (text : List Char) : Except LexicalError (Option (Token × List Char)) :=
  match text with
  | [] => .ok none
  | c :: rest =>
    if startsNumber text then .ok (some (takeNumber text))
    else if c = '"' ∨ c = '\'' then
      match takeLiteral c rest with
      | some (value, later) => .ok (some (.string (String.ofList value), later))
      | none => .error ⟨.unterminatedString, text⟩
    else match takeSign text with
      | some found => .ok (some found)
      | none =>
        if isNameStart c then (takeWord text).map some
        else .error ⟨.unexpectedCharacter c, text⟩

theorem takeFraction_length_le (text : List Char) :
    (takeFraction text).2.length ≤ text.length := by
  unfold takeFraction
  split
  · split
    · exact Nat.le_succ_of_le (List.dropWhile_suffix _).length_le
    · exact Nat.le_refl _
  · exact Nat.le_refl _

theorem takeNumber_length_lt {text : List Char} (starts : startsNumber text = true) :
    (takeNumber text).2.length < text.length := by
  cases text with
  | nil => simp [startsNumber] at starts
  | cons c rest =>
    by_cases digit : isDigit c = true
    · have front : (c :: rest).dropWhile isDigit = rest.dropWhile isDigit := by
        simp [digit]
      have bound := takeFraction_length_le (rest.dropWhile isDigit)
      have inner : (rest.dropWhile isDigit).length ≤ rest.length :=
        (List.dropWhile_suffix _).length_le
      simp only [takeNumber, Number.splitDigits, front, List.length_cons]
      omega
    · have front : (c :: rest).dropWhile isDigit = c :: rest := by simp [digit]
      simp only [startsNumber, digit, Bool.false_or, Bool.and_eq_true, beq_iff_eq] at starts
      obtain ⟨point, more⟩ := starts
      subst point
      have inner : (rest.dropWhile isDigit).length ≤ rest.length :=
        (List.dropWhile_suffix _).length_le
      simp only [takeNumber, Number.splitDigits, front, takeFraction, more, if_true,
        List.length_cons]
      omega

theorem takeLiteral_length_lt {quote : Char} {text value rest : List Char}
    (found : takeLiteral quote text = some (value, rest)) : rest.length < text.length := by
  fun_induction takeLiteral quote text generalizing value with
  | case1 => cases found
  | case2 later ih =>
    obtain ⟨inner, taken, same⟩ := Option.map_eq_some_iff.mp found
    cases same
    have := ih taken
    simp only [List.length_cons]
    omega
  | case3 => cases found; simp
  | case4 => cases found; simp
  | case5 c rest' _ ih =>
    obtain ⟨inner, taken, same⟩ := Option.map_eq_some_iff.mp found
    cases same
    have := ih taken
    simp only [List.length_cons]
    omega

theorem signs_nonempty : ∀ sign ∈ signs, 0 < sign.1.length := by decide

theorem takeSign_length_lt {text rest : List Char} {token : Token}
    (found : takeSign text = some (token, rest)) : rest.length < text.length := by
  obtain ⟨sign, first, same⟩ := Option.map_eq_some_iff.mp found
  cases same
  have matched : sign.1.isPrefixOf text = true := by simpa using List.find?_some first
  have fits := (List.isPrefixOf_iff_prefix.mp matched).length_le
  have positive := signs_nonempty sign (List.mem_of_find?_eq_some first)
  simp only [List.length_drop]
  omega

theorem takeWord_length_lt {c : Char} {text rest : List Char} {token : Token}
    (starts : isNameChar c = true) (found : takeWord (c :: text) = .ok (token, rest)) :
    rest.length < (c :: text).length := by
  have front : (c :: text).dropWhile isNameChar = text.dropWhile isNameChar := by simp [starts]
  have bound : (text.dropWhile isNameChar).length ≤ text.length :=
    (List.dropWhile_suffix _).length_le
  simp only [takeWord, front] at found
  generalize text.dropWhile isNameChar = after at found bound
  simp only [List.length_cons]
  split at found
  · cases found; omega
  · cases found; simp only [List.length_cons] at bound; omega
  · cases found; simp only [List.length_cons] at bound; omega
  · split at found
    · cases found
      have inner (more : List Char) : (more.dropWhile isNameChar).length ≤ more.length :=
        (List.dropWhile_suffix _).length_le
      refine Nat.lt_of_le_of_lt (inner _) ?_
      simp only [List.length_cons] at bound
      omega
    · cases found
  · cases found; omega

theorem isNameChar_of_isNameStart {c : Char} (starts : isNameStart c = true) :
    isNameChar c = true := by
  simp only [isNameStart, Bool.or_eq_true] at starts
  rcases starts with letter | underscore
  · simp [isNameChar, isAlphanumeric, letter]
  · simp [isNameChar, underscore]

/-- Taking a token leaves less text. -/
theorem takeToken_length_lt {text rest : List Char} {token : Token}
    (found : takeToken text = .ok (some (token, rest))) : rest.length < text.length := by
  unfold takeToken at found
  split at found
  · cases found
  · next c after =>
    split at found
    · next starts =>
      have shorter := takeNumber_length_lt starts
      injection found with found
      injection found with found
      rw [found] at shorter
      exact shorter
    · split at found
      · split at found
        · next taken =>
          cases found
          exact Nat.lt_succ_of_lt (takeLiteral_length_lt taken)
        · cases found
      · split at found
        · next taken =>
          cases found
          exact takeSign_length_lt taken
        · split at found
          · next starts =>
            cases word : takeWord (c :: after) with
            | error e => rw [word] at found; cases found
            | ok result =>
              rw [word] at found
              cases found
              exact takeWord_length_lt (isNameChar_of_isNameStart starts) word
          · cases found

/-- The tokens of a text. -/
def lex (text : List Char) : Except LexicalError (List Token) :=
  match skipped : skipTrivia text with
  | .error error => .error error
  | .ok front =>
    have bound := skipTrivia_length_le skipped
    match taken : takeToken front with
    | .error error => .error error
    | .ok none => .ok []
    | .ok (some (token, rest)) =>
      have := Nat.lt_of_lt_of_le (takeToken_length_lt taken) bound
      (lex rest).map (token :: ·)
termination_by text.length

/-- The number of bytes of a text. -/
def byteLength (text : List Char) : Nat := text.foldl (fun bytes c => bytes + c.utf8Size) 0

/-- The tokens of a query. A fault is reported at its distance from the start. -/
def tokenize (query : String) : Except QueryError (List Token) :=
  match lex query.toList with
  | .ok tokens => .ok tokens
  | .error error =>
    .error (.lexical error.fault (byteLength query.toList - byteLength error.rest))

end RangeIndex.Query

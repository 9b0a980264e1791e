import RangeIndex.Proofs.NumeralText
import RangeIndex.Proofs.TokenSpelling
import RangeIndex.Query.Printing

/-! A text is cut where it should be. Every token is cut off in front of any rest that cannot make it
longer, and a text that spells some tokens does so in front of every rest that closes it. -/
namespace RangeIndex.TokenText
open Text Query TokenSpelling NumeralText

section Cutting
variable {c : Char} {text rest : List Char} {token : Token} {more : List Token}

theorem skip_equation (text : List Char) : skipTrivia text =
    match dropBlanks text with
    | '(' :: ':' :: rest =>
      match afterComment (':' :: rest) with
      | some later => skipTrivia later
      | none => .error ⟨.unterminatedComment, '(' :: ':' :: rest⟩
    | front => .ok front := by
  rw [skipTrivia]
  split
  · next front =>
    dsimp only
    split
    · next found => simp only [front, found]
    · next missing => simp only [front, missing]
  · next other =>
    split
    · next front => exact absurd front (other _)
    · rfl

theorem lex_equation (text : List Char) : lex text =
    match skipTrivia text with
    | .error error => .error error
    | .ok front =>
      match takeToken front with
      | .error error => .error error
      | .ok none => .ok []
      | .ok (some (token, rest)) => (lex rest).map (token :: ·) := by
  rw [lex]
  split
  · next skipped => rw [skipped]
  · next skipped =>
    dsimp only
    split
    · next taken => simp only [skipped, taken]
    · next taken => simp only [skipped, taken]
    · next taken => simp only [skipped, taken]

/-- The tokens of a query are those of its characters. -/
theorem tokenize_ok_iff {query : String} {tokens : List Token} :
    tokenize query = .ok tokens ↔ lex query.toList = .ok tokens := by
  unfold tokenize
  split
  · next cut => rw [cut, Except.ok.injEq, Except.ok.injEq]
  · next faulty => simp [faulty]

theorem lex_end : lex [] = .ok [] := by
  rw [lex_equation, skip_equation]
  rfl

theorem lex_blank (blank : isBlank c = true) : lex (c :: text) = lex text := by
  have front : dropBlanks (c :: text) = dropBlanks text := by simp [dropBlanks, blank]
  rw [lex_equation, skip_equation, front, ← skip_equation, ← lex_equation]

/-- A token in front is the first one of the text, and the others are those of what is left. -/
theorem lex_of_take (visible : isBlank c = false) (plain : c = '(' → text.head? ≠ some ':')
    (taken : takeToken (c :: text) = .ok (some (token, rest))) :
    lex (c :: text) = (lex rest).map (token :: ·) := by
  have front : dropBlanks (c :: text) = c :: text := by simp [dropBlanks, visible]
  have skipped : skipTrivia (c :: text) = .ok (c :: text) := by
    rw [skip_equation, front]
    split
    · next same =>
      cases same
      exact absurd rfl (plain rfl)
    · rfl
  rw [lex_equation, skipped]
  dsimp only
  rw [taken]

/-- No token begins with a colon, so what can be cut does not make a comment of a parenthesis. -/
theorem colon_begins_nothing : lex (':' :: rest) ≠ .ok more := by
  have front : dropBlanks (':' :: rest) = ':' :: rest := by
    simp [dropBlanks, show isBlank ':' = false by decide]
  rw [lex_equation, skip_equation, front]
  nofun

end Cutting

section Characters

theorem letter_bound {c : Char} (letter : isAlphabetic c = true) : 65 ≤ c.toNat := by
  have above : ∀ range ∈ alphabeticRanges.list, 65 ≤ range.1 := by decide +kernel
  obtain ⟨range, member, started, _⟩ := (alphabeticRanges.contains_iff _).mp letter
  exact Nat.le_trans (above range member) started

/-- A table of characters without any blank in its ranges has no blank. -/
theorem blank_left_out {ranges : Ranges} {c : Char}
    (apart : ∀ range ∈ blankRanges.list, ∀ offset < range.2 + 1 - range.1,
      ranges.contains (range.1 + offset) = false)
    (blank : isBlank c = true) : ranges.contains c.toNat = false := by
  obtain ⟨range, member, started, reached⟩ := (blankRanges.contains_iff _).mp blank
  have among := apart range member (c.toNat - range.1) (by omega)
  rwa [Nat.add_sub_cancel' started] at among

theorem blank_no_letter {c : Char} (blank : isBlank c = true) : isAlphabetic c = false :=
  blank_left_out (by decide +kernel) blank

theorem blank_no_numeral {c : Char} (blank : isBlank c = true) :
    numberRanges.contains c.toNat = false :=
  blank_left_out (by decide +kernel) blank

theorem digit_visible {c : Char} (digit : isDigit c = true) : isBlank c = false := by
  refine Bool.eq_false_iff.mpr fun blank => ?_
  simp only [isDigit, Bool.and_eq_true, decide_eq_true_eq] at digit
  have low : 48 ≤ c.toNat := digit.1
  have high : c.toNat ≤ 57 := digit.2
  have apart : ∀ range ∈ blankRanges.list, range.2 < 48 ∨ 57 < range.1 := by decide
  obtain ⟨range, member, started, reached⟩ := (blankRanges.contains_iff _).mp blank
  have := apart range member
  omega

theorem start_visible {c : Char} (starts : isNameStart c = true) : isBlank c = false := by
  refine Bool.eq_false_iff.mpr fun blank => ?_
  simp only [isNameStart, blank_no_letter blank, Bool.false_or, beq_iff_eq] at starts
  subst starts
  exact absurd blank (by decide)

theorem start_no_digit {c : Char} (starts : isNameStart c = true) : isDigit c = false := by
  refine Bool.eq_false_iff.mpr fun digit => ?_
  simp only [isDigit, Bool.and_eq_true, decide_eq_true_eq] at digit
  have bound : c.toNat ≤ 57 := digit.2
  simp only [isNameStart, Bool.or_eq_true, beq_iff_eq] at starts
  rcases starts with letter | rfl
  · have := letter_bound letter
    omega
  · exact absurd bound (by decide)

theorem sign_first {c : Char} {text rest : List Char} {token : Token}
    (taken : takeSign (c :: text) = some (token, rest)) :
    ∃ sign ∈ signs, sign.1.head? = some c := by
  obtain ⟨sign, found, _⟩ := Option.map_eq_some_iff.mp taken
  have member := List.mem_of_find?_eq_some found
  have front : sign.1.isPrefixOf (c :: text) = true := by simpa using List.find?_some found
  refine ⟨sign, member, ?_⟩
  have nonempty := signs_nonempty sign member
  cases lexeme : sign.1 with
  | nil => simp [lexeme] at nonempty
  | cons d later =>
    rw [lexeme] at front
    simp only [List.isPrefixOf, Bool.and_eq_true, beq_iff_eq] at front
    rw [front.1, List.head?_cons]

theorem start_no_sign {c : Char} {rest : List Char} (starts : isNameStart c = true) :
    takeSign (c :: rest) = none := by
  have others : ∀ sign ∈ signs, sign.1.head?.any isNameStart = false := by decide
  cases taken : takeSign (c :: rest) with
  | none => rfl
  | some found =>
    obtain ⟨sign, member, first⟩ := sign_first taken
    have other := others sign member
    rw [first, Option.any_some, starts] at other
    cases other

/-- No token is taken at a blank. -/
theorem taken_visible {c : Char} {text rest : List Char} {token : Token}
    (taken : takeToken (c :: text) = .ok (some (token, rest))) : isBlank c = false := by
  have visible : ∀ sign ∈ signs, sign.1.head?.any isBlank = false := by decide
  have form := token_form (c :: text)
  rw [taken] at form
  cases form with
  | number number =>
    simp only [startsNumber, Bool.or_eq_true, Bool.and_eq_true, beq_iff_eq] at number
    rcases number with digit | ⟨rfl, _⟩
    · exact digit_visible digit
    · decide
  | literal _ quote => rcases quote with rfl | rfl <;> decide
  | sign _ _ found =>
    obtain ⟨sign, member, first⟩ := sign_first found
    have own := visible sign member
    rwa [first, Option.any_some] at own
  | word starts => exact start_visible starts

/-- A token in front of a text that can be cut is its own. -/
theorem cut_token {text rest : List Char} {token : Token} {more : List Token}
    (taken : takeToken text = .ok (some (token, rest))) (cut : lex rest = .ok more) :
    lex text = .ok (token :: more) := by
  cases text with
  | nil => cases taken
  | cons c text =>
    have plain : c = '(' → text.head? ≠ some ':' := by
      rintro rfl colon
      obtain ⟨later, rfl⟩ := List.head?_eq_some_iff.mp colon
      cases taken
      exact colon_begins_nothing cut
    rw [lex_of_take (taken_visible taken) plain taken, cut]
    rfl

end Characters

section Words
variable {word label rest : List Char}

theorem take_word (is : IsWord word) :
    takeToken (word ++ rest) = (takeWord (word ++ rest)).map some := by
  cases word with
  | nil => exact absurd is.starts (by simp)
  | cons c word =>
    have starts : isNameStart c = true := by simpa using is.starts
    have other (d : Char) (differs : isNameStart d = false) : c ≠ d := by
      rintro rfl
      rw [starts] at differs
      cases differs
    have point := other '.' (by decide)
    have quotes : ¬(c = '"' ∨ c = '\'') :=
      not_or.mpr ⟨other _ (by decide), other _ (by decide)⟩
    rw [List.cons_append, takeToken]
    simp [startsNumber, start_no_digit starts, point, quotes, start_no_sign starts, starts]

/-- What may follow a word. -/
def EndsWord (rest : List Char) : Prop := ∀ c, rest.head? = some c → isNameChar c = false

theorem take_word_front (is : IsWord word) (ends : EndsWord rest) :
    (word ++ rest).takeWhile isNameChar = word ∧ (word ++ rest).dropWhile isNameChar = rest :=
  ⟨takeWhile_run is.inside ends, dropWhile_run is.inside ends⟩

theorem colon_ends_word (later : List Char) : EndsWord (':' :: later) := by
  rintro _ ⟨⟩
  decide

theorem take_plain (is : IsPlain word) (ends : EndsWord rest) (colon : rest.head? ≠ some ':') :
    takeToken (word ++ rest) = .ok (some (.name (String.ofList word), rest)) := by
  obtain ⟨front, after⟩ := take_word_front is.toIsWord ends
  rw [take_word is.toIsWord, takeWord, front, after, is.free]
  cases rest with
  | nil => rfl
  | cons c rest =>
    have other : c ≠ ':' := fun same => colon (by rw [same]; rfl)
    split
    · next same => cases same
    · next same => cases same; exact absurd rfl other
    · next same => cases same; exact absurd rfl other
    · next same => cases same; exact absurd rfl other
    · rfl

theorem take_axis (is : IsPlain word) :
    takeToken (word ++ ':' :: ':' :: rest) = .ok (some (.axis (String.ofList word), rest)) := by
  obtain ⟨front, after⟩ := take_word_front is.toIsWord (colon_ends_word (':' :: rest))
  rw [take_word is.toIsWord, takeWord, front, after, is.free]
  rfl

theorem take_wildcard (is : IsPlain label) :
    takeToken (label ++ ':' :: '*' :: rest) =
      .ok (some (.labelWildcard (String.ofList label), rest)) := by
  obtain ⟨front, after⟩ := take_word_front is.toIsWord (colon_ends_word ('*' :: rest))
  rw [take_word is.toIsWord, takeWord, front, after, is.free]
  rfl

theorem take_labelled (before : IsPlain label) (is : IsWord word) (ends : EndsWord rest) :
    takeToken (label ++ ':' :: (word ++ rest)) =
      .ok (some (.name (String.ofList label ++ ":" ++ String.ofList word), rest)) := by
  obtain ⟨front, after⟩ := take_word_front before.toIsWord (colon_ends_word (word ++ rest))
  obtain ⟨own, left⟩ := take_word_front is ends
  cases word with
  | nil => exact absurd is.starts (by simp)
  | cons c word =>
    have starts : isNameStart c = true := by simpa using is.starts
    rw [take_word before.toIsWord, takeWord, front, after, before.free]
    rw [List.cons_append] at own left ⊢
    split
    · next same => cases same
    · next same => cases same; exact absurd starts (by decide)
    · next same => cases same; exact absurd starts (by decide)
    · next same =>
      cases same
      rw [if_pos (by simpa using starts), own, left]
      rfl
    · next other => exact absurd rfl (other _)

theorem take_name {written : String} (is : IsName written) (ends : EndsWord rest)
    (colon : rest.head? ≠ some ':') :
    takeToken (written.toList ++ rest) = .ok (some (.name written, rest)) := by
  cases is with
  | plain is =>
    rw [String.toList_ofList]
    exact take_plain is ends colon
  | labelled before after => simpa using take_labelled before after ends

theorem take_operator_word {token : Token} (is : IsWord word) (ends : EndsWord rest)
    (operator : operatorWords.lookup (String.ofList word) = some token) :
    takeToken (word ++ rest) = .ok (some (token, rest)) := by
  obtain ⟨front, after⟩ := take_word_front is ends
  rw [take_word is, takeWord, front, after, operator]
  rfl

end Words

section Values
variable {rest : List Char}

/-- The text between the quotes of a literal is the value with every quote written twice. -/
theorem take_doubled (value : List Char) (ends : rest.head? ≠ some '"') :
    takeLiteral '"' (value.flatMap (fun c => if c = '"' then ['"', '"'] else [c]) ++ '"' :: rest) =
      some (value, rest) := by
  induction value with
  | nil =>
    cases rest with
    | nil => rfl
    | cons c rest =>
      have other : c ≠ '"' := fun same => ends (by rw [same]; rfl)
      simp [takeLiteral, other]
  | cons c value ih =>
    by_cases quote : c = '"'
    · simp [takeLiteral, quote, ih]
    · rw [List.flatMap_cons, if_neg quote, List.append_assoc, List.singleton_append,
        takeLiteral.eq_def]
      simp [quote, ih]

theorem take_literal (value : String) (ends : rest.head? ≠ some '"') :
    takeToken ((literal value).toList ++ rest) = .ok (some (.string value, rest)) := by
  have inner := take_doubled value.toList ends
  simp only [literal, String.toList_ofList, List.cons_append, List.append_assoc, List.nil_append]
  simp [takeToken, startsNumber, show isDigit '"' = false by decide, inner]

theorem take_number {x : Number.Finite} (plus : x.negative = false) (ends : EndsNumeral rest) :
    takeToken ((Number.queryText (.finite x)).toList ++ rest) =
      .ok (some (.number (.finite x), rest)) := by
  have starts := query_text_starts plus
  have taken := take_query_text plus ends
  cases shown : (Number.queryText (.finite x)).toList with
  | nil => simp [shown] at starts
  | cons c digits =>
    rw [shown] at starts taken
    rw [List.cons_append] at taken ⊢
    have digit : isDigit c = true := by simpa using starts
    rw [takeToken, if_pos (by simp [startsNumber, digit]), taken]

end Values

end RangeIndex.TokenText

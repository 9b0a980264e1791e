import Mathlib.Data.List.Find
import RangeIndex.Proofs.RemainingText
import RangeIndex.Proofs.TokenText

/-! What is cut off a text is cut off in the same way where the text goes on after a seam, at a blank
or at an opening parenthesis. Signs, numerals, words, literals and comments look ahead by a character
or two; none of them is changed by what begins at a seam. So where texts meet at a blank, the tokens
are those of the one and then those of the other. -/
namespace RangeIndex.TextSeams
open Text Query TokenSpelling TokenText RemainingText

/-- A rest that begins with a blank or an opening parenthesis, if with anything. -/
def AtSeam (rest : List Char) : Prop := ∀ c, rest.head? = some c → isBlank c = true ∨ c = '('

section Ahead
variable {c : Char} {rest : List Char}

/-- A blank is none of the signs that a token goes on with. -/
theorem blank_no_sign (blank : isBlank c = true) :
    c ∉ ['_', '-', '/', '.', '=', ':', '"', '\''] := by
  intro among
  simp only [List.mem_cons, List.not_mem_nil, or_false] at among
  rcases among with rfl | rfl | rfl | rfl | rfl | rfl | rfl | rfl <;> exact absurd blank (by decide)

theorem blank_ends_name (blank : isBlank c = true) : isNameChar c = false := by
  have apart := blank_no_sign blank
  simp only [List.mem_cons, not_or] at apart
  obtain ⟨underscore, hyphen, -, point, -⟩ := apart
  simp [isNameChar, isAlphanumeric, blank_no_letter blank, blank_no_numeral blank, underscore,
    hyphen, point]

theorem blank_no_digit (blank : isBlank c = true) : isDigit c = false := by
  refine Bool.eq_false_iff.mpr fun digit => ?_
  rw [digit_visible digit] at blank
  cases blank

/-- No token goes on with what begins at a seam. -/
theorem seam_apart (seam : AtSeam rest) (first : rest.head? = some c) :
    isNameChar c = false ∧ isDigit c = false ∧ c ∉ ['/', '.', '=', ':', '"', '\''] := by
  rcases seam c first with blank | rfl
  · have apart := blank_no_sign blank
    refine ⟨blank_ends_name blank, blank_no_digit blank, fun among => apart ?_⟩
    exact List.mem_cons_of_mem _ (List.mem_cons_of_mem _ among)
  · decide

/-- At a seam the next character is none that a test looks for. -/
theorem next_before_seam {test : Char → Bool}
    (outside : ∀ c, rest.head? = some c → test c = false) (text : List Char) :
    (text ++ rest).head?.any test = text.head?.any test := by
  cases text with
  | cons c text => rfl
  | nil =>
    cases rest with
    | nil => rfl
    | cons c rest => simp [outside c rfl]

/-- A run of one class does not go on after a seam. -/
theorem run_before_seam {test : Char → Bool}
    (outside : ∀ c, rest.head? = some c → test c = false) (text : List Char) :
    (text ++ rest).takeWhile test = text.takeWhile test ∧
      (text ++ rest).dropWhile test = text.dropWhile test ++ rest := by
  have inside : ∀ c ∈ text.takeWhile test, test c = true := List.all_eq_true.mp List.all_takeWhile
  have stops : ∀ c, (text.dropWhile test ++ rest).head? = some c → test c = false := by
    intro c first
    cases left : text.dropWhile test with
    | nil =>
      rw [left] at first
      exact outside c first
    | cons d more =>
      rw [left] at first
      have stopped : (text.dropWhile test).head? = some c := by rw [left]; exact first
      exact head_dropWhile stopped
  have whole : text ++ rest = text.takeWhile test ++ (text.dropWhile test ++ rest) := by
    rw [← List.append_assoc, List.takeWhile_append_dropWhile]
  rw [whole]
  exact ⟨takeWhile_run inside stops, dropWhile_run inside stops⟩

end Ahead

section Tokens
variable {text later rest : List Char} {token : Token}

theorem fraction_before_seam (seam : AtSeam rest) (text : List Char) :
    takeFraction (text ++ rest) = ((takeFraction text).1, (takeFraction text).2 ++ rest) := by
  have digits : ∀ c, rest.head? = some c → isDigit c = false := fun c first =>
    (seam_apart seam first).2.1
  cases text with
  | nil =>
    rw [List.nil_append, takeFraction.eq_def]
    split
    · exact absurd (by decide) (seam_apart seam rfl).2.2
    · rfl
  | cons c text =>
    by_cases point : c = '.'
    · subst point
      obtain ⟨whole, after⟩ := run_before_seam digits text
      rw [List.cons_append, takeFraction, takeFraction, next_before_seam digits text]
      split
      · rw [Number.splitDigits, Number.splitDigits, whole, after]
      · rfl
    · rw [List.cons_append, takeFraction.eq_def, takeFraction.eq_def]
      split
      · next same => cases same; exact absurd rfl point
      · split
        · next same => cases same; exact absurd rfl point
        · rfl

theorem number_before_seam (seam : AtSeam rest) (text : List Char) :
    takeNumber (text ++ rest) = ((takeNumber text).1, (takeNumber text).2 ++ rest) := by
  obtain ⟨whole, after⟩ := run_before_seam (fun c first => (seam_apart seam first).2.1) text
  simp only [takeNumber, Number.splitDigits, whole, after, fraction_before_seam seam]

/-- A literal is closed by a quote that no other quote follows, and no quote follows at a seam. -/
theorem literal_before_seam {quote : Char} {value : List Char} (apart : rest.head? ≠ some quote)
    (taken : takeLiteral quote text = some (value, later)) :
    takeLiteral quote (text ++ rest) = some (value, later ++ rest) := by
  fun_induction takeLiteral quote text generalizing value with
  | case1 => cases taken
  | case2 more ih =>
    obtain ⟨inner, found, same⟩ := Option.map_eq_some_iff.mp taken
    cases same
    simp [takeLiteral, ih found]
  | case3 d more other =>
    cases taken
    simp [takeLiteral, other]
  | case4 =>
    cases taken
    cases rest with
    | nil => simp [takeLiteral]
    | cons d rest =>
      have other : d ≠ quote := fun same => apart (by rw [same]; rfl)
      simp [takeLiteral, other]
  | case5 c more other ih =>
    obtain ⟨inner, found, same⟩ := Option.map_eq_some_iff.mp taken
    cases same
    rw [List.cons_append, takeLiteral.eq_def]
    simp [other, ih found]

/-- What signs go on with after their first character. -/
theorem signs_short : ∀ sign ∈ signs, sign.1.tail ∈ [[], ['/'], ['.'], ['=']] := by decide

theorem lexeme_before_seam (seam : AtSeam rest) {sign : List Char × Token} (member : sign ∈ signs)
    (present : text ≠ []) : sign.1.isPrefixOf (text ++ rest) = sign.1.isPrefixOf text := by
  obtain ⟨c, text, rfl⟩ := List.exists_cons_of_ne_nil present
  have short := signs_short sign member
  obtain ⟨d, lexeme, first⟩ := List.exists_cons_of_length_pos (signs_nonempty sign member)
  rw [first, List.tail_cons] at short
  rw [first, List.cons_append, List.isPrefixOf, List.isPrefixOf]
  congr 1
  cases text with
  | cons e text =>
    simp only [List.mem_cons, List.not_mem_nil, or_false] at short
    rcases short with rfl | rfl | rfl | rfl <;> rfl
  | nil =>
    cases rest with
    | nil => rfl
    | cons e rest =>
      have apart := (seam_apart seam (c := e) rfl).2.2
      simp only [List.mem_cons, List.not_mem_nil, or_false, not_or] at short apart
      obtain ⟨slash, point, equal, -⟩ := apart
      rcases short with rfl | rfl | rfl | rfl
      · rfl
      · simp [List.isPrefixOf, Ne.symm slash]
      · simp [List.isPrefixOf, Ne.symm point]
      · simp [List.isPrefixOf, Ne.symm equal]

theorem sign_before_seam (seam : AtSeam rest) (present : text ≠ []) :
    takeSign (text ++ rest) = (takeSign text).map fun found => (found.1, found.2 ++ rest) := by
  have same : signs.find? (fun sign => sign.1.isPrefixOf (text ++ rest)) =
      signs.find? fun sign => sign.1.isPrefixOf text :=
    List.find?_congr fun sign member => lexeme_before_seam seam member present
  rw [takeSign, takeSign, same, Option.map_map]
  refine Option.map_congr fun sign found => ?_
  have front : sign.1.isPrefixOf text = true := by simpa using List.find?_some found
  have fits := (List.isPrefixOf_iff_prefix.mp front).length_le
  rw [Function.comp_apply, List.drop_append_of_le_length fits]

theorem ends_before_seam (seam : AtSeam rest) (ends : EndsWord later) :
    EndsWord (later ++ rest) := by
  cases later with
  | nil => exact fun c first => (seam_apart seam first).1
  | cons d later => exact fun c first => ends c first

theorem word_before_seam {c : Char} (seam : AtSeam rest) (starts : isNameStart c = true)
    (taken : takeWord (c :: text) = .ok (token, later)) :
    takeToken (c :: text ++ rest) = .ok (some (token, later ++ rest)) := by
  have form := word_form starts text
  rw [taken] at form
  generalize c :: text = whole at form
  cases form with
  | operator is ends operator =>
    rw [List.append_assoc]
    exact take_operator_word is (ends_before_seam seam ends) operator
  | axis is =>
    rw [List.append_assoc]
    exact take_axis is
  | labelWildcard is =>
    rw [List.append_assoc]
    exact take_wildcard is
  | labelled before after ends =>
    rw [List.append_assoc, List.cons_append, List.append_assoc]
    exact take_labelled before after (ends_before_seam seam ends)
  | plain is ends colon =>
    rw [List.append_assoc]
    refine take_plain is (ends_before_seam seam ends) ?_
    cases later with
    | nil => exact fun first => absurd (by decide) (seam_apart seam first).2.2
    | cons d later => exact colon

/-- A token that is taken off a text is taken off it in front of a seam. -/
theorem token_before_seam (seam : AtSeam rest)
    (taken : takeToken text = .ok (some (token, later))) :
    takeToken (text ++ rest) = .ok (some (token, later ++ rest)) := by
  have number (text : List Char) (present : text ≠ []) :
      startsNumber (text ++ rest) = startsNumber text := by
    obtain ⟨c, text, rfl⟩ := List.exists_cons_of_ne_nil present
    rw [List.cons_append, startsNumber, startsNumber,
      next_before_seam (fun c first => (seam_apart seam first).2.1) text]
  have form := token_form text
  rw [taken] at form
  cases form with
  | number starts same =>
    cases text with
    | nil => cases starts
    | cons c text =>
      rw [← number _ (List.cons_ne_nil c text)] at starts
      rw [List.cons_append, takeToken, ← List.cons_append, if_pos starts,
        number_before_seam seam, same]
  | @literal c text value later other quote closed =>
    have apart : rest.head? ≠ some c := by
      intro first
      have among := (seam_apart seam first).2.2
      rcases quote with rfl | rfl <;> exact among (by decide)
    rw [← number _ (List.cons_ne_nil c text), List.cons_append] at other
    rw [List.cons_append, takeToken, if_neg (by simp [other]), if_pos quote,
      literal_before_seam apart closed]
  | @sign c text later token other plain found =>
    have sign := sign_before_seam seam (List.cons_ne_nil c text)
    rw [← number _ (List.cons_ne_nil c text)] at other
    rw [List.cons_append] at other sign ⊢
    rw [takeToken, if_neg (by simp [other]), if_neg plain, sign, found]
    rfl
  | word starts word => exact word_before_seam seam starts word

end Tokens

section Texts
variable {text later rest front : List Char} {tokens : List Token}

/-- A comment ends where it ended before. -/
theorem comment_before_seam (closed : afterComment text = some later) (rest : List Char) :
    afterComment (text ++ rest) = some (later ++ rest) := by
  fun_induction afterComment text with
  | case1 => cases closed
  | case2 c text ends =>
    cases closed
    obtain ⟨more, rfl⟩ := List.head?_eq_some_iff.mp ends.2
    simp [afterComment, ends.1]
  | case3 c text goesOn ih =>
    cases text with
    | nil => cases closed
    | cons d text =>
      have goesOn' : ¬(c = ':' ∧ (d :: text ++ rest).head? = some ')') := goesOn
      rw [List.cons_append, afterComment, if_neg goesOn']
      exact ih closed

theorem skip_comment (front : dropBlanks text = '(' :: ':' :: rest)
    (closed : afterComment (':' :: rest) = some later) : skipTrivia text = skipTrivia later := by
  rw [skip_equation, front]
  simp only [closed]

theorem skip_blanks (plain : ∀ rest, dropBlanks text ≠ '(' :: ':' :: rest) :
    skipTrivia text = .ok (dropBlanks text) := by
  rw [skip_equation]
  split
  · next front => exact absurd front (plain _)
  · rfl

theorem trivia_before_seam (seam : AtSeam rest) (skipped : skipTrivia text = .ok front) :
    skipTrivia (text ++ rest) = if front = [] then skipTrivia rest else .ok (front ++ rest) := by
  fun_induction skipTrivia text with
  | case1 text more opened bound later closed shorter ih =>
    have front' : dropBlanks (text ++ rest) = '(' :: ':' :: (more ++ rest) := by
      rw [dropBlanks, List.dropWhile_append, ← dropBlanks, opened]
      rfl
    rw [skip_comment front' (comment_before_seam closed rest)]
    exact ih skipped
  | case2 => cases skipped
  | case3 text plain =>
    cases skipped
    by_cases none : dropBlanks text = []
    · have front : dropBlanks (text ++ rest) = dropBlanks rest := by
        rw [dropBlanks, List.dropWhile_append, ← dropBlanks, none]
        rfl
      rw [if_pos none, skip_equation, front, ← skip_equation]
    · have front : dropBlanks (text ++ rest) = dropBlanks text ++ rest := by
        rw [dropBlanks, List.dropWhile_append, ← dropBlanks, if_neg (by simpa using none)]
      rw [if_neg none, skip_blanks, front]
      rw [front]
      intro more opened
      obtain ⟨c, later, first⟩ := List.exists_cons_of_ne_nil none
      rw [first] at opened plain
      cases later with
      | nil =>
        cases opened
        exact absurd (by decide) (seam_apart seam rfl).2.2
      | cons d later =>
        cases opened
        exact plain later rfl

theorem nothing_taken (nothing : takeToken text = .ok none) : text = [] := by
  have form := token_form text
  rw [nothing] at form
  cases form
  rfl

/-- In front of a seam a text is cut into its tokens, and what is behind the seam into its own. -/
theorem cut_before_seam (seam : AtSeam rest) (cut : lex text = .ok tokens) :
    lex (text ++ rest) = (lex rest).map (tokens ++ ·) := by
  fun_induction lex text generalizing tokens with
  | case1 => cases cut
  | case2 => cases cut
  | case3 text front skipped bound none =>
    cases cut
    have passed := trivia_before_seam seam skipped
    rw [if_pos (nothing_taken none)] at passed
    rw [lex_equation, passed, ← lex_equation]
    cases lex rest <;> rfl
  | case4 text front skipped bound token later taken shorter ih =>
    have present : front ≠ [] := by
      rintro rfl
      cases taken
    have passed := trivia_before_seam seam skipped
    rw [if_neg present] at passed
    rw [lex_equation, passed]
    dsimp only
    rw [token_before_seam seam taken]
    dsimp only
    cases others : lex later with
    | error fault => rw [others] at cut; cases cut
    | ok more =>
      rw [others] at cut
      cases cut
      rw [ih others]
      cases lex rest <;> rfl

end Texts

/-- Where two texts meet at a blank, the tokens are those of the one and then those of the other, and
what is wrong with the second is wrong at its place in the whole. -/
theorem blank_keeps_tokens_apart {a b : String} {blank : Char} {front : List Token}
    (is : isBlank blank = true) (cut : tokenize a = .ok front) :
    (∀ back, tokenize b = .ok back →
        tokenize (a ++ String.singleton blank ++ b) = .ok (front ++ back)) ∧
      ∀ error, tokenize b = .error error →
        tokenize (a ++ String.singleton blank ++ b) =
          .error (furtherOn (byteLength (a.toList ++ [blank])) error) := by
  have seam : AtSeam (blank :: b.toList) := by
    rintro _ ⟨⟩
    exact .inl is
  have text : (a ++ String.singleton blank ++ b).toList = a.toList ++ blank :: b.toList := by simp
  have whole : lex (a ++ String.singleton blank ++ b).toList =
      (lex b.toList).map (front ++ ·) := by
    rw [text, cut_before_seam seam (tokenize_ok_iff.mp cut), lex_blank is]
  refine ⟨fun back cut' => ?_, fun error faulty => ?_⟩
  · rw [tokenize_ok_iff, whole, tokenize_ok_iff.mp cut']
    rfl
  · cases found : lex b.toList with
    | ok back => rw [tokenize, found] at faulty; cases faulty
    | error fault =>
      have bound : byteLength fault.rest ≤ byteLength b.toList := by
        obtain ⟨before, same⟩ := fault_suffix found
        rw [← same, byte_length_append]
        exact Nat.le_add_left _ _
      have bytes : byteLength (a ++ String.singleton blank ++ b).toList =
          byteLength (a.toList ++ [blank]) + byteLength b.toList := by
        rw [← byte_length_append, text, List.append_assoc, List.singleton_append]
      rw [found] at whole
      rw [tokenize, found] at faulty
      cases faulty
      rw [tokenize, whole, bytes]
      simp only [Except.map, furtherOn, Nat.add_sub_assoc bound]

theorem single_slash : tokenize "/" = .ok [.slash] :=
  tokenize_ok_iff.mpr (cut_token rfl lex_end)

/-- Two slashes are a token each where a blank is between them, and one token where none is. -/
theorem slashes_kept_apart :
    isBlank ' ' = true ∧ tokenize "/" = .ok [.slash] ∧
      tokenize ("/" ++ String.singleton ' ' ++ "/") = .ok [.slash, .slash] ∧
      tokenize ("/" ++ "/") = .ok [.doubleSlash] :=
  ⟨by decide, single_slash, (blank_keeps_tokens_apart (by decide) single_slash).1 _ single_slash,
    tokenize_ok_iff.mpr (cut_token rfl lex_end)⟩

end RangeIndex.TextSeams

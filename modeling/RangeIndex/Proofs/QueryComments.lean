import RangeIndex.Proofs.SpelledText
import RangeIndex.Proofs.TextSeams

/-! Comments inside a query. A comment is passed over from its opening to the first colon with a
parenthesis after it, and the colon of the opening counts: a comment whose text begins with a closing
parenthesis is over at once, and the rest of its text is cut as query text. -/
namespace RangeIndex.QueryComments
open Text Query TokenSpelling TokenText SpelledText TextSeams

section Closing
variable {inside body rest : List Char}

/-- The end of a comment is the first one there is. -/
theorem first_end (clear : ¬[':', ')'] <:+: inside) (rest : List Char) :
    afterComment (inside ++ ':' :: ')' :: rest) = some rest := by
  induction inside with
  | nil => simp [afterComment]
  | cons c inside ih =>
    obtain ⟨front, later⟩ := not_or.mp (mt List.infix_cons_iff.mpr clear)
    rw [List.cons_append, afterComment, if_neg]
    · exact ih later
    · rintro ⟨rfl, closes⟩
      cases inside with
      | nil => cases closes
      | cons d inside =>
        cases closes
        exact front (List.prefix_append [':', ')'] inside)

theorem opening_parenthesis : dropBlanks ('(' :: rest) = '(' :: rest := by
  simp [dropBlanks, show isBlank '(' = false by decide]

theorem closed_comment (closed : afterComment (':' :: inside) = some rest) :
    lex ('(' :: ':' :: inside) = lex rest := by
  rw [lex_equation, skip_comment opening_parenthesis closed, ← lex_equation]

/-- A comment in front of a text is passed over up to its first end. -/
theorem comment_passed (clear : ¬[':', ')'] <:+: ':' :: body) (rest : List Char) :
    lex ('(' :: ':' :: (body ++ ':' :: ')' :: rest)) = lex rest :=
  closed_comment (first_end clear rest)

/-- The colon that opens a comment closes it where a parenthesis comes next. -/
theorem closed_at_once (rest : List Char) : lex ('(' :: ':' :: ')' :: rest) = lex rest := by
  have nothing : ¬[':', ')'] <:+: ([] : List Char) := by decide
  exact closed_comment (first_end nothing rest)

theorem clear_with_opening (clear : ¬[':', ')'] <:+: body) (apart : body.head? ≠ some ')') :
    ¬[':', ')'] <:+: ':' :: body := by
  intro found
  rcases List.infix_cons_iff.mp found with front | later
  · obtain ⟨more, same⟩ := front
    cases same
    exact apart rfl
  · exact clear later

end Closing

section Transparency
variable {a b body : String} {front back : List Token}

theorem comment_text (a body b : String) : (a ++ "(:" ++ body ++ ":)" ++ b).toList =
    a.toList ++ '(' :: ':' :: (body.toList ++ ':' :: ')' :: b.toList) := by
  simp

/-- A comment between two texts leaves the tokens of both, exactly where its text does not begin with
a closing parenthesis or what comes after that parenthesis is cut into the same tokens again. -/
theorem comment_transparent_iff (cut : tokenize a = .ok front) (cut' : tokenize b = .ok back)
    (clear : ¬":)".toList <:+: body.toList) :
    tokenize (a ++ "(:" ++ body ++ ":)" ++ b) = .ok (front ++ back) ↔
      ∀ more, body.toList = ')' :: more →
        tokenize (String.ofList more ++ ":)" ++ b) = .ok back := by
  have seam (rest : List Char) : AtSeam ('(' :: rest) := by
    rintro _ ⟨⟩
    exact .inr rfl
  have before := cut_before_seam (seam (':' :: (body.toList ++ ':' :: ')' :: b.toList)))
    (tokenize_ok_iff.mp cut)
  rw [tokenize_ok_iff, comment_text, before]
  by_cases opens : body.toList.head? = some ')'
  · obtain ⟨more, same⟩ := List.head?_eq_some_iff.mp opens
    have left : (String.ofList more ++ ":)" ++ b).toList = more ++ ':' :: ')' :: b.toList := by simp
    have whole : (∀ later, ')' :: more = ')' :: later →
        tokenize (String.ofList later ++ ":)" ++ b) = .ok back) ↔
          tokenize (String.ofList more ++ ":)" ++ b) = .ok back := by simp
    rw [same, List.cons_append, closed_at_once, whole, tokenize_ok_iff, left]
    cases lex (more ++ ':' :: ')' :: b.toList) with
    | error fault => simp [Except.map]
    | ok tokens => simp [Except.map]
  · rw [comment_passed (clear_with_opening clear opens), tokenize_ok_iff.mp cut']
    refine iff_of_true rfl fun more same => absurd ?_ opens
    rw [same]
    rfl

end Transparency

theorem name_alone {written : String} (is : IsPlain written.toList) :
    tokenize written = .ok [.name written] := by
  have spelled : Spells true written [.name written] := spells_name (plain_is_name is)
  exact tokenize_spelled spelled

/-- A comment between two names leaves the names. -/
theorem remark_passed_over :
    tokenize "a" = .ok [.name "a"] ∧ tokenize "c" = .ok [.name "c"] ∧
      ¬":)".toList <:+: " b ".toList ∧
      tokenize ("a" ++ "(:" ++ " b " ++ ":)" ++ "c") = .ok [.name "a", .name "c"] := by
  have first : tokenize "a" = .ok [.name "a"] := name_alone (by decide)
  have last : tokenize "c" = .ok [.name "c"] := name_alone (by decide)
  have clear : ¬":)".toList <:+: " b ".toList := by decide
  refine ⟨first, last, clear, (comment_transparent_iff first last clear).mpr fun more same => ?_⟩
  exact absurd same (by simp)

/-- The text between these two names has no end of a comment in it, and yet it is cut as query text,
because it begins with a parenthesis. -/
theorem remark_cut_as_query :
    tokenize "a" = .ok [.name "a"] ∧ tokenize "c" = .ok [.name "c"] ∧
      ¬":)".toList <:+: ") b ".toList ∧
      tokenize ("a" ++ "(:" ++ ") b " ++ ":)" ++ "c") =
        .error (.lexical (.unexpectedCharacter ':') 7) :=
  ⟨name_alone (by decide), name_alone (by decide), by decide, by decide +kernel⟩

end RangeIndex.QueryComments

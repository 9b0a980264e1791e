import RangeIndex.Proofs.TokenSpelling

/-! What is left of a text. Blanks, comments and tokens are taken off its front, so what is left is
always an end of the text as it was, and a fault is reported at a place inside it. -/
namespace RangeIndex.RemainingText
open Text Query TokenSpelling

section Remaining
variable {text rest : List Char} {token : Token} {error : LexicalError}

theorem comment_suffix (closed : afterComment text = some rest) : rest <:+ text := by
  fun_induction afterComment text with
  | case1 => cases closed
  | case2 c text =>
    cases closed
    exact (List.drop_suffix _ _).trans (List.suffix_cons _ _)
  | case3 c text _ ih => exact (ih closed).trans (List.suffix_cons _ _)

theorem passed_comment_suffix {inside : List Char} (opened : dropBlanks text = '(' :: ':' :: inside)
    (closed : afterComment (':' :: inside) = some rest) : rest <:+ text := by
  have front : '(' :: ':' :: inside <:+ text := opened ▸ List.dropWhile_suffix _
  exact (comment_suffix closed).trans ((List.suffix_cons _ _).trans front)

theorem trivia_suffix (skipped : skipTrivia text = .ok rest) : rest <:+ text := by
  fun_induction skipTrivia text with
  | case1 text inside opened _ later closed _ ih =>
    exact (ih skipped).trans (passed_comment_suffix opened closed)
  | case2 => cases skipped
  | case3 =>
    cases skipped
    exact List.dropWhile_suffix _

theorem open_comment_suffix (faulty : skipTrivia text = .error error) : error.rest <:+ text := by
  fun_induction skipTrivia text with
  | case1 text inside opened _ later closed _ ih =>
    exact (ih faulty).trans (passed_comment_suffix opened closed)
  | case2 text inside opened =>
    cases faulty
    exact opened ▸ List.dropWhile_suffix _
  | case3 => cases faulty

theorem literal_suffix {quote : Char} {value : List Char}
    (taken : takeLiteral quote text = some (value, rest)) : rest <:+ text := by
  fun_induction takeLiteral quote text generalizing value with
  | case1 => cases taken
  | case2 more ih =>
    obtain ⟨inner, found, same⟩ := Option.map_eq_some_iff.mp taken
    cases same
    exact (ih found).trans ((List.suffix_cons _ _).trans (List.suffix_cons _ _))
  | case3 =>
    cases taken
    exact List.suffix_cons _ _
  | case4 =>
    cases taken
    exact List.nil_suffix
  | case5 c more other ih =>
    obtain ⟨inner, found, same⟩ := Option.map_eq_some_iff.mp taken
    cases same
    exact (ih found).trans (List.suffix_cons _ _)

theorem number_suffix (text : List Char) : (takeNumber text).2 <:+ text := by
  have fraction (text : List Char) : (takeFraction text).2 <:+ text := by
    unfold takeFraction
    split
    · split
      · exact (List.dropWhile_suffix _).trans (List.suffix_cons _ _)
      · exact List.suffix_rfl
    · exact List.suffix_rfl
  exact (fraction _).trans (List.dropWhile_suffix _)

theorem word_suffix {c : Char} (starts : isNameStart c = true)
    (taken : takeWord (c :: text) = .ok (token, rest)) : rest <:+ c :: text := by
  have form := word_form starts text
  rw [taken] at form
  generalize c :: text = whole at form
  cases form with
  | operator => exact List.suffix_append _ _
  | axis => exact (List.suffix_append [':', ':'] _).trans (List.suffix_append _ _)
  | labelWildcard => exact (List.suffix_append [':', '*'] _).trans (List.suffix_append _ _)
  | @labelled _ word =>
    exact (List.suffix_append (':' :: word) _).trans (List.suffix_append _ _)
  | plain => exact List.suffix_append _ _

theorem broken_word_suffix {c : Char} (starts : isNameStart c = true)
    (faulty : takeWord (c :: text) = .error error) : error.rest <:+ c :: text := by
  have form := word_form starts text
  rw [faulty] at form
  generalize c :: text = whole at form
  cases form with
  | incomplete => exact List.suffix_append _ _

theorem token_suffix (taken : takeToken text = .ok (some (token, rest))) : rest <:+ text := by
  have form := token_form text
  rw [taken] at form
  cases form with
  | number starts same =>
    have left : (takeNumber text).2 = rest := congrArg Prod.snd same
    exact left ▸ number_suffix text
  | literal _ _ closed => exact (literal_suffix closed).trans (List.suffix_cons _ _)
  | sign _ _ found =>
    obtain ⟨sign, _, same⟩ := Option.map_eq_some_iff.mp found
    cases same
    exact List.drop_suffix _ _
  | word starts word => exact word_suffix starts word

theorem broken_token_suffix (faulty : takeToken text = .error error) : error.rest <:+ text := by
  have form := token_form text
  rw [faulty] at form
  cases form with
  | openLiteral => exact List.suffix_rfl
  | brokenWord starts word => exact broken_word_suffix starts word
  | unexpected => exact List.suffix_rfl

end Remaining

section Places
variable {text : List Char} {error : LexicalError}

/-- A fault lies inside the text it is found in. -/
theorem fault_suffix (faulty : lex text = .error error) : error.rest <:+ text := by
  fun_induction lex text with
  | case1 text fault skipped =>
    cases faulty
    exact open_comment_suffix skipped
  | case2 text front skipped bound fault taken =>
    cases faulty
    exact (broken_token_suffix taken).trans (trivia_suffix skipped)
  | case3 => cases faulty
  | case4 text front skipped bound token later taken shorter ih =>
    cases others : lex later with
    | ok more => rw [others] at faulty; cases faulty
    | error fault =>
      rw [others] at faulty
      cases faulty
      exact (ih others).trans ((token_suffix taken).trans (trivia_suffix skipped))

theorem byte_length_append (a b : List Char) :
    byteLength (a ++ b) = byteLength a + byteLength b := by
  have shift (text : List Char) (bytes : Nat) :
      text.foldl (fun bytes c => bytes + c.utf8Size) bytes = bytes + byteLength text := by
    induction text generalizing bytes with
    | nil => rfl
    | cons c text ih =>
      rw [List.foldl_cons, ih, byteLength.eq_def (c :: text), List.foldl_cons, ih, Nat.zero_add,
        Nat.add_assoc]
  rw [byteLength, List.foldl_append, shift, ← byteLength]

/-- An error of a text that stands so many bytes further on. -/
def furtherOn (distance : Nat) : QueryError → QueryError
  | .lexical fault offset => .lexical fault (distance + offset)
  | error => error

end Places

end RangeIndex.RemainingText

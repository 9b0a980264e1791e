import RangeIndex.Query.Lexing

/-! What the tokens of a text can hold. Names and labels are made of words, no name begins with an
operator word, and a number has no sign: the sign in front of a numeral is a token of its own. -/
namespace RangeIndex.TokenSpelling
open Text Query

/-- A run of name characters that a name can start with. -/
structure IsWord (word : List Char) : Prop where
  starts : word.head?.any isNameStart = true
  inside : ∀ c ∈ word, isNameChar c = true

/-- A word that is no operator. -/
structure IsPlain (word : List Char) : Prop extends IsWord word where
  free : operatorWords.lookup (String.ofList word) = none

theorem is_word_iff {word : List Char} :
    word.head?.any isNameStart = true ∧ word.all isNameChar = true ↔ IsWord word :=
  ⟨fun ⟨starts, all⟩ => ⟨starts, List.all_eq_true.mp all⟩,
    fun is => ⟨is.starts, List.all_eq_true.mpr is.inside⟩⟩

theorem is_plain_iff {word : List Char} :
    IsWord word ∧ operatorWords.lookup (String.ofList word) = none ↔ IsPlain word :=
  ⟨fun ⟨is, free⟩ => ⟨is, free⟩, fun is => ⟨is.toIsWord, is.free⟩⟩

instance (word : List Char) : Decidable (IsWord word) := decidable_of_iff _ is_word_iff

instance (word : List Char) : Decidable (IsPlain word) := decidable_of_iff _ is_plain_iff

/-- A name, with a label in front or without. -/
inductive IsName : String → Prop where
  | plain {word : List Char} (is : IsPlain word) : IsName (String.ofList word)
  | labelled {label word : List Char} (before : IsPlain label) (after : IsWord word) :
      IsName (String.ofList label ++ ":" ++ String.ofList word)

theorem plain_is_name {written : String} (is : IsPlain written.toList) : IsName written := by
  simpa using IsName.plain is

/-- The numbers that numerals without a sign stand for. -/
def Unsigned : Number → Prop
  | .finite x => x.negative = false
  | .infinite negative => negative = false
  | .nan => False

/-- Whether a token holds what some text can be cut into. -/
def WellSpelled : Token → Prop
  | .name written => IsName written
  | .labelWildcard label => IsPlain label.toList
  | .number value => Unsigned value
  | _ => True

section Cutting

theorem decimal_unsigned (digits : Nat) (exponent : Int) :
    Unsigned (Number.ofDecimal false digits exponent) := by
  have ratio (p q : Nat) : Unsigned (Number.ofRatio false p q) := by
    unfold Number.ofRatio
    split <;> split <;> rfl
  rw [Number.ofDecimal]
  split
  · rfl
  · split
    · rfl
    · split
      · rfl
      · exact ratio _ _

theorem word_in_front {c : Char} {rest : List Char} (starts : isNameStart c = true) :
    IsWord ((c :: rest).takeWhile isNameChar) := by
  refine ⟨by simp [isNameChar_of_isNameStart starts, starts], ?_⟩
  exact List.all_eq_true.mp List.all_takeWhile

/-- What a text begins with that begins with a name, and what taking a word off it comes to. -/
inductive WordForm : List Char → Except LexicalError (Token × List Char) → Prop where
  | operator {word rest : List Char} {token : Token} (is : IsWord word)
      (ends : ∀ c, rest.head? = some c → isNameChar c = false)
      (operator : operatorWords.lookup (String.ofList word) = some token) :
      WordForm (word ++ rest) (.ok (token, rest))
  | axis {word rest : List Char} (is : IsPlain word) :
      WordForm (word ++ ':' :: ':' :: rest) (.ok (.axis (String.ofList word), rest))
  | labelWildcard {label rest : List Char} (is : IsPlain label) :
      WordForm (label ++ ':' :: '*' :: rest) (.ok (.labelWildcard (String.ofList label), rest))
  | labelled {label word rest : List Char} (before : IsPlain label) (after : IsWord word)
      (ends : ∀ c, rest.head? = some c → isNameChar c = false) :
      WordForm (label ++ ':' :: (word ++ rest))
        (.ok (.name (String.ofList label ++ ":" ++ String.ofList word), rest))
  | plain {word rest : List Char} (is : IsPlain word)
      (ends : ∀ c, rest.head? = some c → isNameChar c = false) (colon : rest.head? ≠ some ':') :
      WordForm (word ++ rest) (.ok (.name (String.ofList word), rest))
  | incomplete {label rest : List Char} :
      WordForm (label ++ ':' :: rest)
        (.error ⟨.incompleteName (String.ofList label), ':' :: rest⟩)

theorem word_form {c : Char} (starts : isNameStart c = true) (text : List Char) :
    WordForm (c :: text) (takeWord (c :: text)) := by
  have front : IsWord ((c :: text).takeWhile isNameChar) := word_in_front starts
  have ends : ∀ d, ((c :: text).dropWhile isNameChar).head? = some d → isNameChar d = false :=
    fun _ first => head_dropWhile first
  have whole : (c :: text).takeWhile isNameChar ++ (c :: text).dropWhile isNameChar = c :: text :=
    List.takeWhile_append_dropWhile
  simp only [takeWord]
  generalize (c :: text).takeWhile isNameChar = word at front whole
  generalize (c :: text).dropWhile isNameChar = left at ends whole
  rw [← whole]
  split
  · next operator => exact .operator front ends operator
  · next free => exact .axis ⟨front, free⟩
  · next free => exact .labelWildcard ⟨front, free⟩
  · next more _ _ free =>
    split
    · next inside =>
      cases more with
      | nil => cases inside
      | cons d more =>
        have after : IsWord ((d :: more).takeWhile isNameChar) :=
          word_in_front (by simpa using inside)
        have last : ∀ c, ((d :: more).dropWhile isNameChar).head? = some c →
            isNameChar c = false := fun _ first => head_dropWhile first
        have form := WordForm.labelled ⟨front, free⟩ after last
        rwa [List.takeWhile_append_dropWhile] at form
    · exact .incomplete
  · next free _ _ other =>
    refine .plain ⟨front, free⟩ ends fun colon => ?_
    obtain ⟨later, same⟩ := List.head?_eq_some_iff.mp colon
    exact other later same

theorem take_word_spelled {c : Char} {text rest : List Char} {token : Token}
    (starts : isNameStart c = true) (taken : takeWord (c :: text) = .ok (token, rest)) :
    WellSpelled token := by
  have form := word_form starts text
  rw [taken] at form
  generalize c :: text = whole at form
  cases form with
  | operator _ _ operator =>
    have plain : ∀ entry ∈ operatorWords, WellSpelled entry.2 := by
      simp [operatorWords, WellSpelled]
    obtain ⟨_, _, among, _⟩ := List.lookup_eq_some_iff.mp operator
    exact plain (_, token) (among ▸ List.mem_append_right _ List.mem_cons_self)
  | axis => trivial
  | labelWildcard is => simpa [WellSpelled] using is
  | labelled before after => exact .labelled before after
  | plain is => exact .plain is

/-- What is in front of a text, and what taking a token off it comes to. -/
inductive TokenForm : List Char → Except LexicalError (Option (Token × List Char)) → Prop where
  | nothing : TokenForm [] (.ok none)
  | number {text rest : List Char} {token : Token} (starts : startsNumber text = true)
      (same : takeNumber text = (token, rest)) : TokenForm text (.ok (some (token, rest)))
  | literal {c : Char} {text value rest : List Char} (other : startsNumber (c :: text) = false)
      (quote : c = '"' ∨ c = '\'') (closed : takeLiteral c text = some (value, rest)) :
      TokenForm (c :: text) (.ok (some (.string (String.ofList value), rest)))
  | openLiteral {c : Char} {text : List Char} :
      TokenForm (c :: text) (.error ⟨.unterminatedString, c :: text⟩)
  | sign {c : Char} {text rest : List Char} {token : Token}
      (other : startsNumber (c :: text) = false) (plain : ¬(c = '"' ∨ c = '\''))
      (found : takeSign (c :: text) = some (token, rest)) :
      TokenForm (c :: text) (.ok (some (token, rest)))
  | word {c : Char} {text rest : List Char} {token : Token} (starts : isNameStart c = true)
      (taken : takeWord (c :: text) = .ok (token, rest)) :
      TokenForm (c :: text) (.ok (some (token, rest)))
  | brokenWord {c : Char} {text : List Char} {error : LexicalError}
      (starts : isNameStart c = true) (faulty : takeWord (c :: text) = .error error) :
      TokenForm (c :: text) (.error error)
  | unexpected {c : Char} {text : List Char} :
      TokenForm (c :: text) (.error ⟨.unexpectedCharacter c, c :: text⟩)

theorem token_form (text : List Char) : TokenForm text (takeToken text) := by
  unfold takeToken
  split
  · exact .nothing
  · split
    · next starts => exact .number starts rfl
    · next other =>
      have other : startsNumber _ = false := Bool.eq_false_iff.mpr other
      split
      · next quote =>
        split
        · next closed => exact .literal other quote closed
        · exact .openLiteral
      · next plain =>
        split
        · next found => exact .sign other plain found
        · split
          · next starts =>
            cases word : takeWord (_ :: _) with
            | error fault => exact .brokenWord starts word
            | ok found => exact .word starts word
          · exact .unexpected

theorem take_token_spelled {text rest : List Char} {token : Token}
    (taken : takeToken text = .ok (some (token, rest))) : WellSpelled token := by
  have form := token_form text
  rw [taken] at form
  cases form with
  | number starts same =>
    cases same
    exact decimal_unsigned _ _
  | literal => trivial
  | sign _ _ found =>
    obtain ⟨sign, first, same⟩ := Option.map_eq_some_iff.mp found
    cases same
    have plain : ∀ sign ∈ signs, WellSpelled sign.2 := by simp [signs, WellSpelled]
    exact plain sign (List.mem_of_find?_eq_some first)
  | word starts word => exact take_word_spelled starts word

/-- Every token of a text is well spelled. -/
theorem lex_spelled {text : List Char} {tokens : List Token} (cut : lex text = .ok tokens) :
    ∀ token ∈ tokens, WellSpelled token := by
  fun_induction lex text generalizing tokens with
  | case1 => cases cut
  | case2 => cases cut
  | case3 =>
    cases cut
    simp
  | case4 text front skipped bound token rest taken shorter ih =>
    cases later : lex rest with
    | error fault => rw [later] at cut; cases cut
    | ok others =>
      rw [later] at cut
      cases cut
      exact List.forall_mem_cons.mpr ⟨take_token_spelled taken, ih later⟩

theorem tokens_spelled {text : String} {tokens : List Token} (cut : tokenize text = .ok tokens) :
    ∀ token ∈ tokens, WellSpelled token := by
  cases found : lex text.toList with
  | error fault => rw [tokenize, found] at cut; cases cut
  | ok others =>
    rw [tokenize, found] at cut
    cases cut
    exact lex_spelled found

end Cutting

/-- A text that is a single name is spelled as names are. -/
theorem single_name_spelled {written : String} (single : tokenize written = .ok [.name written]) :
    IsName written :=
  tokens_spelled single _ (List.mem_singleton_self _)

end RangeIndex.TokenSpelling

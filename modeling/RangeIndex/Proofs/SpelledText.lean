import RangeIndex.Proofs.TokenText
import RangeIndex.Query.Parsing

/-! Which tokens a text spells. A text spells its tokens when it can be cut into them in front of
everything that may stand after it, so the texts of the parts of an expression can be put together
around signs and blanks, and the tokens go along. -/
namespace RangeIndex.SpelledText
open Text Query TokenSpelling TokenText NumeralText

section Signs
variable {c : Char} {rest : List Char} {token : Token} {more : List Token}

/-- The token of a sign that nothing after it makes longer. -/
def fixedSign? : Char → Option Token
  | '@' => some .atSign
  | '|' => some .pipe
  | '-' => some .minus
  | '*' => some .star
  | '(' => some .leftParen
  | ')' => some .rightParen
  | '[' => some .leftBracket
  | ']' => some .rightBracket
  | ',' => some .comma
  | '$' => some .dollar
  | _ => none

theorem cut_fixed (sign : fixedSign? c = some token) (cut : lex rest = .ok more) :
    lex (c :: rest) = .ok (token :: more) := by
  refine cut_token ?_ cut
  unfold fixedSign? at sign
  split at sign <;> cases sign <;> rfl

theorem cut_blank (cut : lex rest = .ok more) : lex (' ' :: rest) = .ok more := by
  rw [lex_blank (by decide), cut]

theorem take_slash (rest : List Char) : takeToken ('/' :: rest) =
    if rest.head? = some '/' then .ok (some (.doubleSlash, rest.drop 1))
    else .ok (some (.slash, rest)) := by
  cases rest with
  | nil => rfl
  | cons c rest =>
    by_cases slash : c = '/'
    · subst slash
      rfl
    · have other : ('/' == c) = false := by simp [Ne.symm slash]
      simp [takeToken, startsNumber, takeSign, signs, slash, List.isPrefixOf, other,
        show isDigit '/' = false by decide]

theorem cut_slash (single : rest.head? ≠ some '/') (cut : lex rest = .ok more) :
    lex ('/' :: rest) = .ok (.slash :: more) := by
  refine cut_token ?_ cut
  rw [take_slash, if_neg single]

theorem cut_double_slash (cut : lex rest = .ok more) :
    lex ('/' :: '/' :: rest) = .ok (.doubleSlash :: more) :=
  cut_token rfl cut

/-- Tokens that do not begin with a slash or two. -/
def NoSlash (tokens : List Token) : Prop :=
  ∃ token, tokens.head? = some token ∧ token ≠ .slash ∧ token ≠ .doubleSlash

theorem NoSlash.append {tokens : List Token} (apart : NoSlash tokens) (more : List Token) :
    NoSlash (tokens ++ more) := by
  obtain ⟨first, front, others⟩ := apart
  exact ⟨first, List.head?_append.trans (by rw [front]; rfl), others⟩

/-- A slash is in front only where it is the first token, alone or with the next one. -/
theorem no_slash_in_front (cut : lex rest = .ok more) (apart : NoSlash more) :
    rest.head? ≠ some '/' := by
  intro slash
  obtain ⟨later, rfl⟩ := List.head?_eq_some_iff.mp slash
  obtain ⟨first, front, single, double⟩ := apart
  have head {token : Token} {left : List Char}
      (taken : takeToken ('/' :: later) = .ok (some (token, left))) : first = token := by
    rw [lex_of_take (taken_visible taken) (fun same => absurd same (by decide)) taken] at cut
    cases others : lex left with
    | error fault => rw [others] at cut; cases cut
    | ok tokens =>
      rw [others] at cut
      cases cut
      exact (Option.some.inj front).symm
  have taken := take_slash later
  split at taken
  · exact double (head taken)
  · exact single (head taken)

end Signs

section Operators

/-- The token of an operator. -/
def operatorToken : BinaryOp → Token
  | .or => .or
  | .and => .and
  | .eq => .eq
  | .notEq => .notEq
  | .lt => .lt
  | .ltEq => .ltEq
  | .gt => .gt
  | .gtEq => .gtEq
  | .add => .plus
  | .sub => .minus
  | .mul => .star
  | .div => .div
  | .mod => .mod

@[simp] theorem of_operator_token (op : BinaryOp) :
    BinaryOp.ofToken? (operatorToken op) = some op := by
  cases op <;> rfl

theorem take_operator (op : BinaryOp) (rest : List Char) :
    takeToken (op.symbol.toList ++ ' ' :: rest) = .ok (some (operatorToken op, ' ' :: rest)) := by
  have blank : EndsWord (' ' :: rest) := by
    rintro _ ⟨⟩
    decide
  have word (symbol : String) (token : Token) (is : IsWord symbol.toList)
      (operator : operatorWords.lookup symbol = some token) :
      takeToken (symbol.toList ++ ' ' :: rest) = .ok (some (token, ' ' :: rest)) :=
    take_operator_word is blank (by rwa [String.ofList_toList])
  cases op with
  | or => exact word "or" .or (by decide) rfl
  | and => exact word "and" .and (by decide) rfl
  | div => exact word "div" .div (by decide) rfl
  | mod => exact word "mod" .mod (by decide) rfl
  | _ => rfl

end Operators

/-- A rest that ends what stands in front of it. A slash or a predicate may follow what binds
tightest. -/
def Closes (tight : Bool) (rest : List Char) : Prop :=
  ∀ c, rest.head? = some c → c ∈ [' ', ')', ']', ','] ∨ (tight = true ∧ c ∈ ['/', '['])

/-- A text spells tokens when it is cut into them in front of every rest that closes it. -/
def Spells (tight : Bool) (text : String) (tokens : List Token) : Prop :=
  ∀ rest more, Closes tight rest → lex rest = .ok more →
    lex (text.toList ++ rest) = .ok (tokens ++ more)

section Single
variable {tight : Bool} {rest : List Char} {c : Char}

theorem closes_apart (closes : Closes tight rest) (first : rest.head? = some c) :
    isNameChar c = false ∧ isDigit c = false ∧ c ≠ ':' ∧ c ≠ '.' ∧ c ≠ '"' := by
  have among := List.mem_append.mpr ((closes c first).imp_right (·.2))
  simp only [List.cons_append, List.nil_append, List.mem_cons, List.not_mem_nil, or_false] at among
  rcases among with rfl | rfl | rfl | rfl | rfl | rfl <;> decide

theorem closes_word (closes : Closes tight rest) : EndsWord rest :=
  fun _ first => (closes_apart closes first).1

theorem closes_closed (closed : c ∈ [' ', ')', ']', ',']) : Closes tight (c :: rest) := by
  rintro _ ⟨⟩
  exact .inl closed

theorem closes_going_on (more : c ∈ ['/', '[']) : Closes true (c :: rest) := by
  rintro _ ⟨⟩
  exact .inr ⟨rfl, more⟩

theorem spells_nothing : Spells tight "" [] := fun _ _ _ cut => cut

theorem Spells.loosen {text : String} {tokens : List Token} (spells : Spells true text tokens) :
    Spells tight text tokens :=
  fun rest more closes cut =>
    spells rest more (fun c first => (closes c first).imp_right fun later => ⟨rfl, later.2⟩) cut

/-- A text that one token is taken from spells that token. -/
theorem spells_token {text : String} {token : Token}
    (taken : ∀ rest, Closes tight rest →
      takeToken (text.toList ++ rest) = .ok (some (token, rest))) :
    Spells tight text [token] :=
  fun rest _ closes cut => cut_token (taken rest closes) cut

theorem spells_name {written : String} (is : IsName written) :
    Spells tight written [.name written] :=
  spells_token fun _ closes =>
    take_name is (closes_word closes) fun colon => (closes_apart closes colon).2.2.1 rfl

theorem spells_wildcard {label : String} (is : IsPlain label.toList) :
    Spells tight (label ++ ":*") [.labelWildcard label] :=
  spells_token fun _ _ => by simpa using take_wildcard is

theorem spells_literal (value : String) : Spells tight (literal value) [.string value] :=
  spells_token fun _ closes =>
    take_literal value fun quote => (closes_apart closes quote).2.2.2.2 rfl

theorem spells_number {x : Number.Finite} (plus : x.negative = false) :
    Spells tight (Number.queryText (.finite x)) [.number (.finite x)] := by
  refine spells_token fun rest closes => take_number plus fun c first => ?_
  exact ⟨(closes_apart closes first).2.1, (closes_apart closes first).2.2.2.1⟩

theorem spells_star : Spells tight "*" [.star] := spells_token fun _ _ => rfl

theorem spells_parent : Spells tight ".." [.doubleDot] := spells_token fun _ _ => rfl

theorem spells_context : Spells tight "." [.dot] := by
  refine spells_token fun rest closes => ?_
  cases rest with
  | nil => rfl
  | cons c rest =>
    obtain ⟨-, digit, -, point, -⟩ := closes_apart closes rfl
    have other : ('.' == c) = false := by simp [Ne.symm point]
    simp [takeToken, startsNumber, digit, takeSign, signs, List.isPrefixOf, other,
      show isDigit '.' = false by decide]

theorem spells_root : Spells false "/" [.slash] := by
  refine spells_token fun rest closes => ?_
  have single : rest.head? ≠ some '/' := by
    intro slash
    rcases closes _ slash with closed | ⟨tight, _⟩
    · exact absurd closed (by decide)
    · cases tight
  rw [show "/".toList ++ rest = '/' :: rest from rfl, take_slash, if_neg single]

/-- With nothing after it a text is cut into the tokens it spells. -/
theorem tokenize_spelled {text : String} {tokens : List Token} (spelled : Spells tight text tokens) :
    tokenize text = .ok tokens := by
  have cut := spelled [] [] nofun lex_end
  rw [List.append_nil, List.append_nil] at cut
  exact tokenize_ok_iff.mpr cut

end Single

section Composed
variable {tight within : Bool} {a b : String} {front back : List Token}

theorem spells_wrapped (inner : Spells tight a front) :
    Spells true ("(" ++ a ++ ")") (.leftParen :: front ++ [.rightParen]) := by
  intro rest more _ cut
  have closed := cut_fixed (c := ')') rfl cut
  have middle := inner _ _ (closes_closed (by decide)) closed
  simpa using cut_fixed (c := '(') rfl middle

theorem spells_infix (op : BinaryOp) (left : Spells within a front) (right : Spells tight b back) :
    Spells tight (a ++ " " ++ op.symbol ++ " " ++ b) (front ++ operatorToken op :: back) := by
  intro rest more closes cut
  have after := cut_blank (right rest more closes cut)
  have sign := cut_blank (cut_token (take_operator op _) after)
  simpa using left _ _ (closes_closed (by decide)) sign

theorem spells_union (left : Spells within a front) (right : Spells tight b back) :
    Spells tight (a ++ " | " ++ b) (front ++ .pipe :: back) := by
  intro rest more closes cut
  have after := cut_blank (right rest more closes cut)
  have sign := cut_blank (cut_fixed (c := '|') rfl after)
  simpa using left _ _ (closes_closed (by decide)) sign

theorem spells_comma (first : Spells within a front) (others : Spells tight b back) :
    Spells tight (a ++ ", " ++ b) (front ++ .comma :: back) := by
  intro rest more closes cut
  have after := cut_blank (others rest more closes cut)
  have sign := cut_fixed (c := ',') rfl after
  simpa using first _ _ (closes_closed (by decide)) sign

theorem spells_signed {c : Char} {token : Token} (sign : fixedSign? c = some token)
    (inner : Spells tight b back) : Spells tight (String.singleton c ++ b) (token :: back) := by
  intro rest more closes cut
  simpa using cut_fixed sign (inner rest more closes cut)

theorem spells_call {function : String} (is : IsName function) (inner : Spells within b back) :
    Spells tight (function ++ "(" ++ b ++ ")")
      (.name function :: .leftParen :: back ++ [.rightParen]) := by
  intro rest more _ cut
  have closed := cut_fixed (c := ')') rfl cut
  have middle := inner _ _ (closes_closed (by decide)) closed
  have opened := cut_fixed (c := '(') rfl middle
  have named : lex (function.toList ++ '(' :: _) = _ :=
    cut_token (take_name is (by rintro _ ⟨⟩; decide) (by simp)) opened
  simpa using named

theorem spells_axis {axis : String} (is : IsPlain axis.toList) (inner : Spells tight b back) :
    Spells tight (axis ++ "::" ++ b) (.axis axis :: back) := by
  intro rest more closes cut
  have taken : takeToken (axis.toList ++ ':' :: ':' :: (b.toList ++ rest)) =
      .ok (some (.axis axis, b.toList ++ rest)) := by
    simpa using take_axis is
  simpa using cut_token taken (inner rest more closes cut)

theorem spells_predicate (before : Spells true a front) (inner : Spells within b back) :
    Spells true (a ++ ("[" ++ b ++ "]")) (front ++ (.leftBracket :: back ++ [.rightBracket])) := by
  intro rest more _ cut
  have closed := cut_fixed (c := ']') rfl cut
  have middle := inner _ _ (closes_closed (by decide)) closed
  have opened := cut_fixed (c := '[') rfl middle
  simpa using before _ _ (closes_going_on (by decide)) opened

theorem spells_path (left : Spells true a front) (right : Spells true b back)
    (apart : NoSlash back) : Spells true (a ++ "/" ++ b) (front ++ .slash :: back) := by
  intro rest more closes cut
  have after := right rest more closes cut
  have single := no_slash_in_front after (apart.append more)
  simpa using left _ _ (closes_going_on (by decide)) (cut_slash single after)

theorem spells_rooted (right : Spells true b back) (apart : NoSlash back) :
    Spells true ("/" ++ b) (.slash :: back) := by
  intro rest more closes cut
  have after := right rest more closes cut
  simpa using cut_slash (no_slash_in_front after (apart.append more)) after

theorem spells_root_descent (right : Spells true b back) :
    Spells true ("//" ++ b) (.doubleSlash :: back) := by
  intro rest more closes cut
  simpa using cut_double_slash (right rest more closes cut)

theorem spells_descent (left : Spells true a front) (right : Spells true b back) :
    Spells true (a ++ "//" ++ b) (front ++ .doubleSlash :: back) := by
  intro rest more closes cut
  have after := cut_double_slash (right rest more closes cut)
  simpa using left _ _ (closes_going_on (by decide)) after

end Composed

end RangeIndex.SpelledText

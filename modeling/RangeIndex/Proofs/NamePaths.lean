import RangeIndex.Proofs.ReadingOrder
import RangeIndex.Proofs.ReadingRules
import RangeIndex.Proofs.SpelledText

/-! Paths of names. A slash with a name after it is a step to the children of that name, and names with
slashes in front of them are read as the path of these steps from the root. The four words that are
operators are no names, wherever they stand: a path that has one is read as something else. -/
namespace RangeIndex.NamePaths
open Text Query TokenSpelling TokenText SpelledText ReadingRules ReadingOrder

/-- The text of a path: a slash in front of each name. -/
def pathText (names : List String) : String := String.join (names.map ("/" ++ ·))

/-- The step to the children of a name. -/
def childStep (name : String) : Expr := .step ⟨.child, .named name, []⟩

/-- The steps to the children of each name in turn, after a base. -/
def stepsFrom (base : Expr) (names : List String) : Expr :=
  names.foldl (fun left name => .path left (childStep name)) base

section Tokens

/-- The token of a word: an operator, or else a name. -/
def wordToken (word : String) : Token := (operatorWords.lookup word).getD (.name word)

/-- The tokens of a path. -/
def pathTokens (names : List String) : List Token :=
  names.flatMap fun name => [.slash, wordToken name]

theorem operator_word_iff {word : String} :
    operatorWords.lookup word = none ↔ word ∉ ["and", "or", "mod", "div"] := by
  simp [List.lookup_eq_none_iff, operatorWords]

theorem take_word_token {word rest : List Char} (is : IsWord word) (ends : EndsWord rest)
    (colon : rest.head? ≠ some ':') :
    takeToken (word ++ rest) = .ok (some (wordToken (String.ofList word), rest)) := by
  unfold wordToken
  cases operator : operatorWords.lookup (String.ofList word) with
  | some token => exact take_operator_word is ends operator
  | none => exact take_plain ⟨is, operator⟩ ends colon

/-- What comes after a name is a slash. -/
theorem slash_next {names : List String} {c : Char}
    (next : (pathText names).toList.head? = some c) : c = '/' := by
  cases names with
  | nil => cases next
  | cons name names =>
    simp [pathText] at next
    exact next.symm

theorem path_cut {names : List String} (words : ∀ name ∈ names, IsWord name.toList) :
    lex (pathText names).toList = .ok (pathTokens names) := by
  induction names with
  | nil => exact lex_end
  | cons name names ih =>
    obtain ⟨is, others⟩ := List.forall_mem_cons.mp words
    have text : (pathText (name :: names)).toList =
        '/' :: (name.toList ++ (pathText names).toList) := by
      simp [pathText]
    have ends : EndsWord (pathText names).toList := by
      intro c next
      rw [slash_next next]
      decide
    have colon : (pathText names).toList.head? ≠ some ':' := fun next =>
      absurd (slash_next next) (by decide)
    have single : (name.toList ++ (pathText names).toList).head? ≠ some '/' := by
      obtain ⟨starts, _⟩ := is
      cases letters : name.toList with
      | nil => simp [letters] at starts
      | cons c later =>
        rintro ⟨⟩
        simp [letters, show isNameStart '/' = false by decide] at starts
    rw [text]
    have taken := take_word_token is ends colon
    rw [String.ofList_toList] at taken
    exact cut_slash single (cut_token taken (ih others))

theorem path_tokenized {names : List String} (words : ∀ name ∈ names, IsWord name.toList) :
    tokenize (pathText names) = .ok (pathTokens names) :=
  tokenize_ok_iff.mpr (path_cut words)

end Tokens

section Reading
variable {base : Expr} {names : List String} {front : List Token}

theorem child_step_read (name : String) : Whole 9 false (childStep name) [.name name] :=
  step_reads .child (.named name) no_predicates

theorem steps_read (first : Chain 8 false base front) (names : List String) :
    Chain 8 false (stepsFrom base names) (front ++ names.flatMap fun name => [.slash, .name name]) := by
  induction names generalizing base front with
  | nil => simpa [stepsFrom] using first
  | cons name names ih =>
    have next := ih (path_reads first (child_step_read name))
    simpa [stepsFrom] using next

theorem plain_tokens (plain : ∀ name ∈ names, operatorWords.lookup name = none) :
    pathTokens names = names.flatMap fun name => [.slash, .name name] := by
  refine List.flatMap_congr fun name member => ?_
  rw [wordToken, plain name member]
  rfl

/-- Names that are no operators are read as the path of their steps. -/
theorem plain_path_read (some' : names ≠ [])
    (plain : ∀ name ∈ names, operatorWords.lookup name = none) :
    parseTokens (pathTokens names) = .ok (stepsFrom .root names) := by
  rw [plain_tokens plain]
  obtain ⟨name, names, rfl⟩ := List.exists_cons_of_ne_nil some'
  have first := rooted_reads (child_step_read name) rfl
  have chain := steps_read first names
  exact ((chain.whole (by decide)).loosen (by decide) (by decide)).parsed

end Reading

section Mentioning

theorem mentions_steps (base : Expr) (names : List String) :
    mentions (stepsFrom base names) = mentions base ++ names.map .named := by
  induction names generalizing base with
  | nil => simp [stepsFrom]
  | cons name names ih =>
    have next := ih (.path base (childStep name))
    simpa [stepsFrom, mentions, childStep, stepMentions, testMentions, predicatesMentions] using next

theorem operator_says_nothing {word : String} {token : Token}
    (operator : operatorWords.lookup word = some token) (rest : List Token) :
    carries token rest = false := by
  have silent : ∀ entry ∈ operatorWords, carries entry.2 rest = false := by
    simp [operatorWords, carries]
  obtain ⟨_, _, among, _⟩ := List.lookup_eq_some_iff.mp operator
  exact silent (_, token) (among ▸ List.mem_append_right _ List.mem_cons_self)

/-- Of the words of a path the tokens say just those that are no operators. -/
theorem carriers_of_path (names : List String) : carriers (pathTokens names) =
    (names.filter fun name => (operatorWords.lookup name).isNone).map .name := by
  induction names with
  | nil => rfl
  | cons name names ih =>
    have tokens : pathTokens (name :: names) = .slash :: wordToken name :: pathTokens names := rfl
    have uncalled : Uncalled (pathTokens names) := by cases names <;> simp [Uncalled, pathTokens]
    rw [tokens, carriers, if_neg (by simp [carries]), carriers, wordToken]
    cases operator : operatorWords.lookup name with
    | some token =>
      simpa [operator_says_nothing operator, operator] using ih
    | none =>
      simpa [name_carries uncalled, operator] using ih

end Mentioning

/-- Names with slashes in front of them are read as the path of their steps from the root exactly
where none of them is an operator. -/
theorem name_path_read_iff {names : List String} (some' : names ≠ [])
    (words : ∀ name ∈ names, IsWord name.toList) :
    parse (pathText names) = .ok (stepsFrom .root names) ↔
      ∀ name ∈ names, name ∉ ["and", "or", "mod", "div"] := by
  have cut := path_tokenized words
  simp only [← operator_word_iff]
  constructor
  · intro read name member
    have told := (parse_tells cut read).length_eq
    rw [carriers_of_path, mentions_steps, mentions, List.nil_append, List.length_map,
      List.length_map] at told
    exact Option.isNone_iff_eq_none.mp (List.length_filter_eq_length_iff.mp told name member)
  · intro plain
    rw [parse, cut]
    exact plain_path_read some' plain

/-- Names of node tests and of axes are names like any other where no parenthesis and no colons come
after them. -/
theorem node_and_child_named :
    ["node", "child", "order"] ≠ [] ∧ (∀ name ∈ ["node", "child", "order"], IsWord name.toList) ∧
      (∀ name ∈ ["node", "child", "order"], name ∉ ["and", "or", "mod", "div"]) ∧
      parse (pathText ["node", "child", "order"]) =
        .ok (stepsFrom .root ["node", "child", "order"]) := by
  have words : ∀ name ∈ ["node", "child", "order"], IsWord name.toList := by decide
  have plain : ∀ name ∈ ["node", "child", "order"], name ∉ ["and", "or", "mod", "div"] := by decide
  exact ⟨by decide, words, plain, (name_path_read_iff (by decide) words).mpr plain⟩

/-- The word for a conjunction is a name by its letters, and no element is found by it. -/
theorem conjunction_not_named :
    IsWord "and".toList ∧ parse (pathText ["and"]) = .error .unexpectedEnd := by
  have cut : tokenize (pathText ["and"]) = .ok [.slash, .and] := path_tokenized (by decide)
  refine ⟨by decide, ?_⟩
  rw [parse, cut]
  rfl

end RangeIndex.NamePaths

import RangeIndex.Query.Budget

/-! The grammar that the readers follow, rule by rule, with the budgets left out: a reader takes an
expression off the tokens when every large enough budget lets it. Places order the readers, from
one for the loosest operators to nine for a single step. At each place but the last a reader takes an
expression of the next place and goes on with it as the left part of a longer one, as far as the
tokens let it. -/
namespace RangeIndex.ReadingRules
open Query

/-- A reader takes something off the tokens once its budget is large enough. -/
def Reads {α : Type} (read : Nat → List Token → Except QueryError (Taken α)) (tokens : List Token)
    (a : α) (rest : List Token) : Prop :=
  ∃ enough, ∀ budget, enough ≤ budget → read budget tokens = .ok (a, rest)

section Calls
variable {α β γ : Type} {read : Nat → List Token → Except QueryError (Taken α)}
  {call : Nat → List Token → Except QueryError (Taken β)}
  {other : Nat → List Token → Except QueryError (Taken γ)}
  {tokens rest before middle after left : List Token} {a : α} {b : β} {c : γ}

theorem reads_at_once (step : ∀ budget, read (budget + 1) tokens = .ok (a, rest)) :
    Reads read tokens a rest := by
  refine ⟨1, fun budget enough => ?_⟩
  cases budget with
  | zero => omega
  | succ budget => exact step budget

theorem reads_by_call (first : Reads call before b middle)
    (step : ∀ budget, call budget before = .ok (b, middle) →
      read (budget + 1) tokens = .ok (a, rest)) : Reads read tokens a rest := by
  obtain ⟨enough, first⟩ := first
  refine ⟨enough + 1, fun budget more => ?_⟩
  cases budget with
  | zero => omega
  | succ budget => exact step budget (first budget (by omega))

theorem reads_by_calls (first : Reads call before b middle) (second : Reads other after c left)
    (step : ∀ budget, call budget before = .ok (b, middle) →
      other budget after = .ok (c, left) → read (budget + 1) tokens = .ok (a, rest)) :
    Reads read tokens a rest := by
  obtain ⟨enough, first⟩ := first
  obtain ⟨more, second⟩ := second
  refine ⟨max enough more + 1, fun budget bound => ?_⟩
  cases budget with
  | zero => omega
  | succ budget => exact step budget (first budget (by omega)) (second budget (by omega))

end Calls

section Places

/-- The reader of a place. -/
def readAt : Nat → Nat → List Token → Except QueryError (Taken Expr)
  | 7 => readSigned
  | 8 => readPath
  | 9 => readStepExpr
  | place => (readLevel · place)

/-- How the reader of a place goes on after the left part. -/
def goOn : Nat → Expr → Nat → List Token → Except QueryError (Taken Expr)
  | 7, left => (readUnions · left)
  | 8, left => (readSteps · left)
  | place, left => (readOperators · place left)

/-- The place whose reader goes on at a token, nought where none does. No expression is followed by
any of the remaining tokens. -/
def goesOnAt : Token → Nat
  | .rightParen | .rightBracket | .comma => 0
  | .pipe => 7
  | .slash | .doubleSlash => 8
  | .leftBracket => 9
  | token => ((BinaryOp.ofToken? token).map (·.strength)).getD 10

/-- The tightest place that an expression beginning with a token can stand at. -/
def opensAt : Token → Nat
  | .minus => 7
  | .slash | .doubleSlash => 8
  | .number _ | .string _ | .dot | .doubleDot | .dollar | .leftParen | .name _ | .atSign | .axis _
  | .star | .labelWildcard _ => 9
  | _ => 0

/-- The tokens begin an expression that can stand at a place. -/
def Begins (place : Nat) (tokens : List Token) : Prop :=
  ∃ token later, tokens = token :: later ∧ place ≤ opensAt token

/-- A rest that the reader of a place leaves alone, also after a bare slash when the expression in
front ends in one. -/
def Follows (place : Nat) (bare : Bool) (rest : List Token) : Prop :=
  ∀ token, rest.head? = some token → goesOnAt token < place ∧ (bare = true → token ≠ .star)

/-- The tokens are read at a place as the value and nothing else is taken. -/
structure Whole (place : Nat) (bare : Bool) (value : Expr) (tokens : List Token) : Prop where
  begins : Begins place tokens
  reads : ∀ {rest}, Follows place bare rest → Reads (readAt place) (tokens ++ rest) value rest

/-- The tokens are read at a place as the value, and reading goes on with it as the left part. -/
structure Chain (place : Nat) (bare : Bool) (value : Expr) (tokens : List Token) : Prop where
  begins : Begins place tokens
  reads : ∀ {rest e left}, Follows (place + 1) bare rest → Reads (goOn place value) rest e left →
    Reads (readAt place) (tokens ++ rest) e left

variable {place : Nat} {bare : Bool} {value e left : Expr} {tokens rest middle : List Token}

theorem Follows.loosen {other : Nat} (follows : Follows place bare rest) (le : place ≤ other) :
    Follows other bare rest :=
  fun token first => ⟨Nat.lt_of_lt_of_le (follows token first).1 le, (follows token first).2⟩

theorem Begins.loosen {other : Nat} (begins : Begins place tokens) (le : other ≤ place) :
    Begins other tokens := by
  obtain ⟨token, later, same, opens⟩ := begins
  exact ⟨token, later, same, Nat.le_trans le opens⟩

theorem Begins.append (begins : Begins place tokens) (more : List Token) :
    Begins place (tokens ++ more) := by
  obtain ⟨token, later, rfl, opens⟩ := begins
  exact ⟨token, later ++ more, rfl, opens⟩

theorem at_level (low : place < 7) : readAt place = (readLevel · place) := by
  unfold readAt
  split <;> first | omega | rfl

theorem go_on_level (low : place < 7) : goOn place value = (readOperators · place value) := by
  unfold goOn
  split <;> first | omega | rfl

/-- The tightest operators have signed expressions on either side. -/
theorem level_of_next (low : place < 7) (reads : Reads (readAt (place + 1)) tokens value rest) :
    Reads (readLevel · (place + 1)) tokens value rest := by
  by_cases tightest : place = 6
  · subst tightest
    exact reads_by_call reads fun budget ran => ran
  · rwa [at_level (by omega)] at reads

theorem no_operator (follows : Follows place bare rest) : takeOperator place rest = none := by
  cases rest with
  | nil => rfl
  | cons token later =>
    have looser := (follows token rfl).1
    cases stands : BinaryOp.ofToken? token with
    | none => simp [takeOperator, BinaryOp.at?, stands]
    | some op =>
      have own : goesOnAt token = op.strength := by
        cases token <;> cases stands <;> rfl
      have other : op.strength ≠ place := own ▸ Nat.ne_of_lt looser
      simp [takeOperator, BinaryOp.at?, stands, other]

/-- The reader of a place stops with its left part in front of what may follow. -/
theorem stops (low : place < 9) (follows : Follows place bare rest) :
    Reads (goOn place value) rest value rest := by
  refine reads_at_once fun budget => ?_
  rcases (by omega : place < 7 ∨ place = 7 ∨ place = 8) with level | rfl | rfl
  · rw [go_on_level level]
    dsimp only
    rw [readOperators, no_operator follows]
  · simp only [goOn]
    unfold readUnions
    split
    · exact absurd (follows _ rfl).1 (by decide)
    · rfl
  · simp only [goOn]
    unfold readSteps
    split
    · exact absurd (follows _ rfl).1 (by decide)
    · exact absurd (follows _ rfl).1 (by decide)
    · rfl

/-- What is read at the next place is the left part of what is read here. -/
theorem goes_on (low : place < 9) (begins : Begins (place + 1) tokens)
    (first : Reads (readAt (place + 1)) tokens left middle)
    (others : Reads (goOn place left) middle e rest) : Reads (readAt place) tokens e rest := by
  rcases (by omega : place < 7 ∨ place = 7 ∨ place = 8) with level | rfl | rfl
  · have operand := level_of_next level first
    rw [at_level level]
    rw [go_on_level level] at others
    refine reads_by_calls operand others fun budget ran went => ?_
    rw [readLevel, if_neg (by unfold BinaryOp.strongest; omega), ran]
    exact went
  · obtain ⟨token, later, rfl, opens⟩ := begins
    refine reads_by_calls first others fun budget ran went => ?_
    simp only [readAt, goOn] at ran went ⊢
    unfold readSigned
    split
    · next same => cases same; exact absurd opens (by decide)
    · rw [ran]
      exact went
  · obtain ⟨token, later, rfl, opens⟩ := begins
    refine reads_by_calls first others fun budget ran went => ?_
    simp only [readAt, goOn] at ran went ⊢
    unfold readPath
    split
    · next same => cases same; exact absurd opens (by decide)
    · next same => cases same; exact absurd opens (by decide)
    · rw [ran]
      exact went

/-- Where reading goes on, it stops in front of what may follow. -/
theorem Chain.whole (low : place < 9) (chain : Chain place bare value tokens) :
    Whole place bare value tokens :=
  ⟨chain.begins, fun follows => chain.reads (follows.loosen (Nat.le_succ _)) (stops low follows)⟩

/-- What is whole at the next place is a left part here. -/
theorem Whole.chain (low : place < 9) (whole : Whole (place + 1) bare value tokens) :
    Chain place bare value tokens :=
  ⟨whole.begins.loosen (Nat.le_succ _),
    fun follows others => goes_on low (whole.begins.append _) (whole.reads follows) others⟩

theorem Whole.loosen {other : Nat} (whole : Whole other bare value tokens) (high : other ≤ 9)
    (le : place ≤ other) : Whole place bare value tokens := by
  obtain ⟨spare, rfl⟩ := Nat.exists_eq_add_of_le le
  induction spare with
  | zero => exact whole
  | succ spare ih =>
    have next : Chain (place + spare) bare value tokens := Whole.chain (by omega) whole
    exact ih (next.whole (by omega)) (by omega) (by omega)

end Places

section Operators
variable {place : Nat} {bare open' : Bool} {left right inner : Expr}
  {front back tokens : List Token}

theorem operator_follows {op : BinaryOp} {token : Token} (sign : BinaryOp.ofToken? token = some op)
    (star : bare = true → op ≠ .mul) (later : List Token) :
    Follows (op.strength + 1) bare (token :: later) := by
  rintro _ ⟨⟩
  cases token <;> cases sign <;> simp_all [goesOnAt, BinaryOp.ofToken?]

theorem binary_reads {op : BinaryOp} {token : Token} (sign : BinaryOp.ofToken? token = some op)
    (star : bare = true → op ≠ .mul) (first : Chain op.strength bare left front)
    (second : Whole (op.strength + 1) open' right back) :
    Chain op.strength open' (.binary left op right) (front ++ token :: back) := by
  have low : op.strength < 7 := by cases op <;> decide
  refine ⟨first.begins.append _, fun {rest e more} follows others => ?_⟩
  rw [List.append_assoc, List.cons_append]
  refine first.reads (operator_follows sign star _) ?_
  have operand := level_of_next low (second.reads follows)
  rw [go_on_level low] at others ⊢
  refine reads_by_calls operand others fun budget ran went => ?_
  have taken : takeOperator op.strength (token :: (back ++ rest)) = some (op, back ++ rest) := by
    simp [takeOperator, BinaryOp.at?, sign]
  rw [readOperators, taken]
  dsimp only
  rw [ran]
  exact went

theorem union_reads (first : Chain 7 bare left front) (second : Whole 8 open' right back) :
    Chain 7 open' (.union left right) (front ++ .pipe :: back) := by
  refine ⟨first.begins.append _, fun {rest e more} follows others => ?_⟩
  rw [List.append_assoc, List.cons_append]
  refine first.reads (by rintro _ ⟨⟩; exact ⟨by decide, by simp⟩) ?_
  refine reads_by_calls (second.reads follows) others fun budget ran went => ?_
  simp only [readAt, goOn] at ran went ⊢
  rw [readUnions, ran]
  exact went

theorem negate_reads (whole : Whole 7 bare inner tokens) :
    Whole 7 bare (.negate inner) (.minus :: tokens) := by
  refine ⟨⟨.minus, tokens, rfl, by decide⟩, fun follows => ?_⟩
  refine reads_by_call (whole.reads follows) fun budget ran => ?_
  simp only [readAt, List.cons_append] at ran ⊢
  rw [readSigned, ran]
  rfl

end Operators

section Paths
variable {bare open' : Bool} {left right : Expr} {front back : List Token}

theorem root_reads : Whole 8 true .root [.slash] := by
  refine ⟨⟨.slash, [], rfl, by decide⟩, fun {rest} follows => reads_at_once fun budget => ?_⟩
  have alone : startsStep rest = false := by
    cases rest with
    | nil => rfl
    | cons token later =>
      obtain ⟨looser, star⟩ := follows token rfl
      cases token with
      | star => exact absurd rfl (star rfl)
      | atSign | axis | labelWildcard | name | dot | doubleDot =>
        exact absurd looser (by simp [goesOnAt, BinaryOp.ofToken?])
      | _ => rfl
  simp [readAt, readPath, alone]

theorem path_reads (first : Chain 8 bare left front) (second : Whole 9 open' right back) :
    Chain 8 open' (.path left right) (front ++ .slash :: back) := by
  refine ⟨first.begins.append _, fun {rest e more} follows others => ?_⟩
  rw [List.append_assoc, List.cons_append]
  refine first.reads (by rintro _ ⟨⟩; exact ⟨by decide, by simp⟩) ?_
  refine reads_by_calls (second.reads follows) others fun budget ran went => ?_
  simp only [readAt, goOn] at ran went ⊢
  rw [readSteps, ran]
  exact went

theorem descent_reads (first : Chain 8 bare left front) (second : Whole 9 open' right back) :
    Chain 8 open' (descend left right) (front ++ .doubleSlash :: back) := by
  refine ⟨first.begins.append _, fun {rest e more} follows others => ?_⟩
  rw [List.append_assoc, List.cons_append]
  refine first.reads (by rintro _ ⟨⟩; exact ⟨by decide, by simp⟩) ?_
  refine reads_by_calls (second.reads follows) others fun budget ran went => ?_
  simp only [readAt, goOn] at ran went ⊢
  rw [readSteps, ran]
  exact went

theorem starts_step_append (starts : startsStep back = true) (more : List Token) :
    startsStep (back ++ more) = true := by
  cases back with
  | nil => cases starts
  | cons token later => cases token <;> first | rfl | cases starts

theorem rooted_reads (second : Whole 9 bare right back) (steps : startsStep back = true) :
    Chain 8 bare (.path .root right) (.slash :: back) := by
  refine ⟨⟨.slash, back, rfl, by decide⟩, fun {rest e more} follows others => ?_⟩
  refine reads_by_calls (second.reads follows) others fun budget ran went => ?_
  have starts := starts_step_append steps rest
  simp only [readAt, goOn, List.cons_append] at ran went ⊢
  rw [readPath, if_pos starts, ran]
  exact went

theorem root_descent_reads (second : Whole 9 bare right back) :
    Chain 8 bare (descend .root right) (.doubleSlash :: back) := by
  refine ⟨⟨.doubleSlash, back, rfl, by decide⟩, fun {rest e more} follows others => ?_⟩
  refine reads_by_calls (second.reads follows) others fun budget ran went => ?_
  simp only [readAt, goOn, List.cons_append] at ran went ⊢
  rw [readPath, ran]
  exact went

end Paths

/-- The tokens are read as a list of expressions up to a closing parenthesis or bracket. -/
structure Listed (values : List Expr) (tokens : List Token) : Prop where
  begins : Begins 1 tokens
  reads : ∀ {rest}, (∀ token, rest.head? = some token → token = .rightParen ∨ token = .rightBracket) →
    Reads readList (tokens ++ rest) values rest

/-- The tokens are read as predicates up to anything but another one. -/
structure Bracketed (predicates : List Predicate) (tokens : List Token) : Prop where
  front : tokens = [] ∨ tokens.head? = some .leftBracket
  reads : ∀ {rest}, rest.head? ≠ some .leftBracket →
    Reads readPredicates (tokens ++ rest) predicates rest

/-- The tokens up to a closing parenthesis are read as the expressions between parentheses. -/
def Enclosed (values : List Expr) (tokens : List Token) : Prop :=
  ∀ rest, Reads readEnclosed (tokens ++ .rightParen :: rest) values rest

/-- The tokens are read as an expression that predicates may filter. -/
structure Primary (value : Expr) (tokens : List Token) : Prop where
  begins : Begins 9 tokens
  apart : ∀ rest, isLocationStep (tokens ++ rest) = false
  reads : ∀ rest, Reads readPrimary (tokens ++ rest) value rest

section Lists
variable {bare : Bool} {value : Expr} {values items : List Expr} {predicates : List Predicate}
  {front back : List Token}

theorem list_last (whole : Whole 1 bare value front) : Listed [value] front := by
  refine ⟨whole.begins, fun {rest} ends => ?_⟩
  have follows : Follows 1 bare rest := by
    intro token first
    rcases ends token first with rfl | rfl <;> exact ⟨by decide, by simp⟩
  refine reads_by_call (whole.reads follows) fun budget ran => ?_
  simp only [readAt] at ran
  rw [readList, ran]
  cases rest with
  | nil => rfl
  | cons token later => rcases ends token rfl with rfl | rfl <;> rfl

theorem list_more (whole : Whole 1 bare value front) (others : Listed values back) :
    Listed (value :: values) (front ++ .comma :: back) := by
  refine ⟨whole.begins.append _, fun {rest} ends => ?_⟩
  rw [List.append_assoc, List.cons_append]
  have follows : Follows 1 bare (.comma :: (back ++ rest)) := by
    rintro _ ⟨⟩
    exact ⟨by decide, by simp⟩
  refine reads_by_calls (whole.reads follows) (others.reads ends) fun budget ran went => ?_
  simp only [readAt] at ran
  rw [readList, ran]
  dsimp only [bind, Except.bind]
  rw [went]
  rfl

theorem no_predicates : Bracketed [] [] := by
  refine ⟨.inl rfl, fun {rest} other => reads_at_once fun budget => ?_⟩
  rw [List.nil_append]
  unfold readPredicates
  split
  · exact absurd rfl other
  · rfl

theorem predicate_more (inside : Listed items front) (others : Bracketed predicates back) :
    Bracketed (items :: predicates) (.leftBracket :: front ++ .rightBracket :: back) := by
  refine ⟨.inr rfl, fun {rest} other => ?_⟩
  have first : Reads readList (front ++ .rightBracket :: (back ++ rest)) items
      (.rightBracket :: (back ++ rest)) := inside.reads (by rintro _ ⟨⟩; exact .inr rfl)
  refine reads_by_calls first (others.reads other) fun budget ran went => ?_
  rw [List.cons_append, List.cons_append, List.append_assoc, List.cons_append, readPredicates, ran]
  dsimp only [bind, Except.bind, expect]
  rw [if_pos rfl]
  dsimp only
  rw [went]
  rfl

theorem enclosed_none : Enclosed [] [] := fun _ => reads_at_once fun _ => rfl

theorem enclosed_list (inside : Listed values front) : Enclosed values front := by
  intro rest
  obtain ⟨token, later, rfl, opens⟩ := inside.begins
  have first : Reads readList (token :: later ++ .rightParen :: rest) values (.rightParen :: rest) :=
    inside.reads (by rintro _ ⟨⟩; exact .inl rfl)
  refine reads_by_call first fun budget ran => ?_
  rw [List.cons_append] at ran ⊢
  unfold readEnclosed
  split
  · next same => cases same; exact absurd opens (by decide)
  · rw [ran]
    rfl

end Lists

section Primaries
variable {value : Expr} {values : List Expr} {predicates : List Predicate}
  {front back : List Token}

theorem token_primary {token : Token} (opens : opensAt token = 9)
    (apart : ∀ rest, isLocationStep (token :: rest) = false)
    (reads : ∀ budget rest, readPrimary (budget + 1) (token :: rest) = .ok (value, rest)) :
    Primary value [token] :=
  ⟨⟨token, [], rfl, Nat.le_of_eq opens.symm⟩, apart, fun rest => reads_at_once (reads · rest)⟩

theorem variable_primary (name : String) : Primary (.var name) [.dollar, .name name] :=
  ⟨⟨.dollar, _, rfl, by decide⟩, fun _ => rfl, fun _ => reads_at_once fun _ => rfl⟩

theorem enclosed_primary (inside : Enclosed values front) :
    Primary (sequenceOf values) (.leftParen :: front ++ [.rightParen]) := by
  refine ⟨⟨.leftParen, _, rfl, by decide⟩, fun _ => rfl, fun rest => ?_⟩
  refine reads_by_call (inside rest) fun budget ran => ?_
  rw [List.cons_append, List.cons_append, List.append_assoc, List.singleton_append, readPrimary, ran]
  rfl

theorem call_primary {function : String} (other : isKindName function = false)
    (inside : Enclosed values front) :
    Primary (.call function values) (.name function :: .leftParen :: front ++ [.rightParen]) := by
  refine ⟨⟨.name function, _, rfl, Nat.le_refl 9⟩, fun _ => other, fun rest => ?_⟩
  refine reads_by_call (inside rest) fun budget ran => ?_
  simp only [List.cons_append, List.append_assoc, List.nil_append]
  rw [readPrimary]
  dsimp only [bind, Except.bind, expect]
  rw [if_pos rfl]
  dsimp only
  rw [ran]
  rfl

/-- An expression that predicates may filter is one that none filter. -/
theorem Primary.whole (primary : Primary value front) : Whole 9 false value front := by
  refine ⟨primary.begins, fun {rest} follows => ?_⟩
  have none : Reads readPredicates ([] ++ rest) [] rest :=
    no_predicates.reads fun bracket => absurd (follows _ bracket).1 (by decide)
  refine reads_by_calls (primary.reads rest) none fun budget ran went => ?_
  simp only [readAt, List.nil_append] at went ⊢
  rw [readStepExpr, if_neg (by simp [primary.apart rest]), ran]
  dsimp only [bind, Except.bind]
  rw [went]
  rfl

theorem filter_reads (primary : Primary value front) (brackets : Bracketed predicates back)
    (filled : predicates ≠ []) : Whole 9 false (.filter value predicates) (front ++ back) := by
  refine ⟨primary.begins.append _, fun {rest} follows => ?_⟩
  rw [List.append_assoc]
  have filters : Reads readPredicates (back ++ rest) predicates rest :=
    brackets.reads fun bracket => absurd (follows _ bracket).1 (by decide)
  refine reads_by_calls (primary.reads (back ++ rest)) filters fun budget ran went => ?_
  simp only [readAt]
  rw [readStepExpr, if_neg (by simp [primary.apart]), ran]
  dsimp only [bind, Except.bind]
  rw [went]
  simp [filtered, filled, pure, Except.pure]

end Primaries

section Steps
variable {axis : Axis} {test : NodeTest} {predicates : List Predicate} {rest back : List Token}

/-- The tokens of a node test. -/
def testTokens : NodeTest → List Token
  | .any => [.star]
  | .named written => [.name written]
  | .labelled label => [.labelWildcard label]
  | .node => [.name "node", .leftParen, .rightParen]
  | .text => [.name "text", .leftParen, .rightParen]
  | .comment => [.name "comment", .leftParen, .rightParen]
  | .instruction none => [.name "processing-instruction", .leftParen, .rightParen]
  | .instruction (some target) =>
    [.name "processing-instruction", .leftParen, .string target, .rightParen]

/-- The tokens of an axis with a node test. -/
def headTokens : Axis → NodeTest → List Token
  | .child, test => testTokens test
  | .attribute, test => .atSign :: testTokens test
  | axis, test => .axis axis.name :: testTokens test

theorem test_reads (test : NodeTest) (apart : rest.head? ≠ some .leftParen) :
    readNodeTest (testTokens test ++ rest) = .ok (test, rest) := by
  cases test with
  | named written =>
    cases rest with
    | nil => rfl
    | cons token later =>
      cases token with
      | leftParen => exact absurd rfl apart
      | _ => rfl
  | instruction target => cases target <;> rfl
  | _ => rfl

theorem child_is_unwritten (test : NodeTest) :
    readAxis (testTokens test ++ rest) = .ok (.child, testTokens test ++ rest) := by
  cases test with
  | instruction target => cases target <;> rfl
  | _ => rfl

theorem head_reads (axis : Axis) (test : NodeTest) (apart : rest.head? ≠ some .leftParen) :
    readStepHead (headTokens axis test ++ rest) = .ok ((axis, test), rest) := by
  have axes : readAxis (headTokens axis test ++ rest) = .ok (axis, testTokens test ++ rest) := by
    unfold headTokens
    split
    · exact child_is_unwritten test
    · rfl
    · rw [List.cons_append, readAxis, Axis.ofName?_name]
  rw [readStepHead, axes]
  dsimp only [bind, Except.bind]
  rw [test_reads test apart]
  rfl

theorem head_is_step (axis : Axis) (test : NodeTest) (apart : rest.head? ≠ some .leftParen) :
    isLocationStep (headTokens axis test ++ rest) = true := by
  unfold headTokens
  split
  · cases test with
    | named written =>
      cases rest with
      | nil => rfl
      | cons token later =>
        cases token with
        | leftParen => exact absurd rfl apart
        | _ => rfl
    | instruction target => cases target <;> rfl
    | _ => rfl
  · rfl
  · rfl

theorem head_begins (axis : Axis) (test : NodeTest) : Begins 9 (headTokens axis test) := by
  unfold headTokens
  split
  · cases test with
    | instruction target => cases target <;> exact ⟨_, _, rfl, by decide⟩
    | _ => exact ⟨_, _, rfl, Nat.le_refl 9⟩
  · exact ⟨_, _, rfl, by decide⟩
  · exact ⟨_, _, rfl, Nat.le_refl 9⟩

theorem head_starts_step (axis : Axis) (test : NodeTest) (back : List Token) :
    startsStep (headTokens axis test ++ back) = true := by
  refine starts_step_append ?_ back
  unfold headTokens
  split
  · cases test with
    | instruction target => cases target <;> rfl
    | _ => rfl
  · rfl
  · rfl

theorem step_reads (axis : Axis) (test : NodeTest) (brackets : Bracketed predicates back) :
    Whole 9 false (.step ⟨axis, test, predicates⟩) (headTokens axis test ++ back) := by
  refine ⟨(head_begins axis test).append _, fun {rest} follows => ?_⟩
  have apart : (back ++ rest).head? ≠ some .leftParen := by
    intro opened
    rcases brackets.front with rfl | bracket
    · exact absurd (follows _ opened).1 (by decide)
    · rw [List.head?_append, bracket] at opened
      cases opened
  have filters : Reads readPredicates (back ++ rest) predicates rest :=
    brackets.reads fun bracket => absurd (follows _ bracket).1 (by decide)
  refine reads_by_call filters fun budget ran => ?_
  simp only [readAt]
  rw [List.append_assoc, readStepExpr, if_pos (head_is_step axis test apart),
    head_reads axis test apart]
  dsimp only [bind, Except.bind]
  rw [ran]
  rfl

end Steps

/-- Tokens that are read whole are what a query of them stands for. -/
theorem Whole.parsed {bare : Bool} {value : Expr} {tokens : List Token}
    (whole : Whole 1 bare value tokens) : parseTokens tokens = .ok value := by
  obtain ⟨enough, reads⟩ : Reads readList (tokens ++ []) [value] [] :=
    (list_last whole).reads nofun
  rw [List.append_nil] at reads
  have budget := Nat.le_max_left (levels * (tokens.length + 1)) enough
  rw [parseTokens_eq_of_le budget, reads _ (Nat.le_max_right _ _)]
  rfl

end RangeIndex.ReadingRules

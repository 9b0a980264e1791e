import Mathlib.Data.List.Forall2
import RangeIndex.Query.Budget

/-! What a query says stands in its expression in the order of the text. Names, strings, numbers and
predicates are mentioned by the expression one by one as the tokens say them: the readers leave none
out, add none and exchange no two, whatever they look ahead at and whatever parentheses they drop. The
step that two slashes stand for mentions nothing, and the name of a node test is part of the test. -/
namespace RangeIndex.ReadingOrder
open Query

section Mentions

/-- What an expression says besides its operators, axes and node tests. -/
inductive Mention where
  | named (written : String)
  | labelled (label : String)
  | literal (value : String)
  | numeral (value : Number)
  /-- The target of the test for an instruction. -/
  | target (written : String)
  /-- The beginning of a predicate. -/
  | predicate
deriving DecidableEq

def testMentions : NodeTest → List Mention
  | .named written => [.named written]
  | .labelled label => [.labelled label]
  | .instruction (some written) => [.target written]
  | _ => []

mutual

/-- What an expression mentions, in order: a function before its arguments, the left side of an
operator before the right, what is filtered before the predicates. A lookup mentions what the step does
that it stands in for. -/
def mentions : Expr → List Mention
  | .root | .context | .parent => []
  | .path left right => mentions left ++ mentions right
  | .step step => stepMentions step
  | .filter inner predicates => mentions inner ++ predicatesMentions predicates
  | .binary left _ right => mentions left ++ mentions right
  | .union left right => mentions left ++ mentions right
  | .negate inner => mentions inner
  | .call function arguments => .named function :: allMentions arguments
  | .sequence items => allMentions items
  | .string value => [.literal value]
  | .number value => [.numeral value]
  | .var name => [.named name]
  | .lookup ⟨_, fallback⟩ => stepMentions fallback

/-- What a step mentions: the name it tests for, then its predicates. -/
def stepMentions : Step → List Mention
  | ⟨_, test, predicates⟩ => testMentions test ++ predicatesMentions predicates

def allMentions : List Expr → List Mention
  | [] => []
  | x :: rest => mentions x ++ allMentions rest

def predicatesMentions : List Predicate → List Mention
  | [] => []
  | p :: rest => .predicate :: allMentions p ++ predicatesMentions rest

end

/-- The mentions of an expression that name something or give a value. -/
def wordsOf (e : Expr) : List Mention := (mentions e).filter (· ≠ .predicate)

/-- How many predicates an expression has, inside others or not. -/
def predicateCount (e : Expr) : Nat := (mentions e).count .predicate

theorem mentions_sequence_of (items : List Expr) : mentions (sequenceOf items) = allMentions items := by
  unfold sequenceOf
  split
  · rw [allMentions, allMentions, List.append_nil]
  · rfl

theorem mentions_filtered (inner : Expr) (predicates : List Predicate) :
    mentions (filtered inner predicates) = mentions inner ++ predicatesMentions predicates := by
  unfold filtered
  split
  · next none =>
    rw [List.isEmpty_iff.mp none, predicatesMentions, List.append_nil]
  · rfl

/-- The step that two slashes stand for mentions nothing. -/
theorem mentions_descend (base step : Expr) :
    mentions (descend base step) = mentions base ++ mentions step := by
  simp [descend, mentions, Step.descendantOrSelf, stepMentions, testMentions, predicatesMentions]

end Mentions

section Sayings

/-- Whether a token says something, in front of the others: signs do not, and neither does the name of
a node test that a parenthesis comes after. -/
def carries : Token → List Token → Bool
  | .name written, rest => !(isKindName written && decide (rest.head? = some .leftParen))
  | .labelWildcard _, _ | .string _, _ | .number _, _ | .leftBracket, _ => true
  | _, _ => false

/-- The tokens that say something. -/
def carriers : List Token → List Token
  | [] => []
  | token :: rest => if carries token rest then token :: carriers rest else carriers rest

/-- A token says what is mentioned. The target of a test may be quoted or not. -/
inductive Shows : Token → Mention → Prop where
  | named (written : String) : Shows (.name written) (.named written)
  | labelled (label : String) : Shows (.labelWildcard label) (.labelled label)
  | literal (value : String) : Shows (.string value) (.literal value)
  | numeral (value : Number) : Shows (.number value) (.numeral value)
  | namedTarget (written : String) : Shows (.name written) (.target written)
  | quotedTarget (written : String) : Shows (.string written) (.target written)
  | bracket : Shows .leftBracket .predicate

/-- The tokens up to the rest say what is mentioned, each one thing in turn. -/
def Says (tokens rest : List Token) (said : List Mention) : Prop :=
  ∃ front, carriers tokens = front ++ carriers rest ∧ List.Forall₂ Shows front said

variable {token : Token} {tokens middle rest : List Token} {first second said : List Mention}

theorem says_nothing (tokens : List Token) : Says tokens tokens [] := ⟨[], rfl, .nil⟩

theorem Says.append (before : Says tokens middle first) (after : Says middle rest second) :
    Says tokens rest (first ++ second) := by
  obtain ⟨front, same, shown⟩ := before
  obtain ⟨back, same', shown'⟩ := after
  exact ⟨front ++ back, by rw [same, same', List.append_assoc], List.rel_append shown shown'⟩

theorem says_behind_sign (silent : carries token tokens = false) (after : Says tokens rest said) :
    Says (token :: tokens) rest said := by
  obtain ⟨front, same, shown⟩ := after
  exact ⟨front, by rw [carriers, silent, if_neg Bool.false_ne_true, same], shown⟩

theorem says_behind {mention : Mention} (loud : carries token tokens = true)
    (shows' : Shows token mention) (after : Says tokens rest said) :
    Says (token :: tokens) rest (mention :: said) := by
  obtain ⟨front, same, shown⟩ := after
  exact ⟨token :: front, by rw [carriers, if_pos loud, same, List.cons_append], .cons shows' shown⟩

theorem says_token {mention : Mention} (loud : carries token rest = true)
    (shows' : Shows token mention) : Says (token :: rest) rest [mention] :=
  says_behind loud shows' (says_nothing rest)

/-- Tokens that do not begin with an opening parenthesis, so that a name in front of them is no call
and no node test. -/
def Uncalled (tokens : List Token) : Prop := tokens.head? ≠ some .leftParen

theorem name_carries {written : String} (uncalled : Uncalled rest) :
    carries (.name written) rest = true := by
  simp [carries, show ¬rest.head? = some .leftParen from uncalled]

end Sayings

section Heads
variable {tokens rest : List Token}

theorem expect_eq {token : Token} (taken : expect token tokens = .ok rest) :
    tokens = token :: rest := by
  cases tokens with
  | nil => cases taken
  | cons found tokens =>
    simp only [expect] at taken
    split at taken
    · next same =>
      cases taken
      rw [same]
    · cases taken

theorem axis_silent {axis : Axis} (taken : readAxis tokens = .ok (axis, rest)) :
    Says tokens rest [] := by
  unfold readAxis at taken
  split at taken
  · cases taken
    exact says_behind_sign rfl (says_nothing _)
  · split at taken
    · cases taken
      exact says_behind_sign rfl (says_nothing _)
    · cases taken
  · cases taken
    exact says_nothing _

theorem target_said (name : String) (tokens : List Token)
    (uncalled : Uncalled (takeTarget name tokens).2) :
    Says tokens (takeTarget name tokens).2
      (testMentions (kindTest name (takeTarget name tokens).1)) := by
  have plain : testMentions (kindTest name none) = [] := by
    unfold kindTest
    split
    · rfl
    · split
      · rfl
      · split <;> rfl
  unfold takeTarget at uncalled ⊢
  split
  · next instruction =>
    subst instruction
    split
    · exact says_token rfl (.quotedTarget _)
    · exact says_token (name_carries uncalled) (.namedTarget _)
    · exact says_nothing _
  · rw [plain]
    exact says_nothing _

theorem node_test_said {test : NodeTest} (taken : readNodeTest tokens = .ok (test, rest))
    (uncalled : Uncalled rest) : Says tokens rest (testMentions test) := by
  unfold readNodeTest at taken
  split at taken
  · cases taken
    exact says_behind_sign rfl (says_nothing _)
  · cases taken
    exact says_token rfl (.labelled _)
  · next name later =>
    split at taken
    · next kind =>
      have said := target_said name later
      generalize takeTarget name later = target at said taken
      obtain ⟨closed, expected, taken⟩ := bind_eq_ok taken
      cases taken
      rw [expect_eq expected] at said
      have name' : carries (.name name) (.leftParen :: later) = false := by simp [carries, kind]
      have closed' : Says (.rightParen :: rest) rest [] := says_behind_sign rfl (says_nothing _)
      have inside := (said (by simp [Uncalled])).append closed'
      rw [List.append_nil] at inside
      exact says_behind_sign name' (says_behind_sign rfl inside)
    · cases taken
      exact absurd rfl uncalled
  · cases taken
    exact says_token (name_carries uncalled) (.named _)
  · cases taken
  · cases taken

theorem step_head_said {head : Axis × NodeTest} (taken : readStepHead tokens = .ok (head, rest))
    (uncalled : Uncalled rest) : Says tokens rest (testMentions head.2) := by
  obtain ⟨⟨axis, later⟩, before, taken⟩ := bind_eq_ok taken
  obtain ⟨⟨test, last⟩, after, taken⟩ := bind_eq_ok taken
  cases taken
  exact (axis_silent before).append (node_test_said after uncalled)

end Heads

section Readers

/-- What a reader takes mentions what the tokens say that it is taken from. -/
def Tells {α : Type} (mention : α → List Mention)
    (read : List Token → Except QueryError (Taken α)) : Prop :=
  ∀ {tokens rest : List Token} {a : α}, read tokens = .ok (a, rest) → Uncalled rest →
    Says tokens rest (mention a)

/-- What a reader makes of a left part mentions that part first and then what the tokens say. -/
def TellsAfter (left : Expr) (read : List Token → Except QueryError (Taken Expr)) : Prop :=
  ∀ {tokens rest : List Token} {e : Expr}, read tokens = .ok (e, rest) → Uncalled rest →
    ∃ said, mentions e = mentions left ++ said ∧ Says tokens rest said

/-- A reader that leaves tokens alone that begin with an opening parenthesis. -/
def PassesBy {α : Type} (read : List Token → Except QueryError (Taken α)) : Prop :=
  ∀ {tokens rest : List Token} {a : α}, read tokens = .ok (a, rest) → Uncalled rest →
    Uncalled tokens

variable {tokens middle rest : List Token} {left e : Expr}

theorem tells_on (before : Says tokens middle (mentions left))
    (after : ∃ said, mentions e = mentions left ++ said ∧ Says middle rest said) :
    Says tokens rest (mentions e) := by
  obtain ⟨said, same, after⟩ := after
  exact same ▸ before.append after

/-- A left part made longer by one on its right is gone on with as it is itself. -/
theorem tells_further {made right : Expr} (parts : mentions made = mentions left ++ mentions right)
    (before : Says tokens middle (mentions right))
    (after : ∃ said, mentions e = mentions made ++ said ∧ Says middle rest said) :
    ∃ said, mentions e = mentions left ++ said ∧ Says tokens rest said := by
  obtain ⟨said, same, after⟩ := after
  exact ⟨mentions right ++ said, by rw [same, parts, List.append_assoc], before.append after⟩

theorem passes_by_of_refusal {α : Type} {read : List Token → Except QueryError (Taken α)}
    (refuses : ∀ {later rest a}, read (.leftParen :: later) = .ok (a, rest) →
      rest = .leftParen :: later) : PassesBy read := by
  intro tokens rest a ran uncalled opened
  obtain ⟨later, rfl⟩ := List.head?_eq_some_iff.mp opened
  rw [refuses ran] at uncalled
  exact uncalled rfl

theorem operators_pass_by (budget strength : Nat) (left : Expr) :
    PassesBy (readOperators budget strength left) :=
  passes_by_of_refusal fun ran => by
    cases budget <;> cases ran
    rfl

theorem unions_pass_by (budget : Nat) (left : Expr) : PassesBy (readUnions budget left) :=
  passes_by_of_refusal fun ran => by
    cases budget <;> cases ran
    rfl

theorem steps_pass_by (budget : Nat) (base : Expr) : PassesBy (readSteps budget base) :=
  passes_by_of_refusal fun ran => by
    cases budget <;> cases ran
    rfl

theorem predicates_pass_by (budget : Nat) : PassesBy (readPredicates budget) :=
  passes_by_of_refusal fun ran => by
    cases budget <;> cases ran
    rfl

theorem operator_silent {strength : Nat} {op : BinaryOp}
    (taken : takeOperator strength tokens = some (op, rest)) : Says tokens rest [] := by
  cases tokens with
  | nil => cases taken
  | cons token tokens =>
    simp only [takeOperator, Option.map_eq_some_iff, Prod.mk.injEq] at taken
    obtain ⟨_, stands, _, rfl⟩ := taken
    have sign := (Option.filter_eq_some_iff.mp stands).1
    have silent : carries token tokens = false := by
      cases token <;> first | rfl | cases sign
    exact says_behind_sign silent (says_nothing _)

/-- All readers of one budget tell what they take. -/
structure AllTell (budget : Nat) : Prop where
  list : Tells allMentions (readList budget)
  level : ∀ strength, Tells mentions (readLevel budget strength)
  operators : ∀ strength left, TellsAfter left (readOperators budget strength left)
  signed : Tells mentions (readSigned budget)
  unions : ∀ left, TellsAfter left (readUnions budget left)
  path : Tells mentions (readPath budget)
  steps : ∀ base, TellsAfter base (readSteps budget base)
  step : Tells mentions (readStepExpr budget)
  predicates : Tells predicatesMentions (readPredicates budget)
  primary : ∀ {tokens rest e}, isLocationStep tokens = false →
    readPrimary budget tokens = .ok (e, rest) → Uncalled rest → Says tokens rest (mentions e)
  enclosed : Tells allMentions (readEnclosed budget)

variable {budget : Nat}

theorem list_tells (ih : AllTell budget) : Tells allMentions (readList (budget + 1)) := by
  intro tokens rest items taken uncalled
  obtain ⟨⟨item, later⟩, first, taken⟩ := bind_eq_ok taken
  dsimp only at taken
  split at taken
  · obtain ⟨⟨more, last⟩, others, taken⟩ := bind_eq_ok taken
    cases taken
    have before := ih.level 1 first (by simp [Uncalled])
    exact before.append (says_behind_sign rfl (ih.list others uncalled))
  · cases taken
    have alone := ih.level 1 first uncalled
    simpa [allMentions] using alone

theorem level_tells (ih : AllTell budget) (strength : Nat) :
    Tells mentions (readLevel (budget + 1) strength) := by
  intro tokens rest e taken uncalled
  unfold readLevel at taken
  split at taken
  · exact ih.signed taken uncalled
  · obtain ⟨⟨left, later⟩, first, taken⟩ := bind_eq_ok taken
    have between := operators_pass_by budget strength left taken uncalled
    exact tells_on (ih.level _ first between) (ih.operators strength left taken uncalled)

theorem operators_tell (ih : AllTell budget) (strength : Nat) (left : Expr) :
    TellsAfter left (readOperators (budget + 1) strength left) := by
  intro tokens rest e taken uncalled
  unfold readOperators at taken
  split at taken
  · cases taken
    exact ⟨[], (List.append_nil _).symm, says_nothing _⟩
  · next op later operator =>
    obtain ⟨⟨right, last⟩, second, taken⟩ := bind_eq_ok taken
    have between := operators_pass_by budget strength _ taken uncalled
    have before := (operator_silent operator).append (ih.level _ second between)
    exact tells_further (by rw [mentions]) before (ih.operators strength _ taken uncalled)

theorem signed_tells (ih : AllTell budget) : Tells mentions (readSigned (budget + 1)) := by
  intro tokens rest e taken uncalled
  unfold readSigned at taken
  split at taken
  · obtain ⟨⟨inner, later⟩, first, taken⟩ := bind_eq_ok taken
    cases taken
    rw [mentions]
    exact says_behind_sign rfl (ih.signed first uncalled)
  · obtain ⟨⟨left, later⟩, first, taken⟩ := bind_eq_ok taken
    have between := unions_pass_by budget left taken uncalled
    exact tells_on (ih.path first between) (ih.unions left taken uncalled)

theorem unions_tell (ih : AllTell budget) (left : Expr) :
    TellsAfter left (readUnions (budget + 1) left) := by
  intro tokens rest e taken uncalled
  unfold readUnions at taken
  split at taken
  · obtain ⟨⟨right, later⟩, second, taken⟩ := bind_eq_ok taken
    have between := unions_pass_by budget _ taken uncalled
    exact tells_further (by rw [mentions]) (says_behind_sign rfl (ih.path second between))
      (ih.unions _ taken uncalled)
  · cases taken
    exact ⟨[], (List.append_nil _).symm, says_nothing _⟩

theorem path_tells (ih : AllTell budget) : Tells mentions (readPath (budget + 1)) := by
  intro tokens rest e taken uncalled
  unfold readPath at taken
  split at taken
  · split at taken
    · obtain ⟨⟨step, later⟩, first, taken⟩ := bind_eq_ok taken
      have between := steps_pass_by budget _ taken uncalled
      refine tells_on (says_behind_sign rfl ?_) (ih.steps _ taken uncalled)
      rw [mentions, mentions, List.nil_append]
      exact ih.step first between
    · cases taken
      exact says_behind_sign rfl (says_nothing _)
  · obtain ⟨⟨step, later⟩, first, taken⟩ := bind_eq_ok taken
    have between := steps_pass_by budget _ taken uncalled
    refine tells_on (says_behind_sign rfl ?_) (ih.steps _ taken uncalled)
    rw [mentions_descend, mentions, List.nil_append]
    exact ih.step first between
  · obtain ⟨⟨step, later⟩, first, taken⟩ := bind_eq_ok taken
    have between := steps_pass_by budget _ taken uncalled
    exact tells_on (ih.step first between) (ih.steps _ taken uncalled)

theorem steps_tell (ih : AllTell budget) (base : Expr) :
    TellsAfter base (readSteps (budget + 1) base) := by
  intro tokens rest e taken uncalled
  unfold readSteps at taken
  split at taken
  · obtain ⟨⟨step, later⟩, first, taken⟩ := bind_eq_ok taken
    have between := steps_pass_by budget _ taken uncalled
    exact tells_further (by rw [mentions]) (says_behind_sign rfl (ih.step first between))
      (ih.steps _ taken uncalled)
  · obtain ⟨⟨step, later⟩, first, taken⟩ := bind_eq_ok taken
    have between := steps_pass_by budget _ taken uncalled
    exact tells_further (mentions_descend _ _) (says_behind_sign rfl (ih.step first between))
      (ih.steps _ taken uncalled)
  · cases taken
    exact ⟨[], (List.append_nil _).symm, says_nothing _⟩

theorem step_tells (ih : AllTell budget) : Tells mentions (readStepExpr (budget + 1)) := by
  intro tokens rest e taken uncalled
  unfold readStepExpr at taken
  split at taken
  · obtain ⟨⟨⟨axis, test⟩, later⟩, first, taken⟩ := bind_eq_ok taken
    obtain ⟨⟨predicates, last⟩, second, taken⟩ := bind_eq_ok taken
    cases taken
    have between := predicates_pass_by budget second uncalled
    exact (step_head_said first between).append (ih.predicates second uncalled)
  · next other =>
    obtain ⟨⟨inner, later⟩, first, taken⟩ := bind_eq_ok taken
    obtain ⟨⟨predicates, last⟩, second, taken⟩ := bind_eq_ok taken
    cases taken
    have between := predicates_pass_by budget second uncalled
    rw [mentions_filtered]
    exact (ih.primary (by simpa using other) first between).append
      (ih.predicates second uncalled)

theorem predicates_tell (ih : AllTell budget) :
    Tells predicatesMentions (readPredicates (budget + 1)) := by
  intro tokens rest predicates taken uncalled
  unfold readPredicates at taken
  split at taken
  · obtain ⟨⟨items, later⟩, first, taken⟩ := bind_eq_ok taken
    obtain ⟨closed, expected, taken⟩ := bind_eq_ok taken
    obtain ⟨⟨others, last⟩, second, taken⟩ := bind_eq_ok taken
    cases taken
    have inside := ih.list first (by rw [expect_eq expected]; simp [Uncalled])
    rw [expect_eq expected] at inside
    refine says_behind rfl .bracket (inside.append ?_)
    exact says_behind_sign rfl (ih.predicates second uncalled)
  · cases taken
    exact says_nothing _

theorem primary_tells (ih : AllTell budget) (other : isLocationStep tokens = false)
    (taken : readPrimary (budget + 1) tokens = .ok (e, rest)) (uncalled : Uncalled rest) :
    Says tokens rest (mentions e) := by
  unfold readPrimary at taken
  split at taken
  · cases taken
    exact says_token rfl (.numeral _)
  · cases taken
    exact says_token rfl (.literal _)
  · cases taken
    exact says_behind_sign rfl (says_nothing _)
  · cases taken
    exact says_behind_sign rfl (says_nothing _)
  · unfold readVariable at taken
    split at taken
    · cases taken
      exact says_behind_sign rfl (says_token (name_carries uncalled) (.named _))
    · cases taken
  · obtain ⟨⟨items, later⟩, first, taken⟩ := bind_eq_ok taken
    cases taken
    rw [mentions_sequence_of]
    exact says_behind_sign rfl (ih.enclosed first uncalled)
  · next function later =>
    obtain ⟨opened, expected, taken⟩ := bind_eq_ok taken
    obtain ⟨⟨arguments, last⟩, first, taken⟩ := bind_eq_ok taken
    cases taken
    obtain rfl := expect_eq expected
    have apart : isKindName function = false := other
    have function' : carries (.name function) (.leftParen :: opened) = true := by
      simp [carries, apart]
    exact says_behind function' (.named _) (says_behind_sign rfl (ih.enclosed first uncalled))
  · cases taken
  · cases taken

theorem enclosed_tells (ih : AllTell budget) : Tells allMentions (readEnclosed (budget + 1)) := by
  intro tokens rest items taken uncalled
  unfold readEnclosed at taken
  split at taken
  · cases taken
    exact says_behind_sign rfl (says_nothing _)
  · obtain ⟨⟨inner, later⟩, first, taken⟩ := bind_eq_ok taken
    obtain ⟨closed, expected, taken⟩ := bind_eq_ok taken
    cases taken
    have inside := ih.list first (by rw [expect_eq expected]; simp [Uncalled])
    rw [expect_eq expected] at inside
    have closed' : Says (.rightParen :: rest) rest [] := says_behind_sign rfl (says_nothing _)
    simpa using inside.append closed'

/-- The readers of every budget tell what they take, since those of the next are made of them. -/
theorem all_tell (budget : Nat) : AllTell budget := by
  induction budget with
  | zero =>
    constructor
    case primary =>
      intro _ _ _ _ taken
      cases taken
    all_goals
      intros
      intro _ _ _ taken
      cases taken
  | succ budget ih =>
    exact {
      list := list_tells ih
      level := level_tells ih
      operators := operators_tell ih
      signed := signed_tells ih
      unions := unions_tell ih
      path := path_tells ih
      steps := steps_tell ih
      step := step_tells ih
      predicates := predicates_tell ih
      primary := primary_tells ih
      enclosed := enclosed_tells ih }

end Readers

/-- The tokens of a query that say something say what its expression mentions. -/
theorem parse_tells {query : String} {tokens : List Token} {e : Expr}
    (cut : tokenize query = .ok tokens) (read : parse query = .ok e) :
    List.Forall₂ Shows (carriers tokens) (mentions e) := by
  rw [parse, cut] at read
  obtain ⟨⟨items, rest⟩, taken, read⟩ := bind_eq_ok (show parseTokens tokens = .ok e from read)
  cases rest with
  | cons token rest => cases read
  | nil =>
    cases read
    obtain ⟨front, same, shown⟩ := (all_tell _).list taken (by simp [Uncalled])
    rw [mentions_sequence_of, same, carriers, List.append_nil]
    exact shown

section Words

/-- The tokens of names, wildcards, strings and numbers, without the names of node tests. -/
def wordTokens (tokens : List Token) : List Token := (carriers tokens).filter (· ≠ .leftBracket)

/-- No bracket is left out. -/
theorem count_brackets (tokens : List Token) :
    (carriers tokens).count .leftBracket = tokens.count .leftBracket := by
  induction tokens with
  | nil => rfl
  | cons token rest ih =>
    rw [carriers]
    split
    · rw [List.count_cons, List.count_cons, ih]
    · next silent =>
      have other : token ≠ .leftBracket := fun same => silent (same ▸ rfl)
      rw [ih, List.count_cons_of_ne other]

theorem bracket_iff {token : Token} {mention : Mention} (shows' : Shows token mention) :
    token = .leftBracket ↔ mention = .predicate := by
  cases shows' <;> simp

/-- The words of a query are those of its expression, one by one in the same order, and every left
bracket begins one of its predicates. -/
theorem words_in_order {query : String} {e : Expr} (read : parse query = .ok e) :
    ∃ tokens, tokenize query = .ok tokens ∧
      List.Forall₂ Shows (wordTokens tokens) (wordsOf e) ∧
      predicateCount e = tokens.count .leftBracket := by
  obtain ⟨tokens, cut, _⟩ := bind_eq_ok read
  have told := parse_tells cut read
  have words : List.Forall₂ Shows (wordTokens tokens) (wordsOf e) :=
    List.rel_filter (fun _ _ shows' => by simpa using not_congr (bracket_iff shows')) told
  have brackets := List.rel_filter (p := (· == .leftBracket)) (q := (· == .predicate))
    (fun _ _ shows' => by simpa using bracket_iff shows') told
  refine ⟨tokens, cut, words, ?_⟩
  rw [← count_brackets, predicateCount, List.count_eq_length_filter, List.count_eq_length_filter]
  exact brackets.length_eq.symm

/-- What `$n[text() = 'a'][p:*]/count(processing-instruction(t))` is read as. -/
def counted : Expr :=
  .path
    (.filter (.var "n")
      [[.binary (.step ⟨.child, .text, []⟩) .eq (.string "a")], [.step ⟨.child, .labelled "p", []⟩]])
    (.call "count" [.step ⟨.child, .instruction (some "t"), []⟩])

theorem counted_read :
    parse "$n[text() = 'a'][p:*]/count(processing-instruction(t))" = .ok counted := by
  have cut : tokenize "$n[text() = 'a'][p:*]/count(processing-instruction(t))" =
      .ok [.dollar, .name "n", .leftBracket, .name "text", .leftParen, .rightParen, .eq, .string "a",
        .rightBracket, .leftBracket, .labelWildcard "p", .rightBracket, .slash, .name "count",
        .leftParen, .name "processing-instruction", .leftParen, .name "t", .rightParen,
        .rightParen] := by
    decide +kernel
  rw [parse, cut]
  rfl

/-- Its words are `n`, `a`, `p`, `count` and `t`, and it has two predicates. -/
theorem counted_in_order :
    parse "$n[text() = 'a'][p:*]/count(processing-instruction(t))" = .ok counted ∧
      wordsOf counted = [.named "n", .literal "a", .labelled "p", .named "count", .target "t"] ∧
      predicateCount counted = 2 ∧
      ∃ tokens, tokenize "$n[text() = 'a'][p:*]/count(processing-instruction(t))" = .ok tokens ∧
        List.Forall₂ Shows (wordTokens tokens) (wordsOf counted) ∧
        predicateCount counted = tokens.count .leftBracket :=
  ⟨counted_read, rfl, rfl, words_in_order counted_read⟩

end Words

end RangeIndex.ReadingOrder

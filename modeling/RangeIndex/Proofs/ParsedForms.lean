import RangeIndex.Proofs.CanonicalTrees

/-! What queries are read as. Whatever the readers make of well spelled tokens is spelled like them
and has no lookup in it: lookups come from optimizing only, and are written as calls. So the text of
a query that was read is read back as that query wherever it has all the parentheses it needs. -/
namespace RangeIndex.ParsedForms
open Query TokenSpelling RenderedForms RenderedText CanonicalTrees

/-- Expressions of the forms that queries are read as. -/
structure Parsed (e : Expr) : Prop where
  spelled : Spelled e
  own : asCalls e = e

section Forms
variable {left right inner : Expr} {predicates : List Predicate} {items : List Expr}

theorem parsed_path (first : Parsed left) (second : Parsed right) : Parsed (.path left right) :=
  ⟨.path first.spelled second.spelled, congrArg₂ Expr.path first.own second.own⟩

theorem parsed_binary (op : BinaryOp) (first : Parsed left) (second : Parsed right) :
    Parsed (.binary left op right) :=
  ⟨.binary first.spelled second.spelled, congrArg₂ (Expr.binary · op ·) first.own second.own⟩

theorem parsed_union (first : Parsed left) (second : Parsed right) : Parsed (.union left right) :=
  ⟨.union first.spelled second.spelled, congrArg₂ Expr.union first.own second.own⟩

theorem parsed_negate (inside : Parsed inner) : Parsed (.negate inner) :=
  ⟨.negate inside.spelled, congrArg Expr.negate inside.own⟩

/-- What stands between brackets: one or more expressions. -/
def ParsedPredicate (p : Predicate) : Prop := p ≠ [] ∧ ∀ x ∈ p, Parsed x

theorem parsed_brackets (each : ∀ p ∈ predicates, ParsedPredicate p) :
    predicatesAsCalls predicates = predicates :=
  predicates_as_calls fun p listed x member => ((each p listed).2 x member).own

theorem parsed_step {axis : Axis} {test : NodeTest} (head : SpelledTest test)
    (each : ∀ p ∈ predicates, ParsedPredicate p) : Parsed (.step ⟨axis, test, predicates⟩) :=
  ⟨.step head (fun p listed => (each p listed).1)
    fun p listed x member => ((each p listed).2 x member).spelled,
    congrArg (fun brackets => Expr.step ⟨axis, test, brackets⟩) (parsed_brackets each)⟩

theorem parsed_filtered (before : Parsed inner) (each : ∀ p ∈ predicates, ParsedPredicate p) :
    Parsed (filtered inner predicates) := by
  unfold filtered
  split
  · exact before
  · next present =>
    have spelled : Spelled (.filter inner predicates) :=
      .filter before.spelled (by simpa using present) (fun p listed => (each p listed).1)
        fun p listed x member => ((each p listed).2 x member).spelled
    exact ⟨spelled, congrArg₂ Expr.filter before.own (parsed_brackets each)⟩

theorem parsed_call {function : String} (is : IsName function)
    (other : isKindName function = false) (inside : ∀ x ∈ items, Parsed x) :
    Parsed (.call function items) :=
  ⟨.call is other fun x member => (inside x member).spelled,
    congrArg (Expr.call function) (items_as_calls fun x member => (inside x member).own)⟩

theorem parsed_sequence_of (inside : ∀ x ∈ items, Parsed x) : Parsed (sequenceOf items) := by
  unfold sequenceOf
  split
  · exact inside _ (List.mem_singleton_self _)
  · next several =>
    have other : items.length ≠ 1 := by
      intro single
      obtain ⟨item, rfl⟩ := List.length_eq_one_iff.mp single
      exact several item rfl
    exact ⟨.sequence other fun x member => (inside x member).spelled,
      congrArg Expr.sequence (items_as_calls fun x member => (inside x member).own)⟩

theorem parsed_gap : Parsed (.step .descendantOrSelf) := ⟨.step trivial nofun nofun, rfl⟩

theorem parsed_root : Parsed .root := ⟨.root, rfl⟩

theorem parsed_descend (first : Parsed left) (second : Parsed right) :
    Parsed (descend left right) :=
  parsed_path (parsed_path first parsed_gap) second

end Forms

section Readers

/-- Tokens that some text can be cut into. -/
def AllSpelled (tokens : List Token) : Prop := ∀ token ∈ tokens, WellSpelled token

/-- Off well spelled tokens a reader takes what has a property. -/
def Makes {α : Type} (has : α → Prop) (read : List Token → Except QueryError (Taken α)) : Prop :=
  ∀ {tokens rest : List Token} {a : α}, AllSpelled tokens → read tokens = .ok (a, rest) →
    has a ∧ AllSpelled rest

/-- Where a reader goes on with what another one took, that has its property. -/
theorem makes_bind {α β : Type} {has : α → Prop} {read : List Token → Except QueryError (Taken α)}
    {next : Taken α → Except QueryError β} {tokens : List Token} {result : β}
    (makes : Makes has read) (all : AllSpelled tokens) (ran : (read tokens >>= next) = .ok result) :
    ∃ a rest, has a ∧ AllSpelled rest ∧ next (a, rest) = .ok result := by
  obtain ⟨⟨a, rest⟩, taken, ran⟩ := bind_eq_ok ran
  obtain ⟨property, spelled⟩ := makes all taken
  exact ⟨a, rest, property, spelled, ran⟩

theorem rest_spelled {token : Token} {rest : List Token} (all : AllSpelled (token :: rest)) :
    AllSpelled rest :=
  (List.forall_mem_cons.mp all).2

theorem expect_spelled {token : Token} {tokens rest : List Token} (all : AllSpelled tokens)
    (taken : expect token tokens = .ok rest) : AllSpelled rest := by
  cases tokens with
  | nil => cases taken
  | cons found tokens =>
    simp only [expect] at taken
    split at taken
    · cases taken
      exact rest_spelled all
    · cases taken

theorem target_spelled (name : String) {tokens : List Token} (all : AllSpelled tokens) :
    AllSpelled (takeTarget name tokens).2 := by
  unfold takeTarget
  split
  · split
    · exact rest_spelled all
    · exact rest_spelled all
    · exact all
  · exact all

theorem axis_makes : Makes (fun _ => True) readAxis := by
  intro tokens rest axis all taken
  refine ⟨trivial, ?_⟩
  unfold readAxis at taken
  split at taken
  · cases taken
    exact rest_spelled all
  · split at taken
    · cases taken
      exact rest_spelled all
    · cases taken
  · cases taken
    exact all

theorem kind_test_spelled (name : String) (target : Option String) :
    SpelledTest (kindTest name target) := by
  unfold kindTest
  split
  · trivial
  · split
    · trivial
    · split <;> trivial

theorem node_test_makes : Makes SpelledTest readNodeTest := by
  intro tokens rest test all taken
  unfold readNodeTest at taken
  split at taken
  · cases taken
    exact ⟨trivial, rest_spelled all⟩
  · cases taken
    obtain ⟨label, others⟩ := List.forall_mem_cons.mp all
    exact ⟨label, others⟩
  · next name later =>
    obtain ⟨named, opened⟩ := List.forall_mem_cons.mp all
    split at taken
    · have inside := target_spelled name (rest_spelled opened)
      generalize takeTarget name later = target at inside taken
      obtain ⟨closed, expected, taken⟩ := bind_eq_ok taken
      cases taken
      exact ⟨kind_test_spelled name target.1, expect_spelled inside expected⟩
    · cases taken
      exact ⟨named, opened⟩
  · cases taken
    obtain ⟨named, others⟩ := List.forall_mem_cons.mp all
    exact ⟨named, others⟩
  · cases taken
  · cases taken

theorem step_head_makes : Makes (fun head => SpelledTest head.2) readStepHead := by
  intro tokens rest head all taken
  obtain ⟨axis, later, _, after, taken⟩ := makes_bind axis_makes all taken
  obtain ⟨test, last, spelled, left, taken⟩ := makes_bind node_test_makes after taken
  cases taken
  exact ⟨spelled, left⟩

theorem variable_makes : Makes Parsed readVariable := by
  intro tokens rest e all taken
  unfold readVariable at taken
  split at taken
  · cases taken
    obtain ⟨named, others⟩ := List.forall_mem_cons.mp all
    exact ⟨⟨.var named, rfl⟩, others⟩
  · cases taken

theorem operator_spelled {strength : Nat} {tokens rest : List Token} {op : BinaryOp}
    (all : AllSpelled tokens) (taken : takeOperator strength tokens = some (op, rest)) :
    AllSpelled rest := by
  cases tokens with
  | nil => cases taken
  | cons token tokens =>
    simp only [takeOperator, Option.map_eq_some_iff, Prod.mk.injEq] at taken
    obtain ⟨_, _, _, same⟩ := taken
    exact same ▸ rest_spelled all

/-- What all readers of one budget take. -/
structure AllMake (budget : Nat) : Prop where
  list : Makes ParsedPredicate (readList budget)
  level : ∀ strength, Makes Parsed (readLevel budget strength)
  operators : ∀ strength {left}, Parsed left → Makes Parsed (readOperators budget strength left)
  signed : Makes Parsed (readSigned budget)
  unions : ∀ {left}, Parsed left → Makes Parsed (readUnions budget left)
  path : Makes Parsed (readPath budget)
  steps : ∀ {base}, Parsed base → Makes Parsed (readSteps budget base)
  step : Makes Parsed (readStepExpr budget)
  predicates : Makes (fun predicates => ∀ p ∈ predicates, ParsedPredicate p) (readPredicates budget)
  primary : ∀ {tokens rest e}, isLocationStep tokens = false → AllSpelled tokens →
    readPrimary budget tokens = .ok (e, rest) → Parsed e ∧ AllSpelled rest
  enclosed : Makes (fun items => ∀ x ∈ items, Parsed x) (readEnclosed budget)

/-- In front of its arguments the name of a function is no node test. -/
theorem function_name {function : String} {tokens rest : List Token}
    (other : isLocationStep (.name function :: tokens) = false)
    (opened : expect .leftParen tokens = .ok rest) : isKindName function = false := by
  cases tokens with
  | nil => cases opened
  | cons found tokens =>
    simp only [expect] at opened
    split at opened
    · next same =>
      subst same
      exact other
    · cases opened

variable {budget : Nat}

theorem list_makes (ih : AllMake budget) : Makes ParsedPredicate (readList (budget + 1)) := by
  intro tokens rest items all taken
  obtain ⟨item, later, parsed, after, taken⟩ := makes_bind (ih.level 1) all taken
  dsimp only at taken
  split at taken
  · obtain ⟨more, last, ⟨_, each⟩, left, taken⟩ := makes_bind ih.list (rest_spelled after) taken
    cases taken
    exact ⟨⟨List.cons_ne_nil _ _, List.forall_mem_cons.mpr ⟨parsed, each⟩⟩, left⟩
  · cases taken
    exact ⟨⟨List.cons_ne_nil _ _, List.forall_mem_singleton.mpr parsed⟩, after⟩

theorem level_makes (ih : AllMake budget) (strength : Nat) :
    Makes Parsed (readLevel (budget + 1) strength) := by
  intro tokens rest e all taken
  unfold readLevel at taken
  split at taken
  · exact ih.signed all taken
  · obtain ⟨left, later, parsed, after, taken⟩ := makes_bind (ih.level (strength + 1)) all taken
    exact ih.operators strength parsed after taken

theorem operators_make (ih : AllMake budget) (strength : Nat) {left : Expr} (before : Parsed left) :
    Makes Parsed (readOperators (budget + 1) strength left) := by
  intro tokens rest e all taken
  unfold readOperators at taken
  split at taken
  · cases taken
    exact ⟨before, all⟩
  · next op later operator =>
    have operand := operator_spelled all operator
    obtain ⟨right, last, parsed, after, taken⟩ := makes_bind (ih.level (strength + 1)) operand taken
    exact ih.operators strength (parsed_binary op before parsed) after taken

theorem signed_makes (ih : AllMake budget) : Makes Parsed (readSigned (budget + 1)) := by
  intro tokens rest e all taken
  unfold readSigned at taken
  split at taken
  · obtain ⟨inner, later, parsed, after, taken⟩ := makes_bind ih.signed (rest_spelled all) taken
    cases taken
    exact ⟨parsed_negate parsed, after⟩
  · obtain ⟨left, later, parsed, after, taken⟩ := makes_bind ih.path all taken
    exact ih.unions parsed after taken

theorem unions_make (ih : AllMake budget) {left : Expr} (before : Parsed left) :
    Makes Parsed (readUnions (budget + 1) left) := by
  intro tokens rest e all taken
  unfold readUnions at taken
  split at taken
  · obtain ⟨right, later, parsed, after, taken⟩ := makes_bind ih.path (rest_spelled all) taken
    exact ih.unions (parsed_union before parsed) after taken
  · cases taken
    exact ⟨before, all⟩

/-- A step and the steps after it, put behind what was read before them. -/
theorem step_then_steps_make (ih : AllMake budget) {base : Expr → Expr}
    (joins : ∀ {step}, Parsed step → Parsed (base step)) :
    Makes Parsed (fun tokens => do
      let (step, rest) ← readStepExpr budget tokens
      readSteps budget (base step) rest) := by
  intro tokens rest e all taken
  obtain ⟨step, later, parsed, after, taken⟩ := makes_bind ih.step all taken
  exact ih.steps (joins parsed) after taken

theorem path_makes (ih : AllMake budget) : Makes Parsed (readPath (budget + 1)) := by
  intro tokens rest e all taken
  unfold readPath at taken
  split at taken
  · split at taken
    · exact step_then_steps_make ih (parsed_path parsed_root) (rest_spelled all) taken
    · cases taken
      exact ⟨parsed_root, rest_spelled all⟩
  · exact step_then_steps_make ih (parsed_descend parsed_root) (rest_spelled all) taken
  · exact step_then_steps_make ih id all taken

theorem steps_make (ih : AllMake budget) {base : Expr} (before : Parsed base) :
    Makes Parsed (readSteps (budget + 1) base) := by
  intro tokens rest e all taken
  unfold readSteps at taken
  split at taken
  · exact step_then_steps_make ih (parsed_path before) (rest_spelled all) taken
  · exact step_then_steps_make ih (parsed_descend before) (rest_spelled all) taken
  · cases taken
    exact ⟨before, all⟩

theorem step_makes (ih : AllMake budget) : Makes Parsed (readStepExpr (budget + 1)) := by
  intro tokens rest e all taken
  unfold readStepExpr at taken
  split at taken
  · obtain ⟨⟨axis, test⟩, later, spelled, after, taken⟩ := makes_bind step_head_makes all taken
    obtain ⟨predicates, last, each, left, taken⟩ := makes_bind ih.predicates after taken
    cases taken
    exact ⟨parsed_step spelled each, left⟩
  · next other =>
    obtain ⟨⟨inner, later⟩, first, taken⟩ := bind_eq_ok taken
    obtain ⟨parsed, after⟩ := ih.primary (by simpa using other) all first
    obtain ⟨predicates, last, each, left, taken⟩ := makes_bind ih.predicates after taken
    cases taken
    exact ⟨parsed_filtered parsed each, left⟩

theorem predicates_make (ih : AllMake budget) :
    Makes (fun predicates => ∀ p ∈ predicates, ParsedPredicate p) (readPredicates (budget + 1)) := by
  intro tokens rest predicates all taken
  unfold readPredicates at taken
  split at taken
  · obtain ⟨items, later, parsed, after, taken⟩ := makes_bind ih.list (rest_spelled all) taken
    obtain ⟨closed, expected, taken⟩ := bind_eq_ok taken
    have more := expect_spelled after expected
    obtain ⟨others, last, each, left, taken⟩ := makes_bind ih.predicates more taken
    cases taken
    exact ⟨List.forall_mem_cons.mpr ⟨parsed, each⟩, left⟩
  · cases taken
    exact ⟨List.forall_mem_nil _, all⟩

theorem primary_makes (ih : AllMake budget)
    {tokens rest : List Token} {e : Expr} (other : isLocationStep tokens = false)
    (all : AllSpelled tokens) (taken : readPrimary (budget + 1) tokens = .ok (e, rest)) :
    Parsed e ∧ AllSpelled rest := by
  unfold readPrimary at taken
  split at taken
  · cases taken
    obtain ⟨number, others⟩ := List.forall_mem_cons.mp all
    exact ⟨⟨.number number, rfl⟩, others⟩
  · cases taken
    exact ⟨⟨.string _, rfl⟩, rest_spelled all⟩
  · cases taken
    exact ⟨⟨.context, rfl⟩, rest_spelled all⟩
  · cases taken
    exact ⟨⟨.parent, rfl⟩, rest_spelled all⟩
  · exact variable_makes (rest_spelled all) taken
  · obtain ⟨items, later, each, after, taken⟩ := makes_bind ih.enclosed (rest_spelled all) taken
    cases taken
    exact ⟨parsed_sequence_of each, after⟩
  · obtain ⟨opened, expected, taken⟩ := bind_eq_ok taken
    obtain ⟨named, others⟩ := List.forall_mem_cons.mp all
    have inside := expect_spelled others expected
    obtain ⟨arguments, later, each, after, taken⟩ := makes_bind ih.enclosed inside taken
    cases taken
    exact ⟨parsed_call named (function_name other expected) each, after⟩
  · cases taken
  · cases taken

theorem enclosed_makes (ih : AllMake budget) :
    Makes (fun items => ∀ x ∈ items, Parsed x) (readEnclosed (budget + 1)) := by
  intro tokens rest items all taken
  unfold readEnclosed at taken
  split at taken
  · cases taken
    exact ⟨List.forall_mem_nil _, rest_spelled all⟩
  · obtain ⟨inner, later, ⟨_, each⟩, after, taken⟩ := makes_bind ih.list all taken
    obtain ⟨closed, expected, taken⟩ := bind_eq_ok taken
    cases taken
    exact ⟨each, expect_spelled after expected⟩

/-- The readers of every budget make what is parsed, since those of the next are made of them. -/
theorem all_make (budget : Nat) : AllMake budget := by
  induction budget with
  | zero =>
    constructor
    case primary =>
      intro _ _ _ _ _ taken
      cases taken
    all_goals
      intros
      intro _ _ _ _ taken
      cases taken
  | succ budget ih =>
    exact {
      list := list_makes ih
      level := level_makes ih
      operators := operators_make ih
      signed := signed_makes ih
      unions := unions_make ih
      path := path_makes ih
      steps := steps_make ih
      step := step_makes ih
      predicates := predicates_make ih
      primary := primary_makes ih
      enclosed := enclosed_makes ih }

end Readers

/-- Queries are read as expressions that are spelled as they are and have no lookups. -/
theorem parse_makes {query : String} {e : Expr} (read : parse query = .ok e) : Parsed e := by
  obtain ⟨tokens, cut, read⟩ := bind_eq_ok read
  have all : AllSpelled tokens := tokens_spelled cut
  obtain ⟨items, rest, ⟨_, each⟩, _, read⟩ := makes_bind (all_make _).list all read
  cases rest with
  | nil =>
    cases read
    exact parsed_sequence_of each
  | cons token rest => cases read

/-- The text of a query that was read is read as the query again where it lacks no parentheses. -/
theorem parsed_read_back {query : String} {e : Expr} (read : parse query = .ok e)
    (faithful : Faithful e) : parse e.render = .ok e := by
  obtain ⟨spelled, own⟩ := parse_makes read
  rw [faithful_read_back faithful spelled, own]

section Sample
open SpelledText

theorem parse_spelled {text query : String} {tokens : List Token} {e : Expr}
    (spelled : Spells true text tokens) (same : text = query) (read : parseTokens tokens = .ok e) :
    parse query = .ok e := by
  rw [← same, parse, tokenize_spelled spelled]
  exact read

/-- The elements of one name anywhere in a document. -/
def everywhere (predicates : List Predicate) : Expr :=
  descend .root (.step ⟨.child, .named "a", predicates⟩)

/-- The predicate that keeps the last of what it filters. -/
def last : List Predicate := [[.call "last" []]]

theorem spells_element {tight : Bool} : Spells tight "a" [.name "a"] :=
  spells_name (plain_is_name (by decide))

theorem spells_last : Spells true "last()" [.name "last", .leftParen, .rightParen] := by
  have is : IsName "last" := plain_is_name (by decide)
  have none : Spells false "" [] := spells_nothing
  simpa using spells_call is none

/-- A path counts as tight as a name, so it gets no parentheses in front of a predicate. The last of
all elements of a name turns into those that are the last among their siblings. -/
theorem parentheses_lost :
    parse "(//a)[last()]" = .ok (.filter (everywhere []) last) ∧
      (Expr.filter (everywhere []) last).render = "//a[last()]" ∧
      parse "//a[last()]" = .ok (everywhere last) ∧
      (Expr.filter (everywhere []) last).same (everywhere last) = false := by
  have all := spells_predicate (spells_wrapped (spells_root_descent spells_element)) spells_last
  have each := spells_root_descent (spells_predicate spells_element spells_last)
  refine ⟨parse_spelled all (by simp) rfl, ?_, parse_spelled each (by simp) rfl, ?_⟩
  · with_unfolding_all rfl
  · simp [everywhere, descend, Expr.same]

/-- The last of the elements that two paths lead to. -/
def lastOfBoth : Expr := .filter (.union (.step ⟨.child, .named "a", []⟩) (everywhere [])) last

theorem last_of_both_read : parse "(child::a | //a)[last()]" = .ok lastOfBoth := by
  have child : IsPlain "child".toList := by decide
  have step : Spells false ("child" ++ "::" ++ "a") _ := spells_axis child spells_element
  have either := spells_union step (spells_root_descent spells_element)
  exact parse_spelled (spells_predicate (spells_wrapped either) spells_last) (by simp) rfl

theorem last_of_both_faithful : Faithful lastOfBoth := by
  have named : Faithful (.step ⟨.child, .named "a", []⟩) := .step ⟨nofun, nofun⟩ nofun
  have call : Faithful (.call "last" []) := .call nofun
  refine .filter rfl (.union rfl rfl named (.descent rfl .root named)) ?_
  simp [last, call]

/-- A union binds less tightly than a predicate and keeps its parentheses. -/
theorem union_read_back :
    parse "(child::a | //a)[last()]" = .ok lastOfBoth ∧ Faithful lastOfBoth ∧
      lastOfBoth.render = "(a | //a)[last()]" ∧ parse lastOfBoth.render = .ok lastOfBoth :=
  ⟨last_of_both_read, last_of_both_faithful, by with_unfolding_all rfl,
    parsed_read_back last_of_both_read last_of_both_faithful⟩

end Sample

end RangeIndex.ParsedForms

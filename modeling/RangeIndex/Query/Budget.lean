import RangeIndex.Query.Parsing

/-! A reader leaves no more tokens than it was given, so a budget that covers `levels` calls for
every token is enough: any larger one gives the same result. What a query is read as therefore
does not depend on the budget, and a used-up budget is never the reason of an answer. -/
namespace RangeIndex.Query

theorem bind_eq_ok {ε α β : Type} {x : Except ε α} {f : α → Except ε β} {b : β}
    (ran : (x >>= f) = .ok b) : ∃ a, x = .ok a ∧ f a = .ok b := by
  cases x with
  | error e => cases ran
  | ok a => exact ⟨a, rfl, ran⟩

theorem bind_congr_ok {ε α β : Type} {x y : Except ε α} {f g : α → Except ε β} (same : x = y)
    (agree : ∀ a, y = .ok a → f a = g a) : (x >>= f) = (y >>= g) := by
  subst same
  cases x with
  | error e => rfl
  | ok a => exact agree a rfl

/-- A reader leaves no more tokens than it was given. -/
def Shrinks {α : Type} (read : List Token → Except QueryError (Taken α)) : Prop :=
  ∀ {tokens rest : List Token} {a : α}, read tokens = .ok (a, rest) → rest.length ≤ tokens.length

theorem expect_length_lt {token : Token} {tokens rest : List Token}
    (taken : expect token tokens = .ok rest) : rest.length < tokens.length := by
  cases tokens with
  | nil => cases taken
  | cons found tokens =>
    simp only [expect] at taken
    split at taken
    · cases taken
      exact Nat.lt_succ_self _
    · cases taken

theorem takeTarget_length_le (name : String) (tokens : List Token) :
    (takeTarget name tokens).2.length ≤ tokens.length := by
  unfold takeTarget
  split
  · split <;> simp
  · exact Nat.le_refl _

theorem readAxis_shrinks : Shrinks readAxis := by
  intro tokens rest axis taken
  unfold readAxis at taken
  split at taken
  · cases taken; exact Nat.le_succ _
  · split at taken
    · cases taken; exact Nat.le_succ _
    · cases taken
  · cases taken; exact Nat.le_refl _

theorem readNodeTest_length_lt {tokens rest : List Token} {test : NodeTest}
    (taken : readNodeTest tokens = .ok (test, rest)) : rest.length < tokens.length := by
  unfold readNodeTest at taken
  split at taken
  · cases taken; exact Nat.lt_succ_self _
  · cases taken; exact Nat.lt_succ_self _
  · next name later =>
    split at taken
    · have bounded := takeTarget_length_le name later
      generalize takeTarget name later = target at bounded taken
      obtain ⟨closed, expected, taken⟩ := bind_eq_ok taken
      cases taken
      have := expect_length_lt expected
      simp only [List.length_cons]
      omega
    · cases taken; simp
  · cases taken; exact Nat.lt_succ_self _
  · cases taken
  · cases taken

theorem readStepHead_length_lt {tokens rest : List Token} {head : Axis × NodeTest}
    (taken : readStepHead tokens = .ok (head, rest)) : rest.length < tokens.length := by
  obtain ⟨⟨axis, later⟩, first, taken⟩ := bind_eq_ok taken
  obtain ⟨⟨test, last⟩, second, taken⟩ := bind_eq_ok taken
  cases taken
  exact Nat.lt_of_lt_of_le (readNodeTest_length_lt second) (readAxis_shrinks first)

theorem readVariable_shrinks : Shrinks readVariable := by
  intro tokens rest e taken
  unfold readVariable at taken
  split at taken
  · cases taken; exact Nat.le_succ _
  · cases taken

theorem takeOperator_length {strength : Nat} {tokens rest : List Token} {op : BinaryOp}
    (taken : takeOperator strength tokens = some (op, rest)) :
    tokens.length = rest.length + 1 := by
  cases tokens with
  | nil => cases taken
  | cons token tokens =>
    simp only [takeOperator, Option.map_eq_some_iff, Prod.mk.injEq] at taken
    obtain ⟨_, _, _, same⟩ := taken
    rw [← same, List.length_cons]

/-- All readers of one budget leave no more tokens than they were given. -/
structure AllShrink (budget : Nat) : Prop where
  list : Shrinks (readList budget)
  level : ∀ strength, Shrinks (readLevel budget strength)
  operators : ∀ strength left, Shrinks (readOperators budget strength left)
  signed : Shrinks (readSigned budget)
  unions : ∀ left, Shrinks (readUnions budget left)
  path : Shrinks (readPath budget)
  steps : ∀ base, Shrinks (readSteps budget base)
  step : Shrinks (readStepExpr budget)
  predicates : Shrinks (readPredicates budget)
  primary : Shrinks (readPrimary budget)
  enclosed : Shrinks (readEnclosed budget)

section Shrinking
variable {budget : Nat}

theorem list_shrinks (ih : AllShrink budget) : Shrinks (readList (budget + 1)) := by
  intro tokens rest items taken
  obtain ⟨⟨item, later⟩, first, taken⟩ := bind_eq_ok taken
  have := ih.level 1 first
  dsimp only at taken
  split at taken
  · obtain ⟨⟨more, last⟩, others, taken⟩ := bind_eq_ok taken
    cases taken
    have := ih.list others
    simp only [List.length_cons] at *
    omega
  · cases taken
    omega

theorem level_shrinks (ih : AllShrink budget) (strength : Nat) :
    Shrinks (readLevel (budget + 1) strength) := by
  intro tokens rest e taken
  unfold readLevel at taken
  split at taken
  · exact ih.signed taken
  · obtain ⟨⟨left, later⟩, first, taken⟩ := bind_eq_ok taken
    exact Nat.le_trans (ih.operators strength left taken) (ih.level (strength + 1) first)

theorem operators_shrink (ih : AllShrink budget) (strength : Nat) (left : Expr) :
    Shrinks (readOperators (budget + 1) strength left) := by
  intro tokens rest e taken
  unfold readOperators at taken
  split at taken
  · cases taken
    exact Nat.le_refl _
  · next op later operator =>
    have := takeOperator_length operator
    obtain ⟨⟨right, last⟩, second, taken⟩ := bind_eq_ok taken
    have := ih.level (strength + 1) second
    have := ih.operators strength _ taken
    omega

theorem signed_shrinks (ih : AllShrink budget) : Shrinks (readSigned (budget + 1)) := by
  intro tokens rest e taken
  unfold readSigned at taken
  split at taken
  · obtain ⟨⟨inner, later⟩, first, taken⟩ := bind_eq_ok taken
    cases taken
    exact Nat.le_succ_of_le (ih.signed first)
  · obtain ⟨⟨left, later⟩, first, taken⟩ := bind_eq_ok taken
    exact Nat.le_trans (ih.unions left taken) (ih.path first)

theorem unions_shrink (ih : AllShrink budget) (left : Expr) :
    Shrinks (readUnions (budget + 1) left) := by
  intro tokens rest e taken
  unfold readUnions at taken
  split at taken
  · obtain ⟨⟨right, later⟩, first, taken⟩ := bind_eq_ok taken
    exact Nat.le_succ_of_le (Nat.le_trans (ih.unions _ taken) (ih.path first))
  · cases taken
    exact Nat.le_refl _

/-- A step and the steps after it leave no more tokens than they were given. -/
theorem step_then_steps_shrink (ih : AllShrink budget) (base : Expr → Expr) :
    Shrinks (fun tokens => do
      let (step, rest) ← readStepExpr budget tokens
      readSteps budget (base step) rest) := by
  intro tokens rest e taken
  obtain ⟨⟨step, later⟩, first, taken⟩ := bind_eq_ok taken
  exact Nat.le_trans (ih.steps _ taken) (ih.step first)

theorem path_shrinks (ih : AllShrink budget) : Shrinks (readPath (budget + 1)) := by
  intro tokens rest e taken
  unfold readPath at taken
  split at taken
  · split at taken
    · exact Nat.le_succ_of_le (step_then_steps_shrink ih (.path .root) taken)
    · cases taken
      exact Nat.le_succ _
  · exact Nat.le_succ_of_le (step_then_steps_shrink ih (descend .root) taken)
  · exact step_then_steps_shrink ih id taken

theorem steps_shrink (ih : AllShrink budget) (base : Expr) :
    Shrinks (readSteps (budget + 1) base) := by
  intro tokens rest e taken
  unfold readSteps at taken
  split at taken
  · exact Nat.le_succ_of_le (step_then_steps_shrink ih (.path base) taken)
  · exact Nat.le_succ_of_le (step_then_steps_shrink ih (descend base) taken)
  · cases taken
    exact Nat.le_refl _

theorem step_shrinks (ih : AllShrink budget) : Shrinks (readStepExpr (budget + 1)) := by
  intro tokens rest e taken
  unfold readStepExpr at taken
  split at taken
  · obtain ⟨⟨head, later⟩, first, taken⟩ := bind_eq_ok taken
    obtain ⟨⟨predicates, last⟩, second, taken⟩ := bind_eq_ok taken
    cases taken
    exact Nat.le_trans (ih.predicates second) (Nat.le_of_lt (readStepHead_length_lt first))
  · obtain ⟨⟨inner, later⟩, first, taken⟩ := bind_eq_ok taken
    obtain ⟨⟨predicates, last⟩, second, taken⟩ := bind_eq_ok taken
    cases taken
    exact Nat.le_trans (ih.predicates second) (ih.primary first)

theorem predicates_shrink (ih : AllShrink budget) : Shrinks (readPredicates (budget + 1)) := by
  intro tokens rest predicates taken
  unfold readPredicates at taken
  split at taken
  · obtain ⟨⟨items, later⟩, first, taken⟩ := bind_eq_ok taken
    obtain ⟨closed, expected, taken⟩ := bind_eq_ok taken
    obtain ⟨⟨others, last⟩, second, taken⟩ := bind_eq_ok taken
    cases taken
    exact Nat.le_succ_of_le (Nat.le_trans (ih.predicates second)
      (Nat.le_trans (Nat.le_of_lt (expect_length_lt expected)) (ih.list first)))
  · cases taken
    exact Nat.le_refl _

theorem primary_shrinks (ih : AllShrink budget) : Shrinks (readPrimary (budget + 1)) := by
  intro tokens rest e taken
  unfold readPrimary at taken
  split at taken
  · cases taken; exact Nat.le_succ _
  · cases taken; exact Nat.le_succ _
  · cases taken; exact Nat.le_succ _
  · cases taken; exact Nat.le_succ _
  · exact Nat.le_succ_of_le (readVariable_shrinks taken)
  · obtain ⟨⟨items, later⟩, first, taken⟩ := bind_eq_ok taken
    cases taken
    exact Nat.le_succ_of_le (ih.enclosed first)
  · obtain ⟨opened, expected, taken⟩ := bind_eq_ok taken
    obtain ⟨⟨items, later⟩, first, taken⟩ := bind_eq_ok taken
    cases taken
    exact Nat.le_succ_of_le
      (Nat.le_trans (ih.enclosed first) (Nat.le_of_lt (expect_length_lt expected)))
  · cases taken
  · cases taken

theorem enclosed_shrinks (ih : AllShrink budget) : Shrinks (readEnclosed (budget + 1)) := by
  intro tokens rest items taken
  unfold readEnclosed at taken
  split at taken
  · cases taken
    exact Nat.le_succ _
  · obtain ⟨⟨inner, later⟩, first, taken⟩ := bind_eq_ok taken
    obtain ⟨closed, expected, taken⟩ := bind_eq_ok taken
    cases taken
    exact Nat.le_trans (Nat.le_of_lt (expect_length_lt expected)) (ih.list first)

/-- The readers of every budget leave no more, since those of the next are made of them. -/
theorem allShrink (budget : Nat) : AllShrink budget := by
  induction budget with
  | zero =>
    constructor <;> intros <;> intro _ _ _ taken <;> cases taken
  | succ budget ih =>
    exact {
      list := list_shrinks ih
      level := level_shrinks ih
      operators := operators_shrink ih
      signed := signed_shrinks ih
      unions := unions_shrink ih
      path := path_shrinks ih
      steps := steps_shrink ih
      step := step_shrinks ih
      predicates := predicates_shrink ih
      primary := primary_shrinks ih
      enclosed := enclosed_shrinks ih }

end Shrinking

/-- A reader is settled when a budget of `levels` calls for every token and `calls` more is
enough: one call more changes no result. -/
def Settled {α : Type} (calls budget : Nat)
    (read : Nat → List Token → Except QueryError (Taken α)) : Prop :=
  ∀ {tokens : List Token}, levels * tokens.length + calls ≤ budget →
    read (budget + 1) tokens = read budget tokens

/-- All readers are settled, each with the calls it may make before it takes a token. -/
structure AllSettled (budget : Nat) : Prop where
  list : Settled 12 budget readList
  level : ∀ strength, Settled (5 + (7 - strength)) budget (readLevel · strength)
  operators : ∀ strength left, Settled 1 budget (readOperators · strength left)
  signed : Settled 4 budget readSigned
  unions : ∀ left, Settled 1 budget (readUnions · left)
  path : Settled 3 budget readPath
  steps : ∀ base, Settled 1 budget (readSteps · base)
  step : Settled 2 budget readStepExpr
  predicates : Settled 1 budget readPredicates
  primary : Settled 1 budget readPrimary
  enclosed : Settled 13 budget readEnclosed

section Settling
variable {budget : Nat}

theorem list_settled (ih : AllSettled budget) : Settled 12 (budget + 1) readList := by
  intro tokens enough
  unfold levels at enough
  refine bind_congr_ok (ih.level 1 (by unfold levels; omega)) fun (item, later) first => ?_
  have := (allShrink budget).level 1 first
  dsimp only
  split
  · simp only [List.length_cons] at this
    rw [ih.list (by unfold levels; omega)]
  · rfl

theorem level_settled (ih : AllSettled budget) (strength : Nat) :
    Settled (5 + (7 - strength)) (budget + 1) (readLevel · strength) := by
  intro tokens enough
  unfold levels at enough
  dsimp only
  unfold readLevel
  split
  · exact ih.signed (by unfold levels; omega)
  · next bounded =>
    unfold BinaryOp.strongest at bounded
    refine bind_congr_ok (ih.level (strength + 1) (by unfold levels; omega))
      fun (left, later) first => ?_
    have := (allShrink budget).level (strength + 1) first
    exact ih.operators strength left (by unfold levels; omega)

theorem operators_settled (ih : AllSettled budget) (strength : Nat) (left : Expr) :
    Settled 1 (budget + 1) (readOperators · strength left) := by
  intro tokens enough
  unfold levels at enough
  dsimp only
  unfold readOperators
  split
  · rfl
  · next op later operator =>
    have := takeOperator_length operator
    refine bind_congr_ok (ih.level (strength + 1) (by unfold levels; omega))
      fun (right, last) second => ?_
    have := (allShrink budget).level (strength + 1) second
    exact ih.operators strength _ (by unfold levels; omega)

theorem signed_settled (ih : AllSettled budget) : Settled 4 (budget + 1) readSigned := by
  intro tokens enough
  unfold levels at enough
  unfold readSigned
  split
  · simp only [List.length_cons] at enough
    rw [ih.signed (by unfold levels; omega)]
  · refine bind_congr_ok (ih.path (by unfold levels; omega)) fun (left, later) first => ?_
    have := (allShrink budget).path first
    exact ih.unions left (by unfold levels; omega)

theorem unions_settled (ih : AllSettled budget) (left : Expr) :
    Settled 1 (budget + 1) (readUnions · left) := by
  intro tokens enough
  unfold levels at enough
  dsimp only
  unfold readUnions
  split
  · simp only [List.length_cons] at enough
    refine bind_congr_ok (ih.path (by unfold levels; omega)) fun (right, later) first => ?_
    have := (allShrink budget).path first
    exact ih.unions _ (by unfold levels; omega)
  · rfl

/-- A step and the steps after it are settled with the calls of the step. -/
theorem step_then_steps_settled (ih : AllSettled budget) (base : Expr → Expr) :
    Settled 2 budget (fun budget tokens => do
      let (step, rest) ← readStepExpr budget tokens
      readSteps budget (base step) rest) := by
  intro tokens enough
  unfold levels at enough
  refine bind_congr_ok (ih.step (by unfold levels; omega)) fun (step, later) first => ?_
  have := (allShrink budget).step first
  exact ih.steps _ (by unfold levels; omega)

theorem path_settled (ih : AllSettled budget) : Settled 3 (budget + 1) readPath := by
  intro tokens enough
  unfold levels at enough
  unfold readPath
  split
  · split
    · simp only [List.length_cons] at enough
      exact step_then_steps_settled ih (.path .root) (by unfold levels; omega)
    · rfl
  · simp only [List.length_cons] at enough
    exact step_then_steps_settled ih (descend .root) (by unfold levels; omega)
  · exact step_then_steps_settled ih id (by unfold levels; omega)

theorem steps_settled (ih : AllSettled budget) (base : Expr) :
    Settled 1 (budget + 1) (readSteps · base) := by
  intro tokens enough
  unfold levels at enough
  dsimp only
  unfold readSteps
  split
  · simp only [List.length_cons] at enough
    exact step_then_steps_settled ih (.path base) (by unfold levels; omega)
  · simp only [List.length_cons] at enough
    exact step_then_steps_settled ih (descend base) (by unfold levels; omega)
  · rfl

theorem step_settled (ih : AllSettled budget) : Settled 2 (budget + 1) readStepExpr := by
  intro tokens enough
  unfold levels at enough
  unfold readStepExpr
  split
  · refine bind_congr_ok rfl fun (head, later) first => ?_
    have := readStepHead_length_lt first
    dsimp only
    rw [ih.predicates (by unfold levels; omega)]
  · refine bind_congr_ok (ih.primary (by unfold levels; omega)) fun (inner, later) first => ?_
    have := (allShrink budget).primary first
    dsimp only
    rw [ih.predicates (by unfold levels; omega)]

theorem predicates_settled (ih : AllSettled budget) : Settled 1 (budget + 1) readPredicates := by
  intro tokens enough
  unfold levels at enough
  unfold readPredicates
  split
  · simp only [List.length_cons] at enough
    refine bind_congr_ok (ih.list (by unfold levels; omega)) fun (items, later) first => ?_
    have := (allShrink budget).list first
    refine bind_congr_ok rfl fun closed expected => ?_
    have := expect_length_lt expected
    dsimp only
    rw [ih.predicates (by unfold levels; omega)]
  · rfl

theorem primary_settled (ih : AllSettled budget) : Settled 1 (budget + 1) readPrimary := by
  intro tokens enough
  unfold levels at enough
  unfold readPrimary
  split <;> try rfl
  · simp only [List.length_cons] at enough
    rw [ih.enclosed (by unfold levels; omega)]
  · simp only [List.length_cons] at enough
    refine bind_congr_ok rfl fun opened expected => ?_
    have := expect_length_lt expected
    dsimp only
    rw [ih.enclosed (by unfold levels; omega)]

theorem enclosed_settled (ih : AllSettled budget) : Settled 13 (budget + 1) readEnclosed := by
  intro tokens enough
  unfold levels at enough
  unfold readEnclosed
  split
  · rfl
  · rw [ih.list (by unfold levels; omega)]

/-- The readers of every budget are settled, since those of the next are made of them. -/
theorem allSettled (budget : Nat) : AllSettled budget := by
  induction budget with
  | zero => constructor <;> intros <;> intro _ enough <;> omega
  | succ budget ih =>
    exact {
      list := list_settled ih
      level := level_settled ih
      operators := operators_settled ih
      signed := signed_settled ih
      unions := unions_settled ih
      path := path_settled ih
      steps := steps_settled ih
      step := step_settled ih
      predicates := predicates_settled ih
      primary := primary_settled ih
      enclosed := enclosed_settled ih }

end Settling

/-- The budget a query is given is enough: a larger one reads the same. -/
theorem readList_eq_of_le {tokens : List Token} {budget : Nat}
    (enough : levels * (tokens.length + 1) ≤ budget) :
    readList budget tokens = readList (levels * (tokens.length + 1)) tokens := by
  obtain ⟨spare, rfl⟩ := Nat.exists_eq_add_of_le enough
  induction spare with
  | zero => rfl
  | succ spare ih =>
    rw [← ih (Nat.le_add_right _ _)]
    have bounded : levels * tokens.length + 12 ≤ levels * (tokens.length + 1) := by
      unfold levels
      omega
    exact (allSettled _).list (Nat.le_trans bounded (Nat.le_add_right _ _))

/-- What a list of tokens is read as does not depend on how large a sufficient budget is. -/
theorem parseTokens_eq_of_le {tokens : List Token} {budget : Nat}
    (enough : levels * (tokens.length + 1) ≤ budget) :
    parseTokens tokens = (readList budget tokens >>= fun (items, rest) =>
      match rest with
      | token :: _ => throw (.trailing token)
      | [] => return sequenceOf items) := by
  rw [readList_eq_of_le enough]
  rfl

end RangeIndex.Query

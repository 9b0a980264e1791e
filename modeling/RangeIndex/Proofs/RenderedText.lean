import RangeIndex.Proofs.ReadingRules
import RangeIndex.Proofs.RenderedForms
import RangeIndex.Proofs.SpelledText

/-! The text of a faithful expression spells the tokens of the expression, and these are read back
part by part: every operand at the place of its operator or in parentheses, what follows a slash as
one step, what predicates filter as one primary expression. -/
namespace RangeIndex.RenderedText
open Text Query TokenSpelling TokenText SpelledText ReadingRules RenderedForms

section Lists

/-- A text and the expression it is read as, wherever an expression of any strength may stand. -/
def Item (item : String × Expr) : Prop :=
  ∃ tokens bare, Spells false item.1 tokens ∧ Whole 1 bare item.2 tokens

theorem comma_list_cons (a b : String) (more : List String) :
    commaList (a :: b :: more) = a ++ ", " ++ commaList (b :: more) := by
  refine String.toList_inj.mp ?_
  simp [commaList, String.toList_intercalate]

theorem items_listed {items : List (String × Expr)} (filled : items ≠ [])
    (each : ∀ item ∈ items, Item item) :
    ∃ tokens, Spells false (commaList (items.map (·.1))) tokens ∧
      Listed (items.map (·.2)) tokens := by
  induction items with
  | nil => exact absurd rfl filled
  | cons item rest ih =>
    obtain ⟨front, bare, spelled, whole⟩ := each item List.mem_cons_self
    cases rest with
    | nil => exact ⟨front, spelled, list_last whole⟩
    | cons next rest =>
      obtain ⟨back, others, listed⟩ := ih (List.cons_ne_nil _ _)
        fun item member => each item (List.mem_cons_of_mem _ member)
      refine ⟨front ++ .comma :: back, ?_, list_more whole listed⟩
      rw [List.map_cons, List.map_cons, comma_list_cons]
      exact spells_comma spelled others

theorem items_enclosed {items : List (String × Expr)} (each : ∀ item ∈ items, Item item) :
    ∃ tokens, Spells false (commaList (items.map (·.1))) tokens ∧
      Enclosed (items.map (·.2)) tokens := by
  by_cases none : items = []
  · subst none
    exact ⟨[], spells_nothing, enclosed_none⟩
  · obtain ⟨tokens, spelled, listed⟩ := items_listed none each
    exact ⟨tokens, spelled, enclosed_list listed⟩

/-- The texts of expressions with what they are read as. -/
def readings (items : List Expr) : List (String × Expr) := items.map fun x => (x.render, asCalls x)

theorem readings_texts (items : List Expr) :
    (readings items).map (·.1) = items.map Expr.render := by
  rw [readings, List.map_map]
  rfl

theorem readings_values (items : List Expr) : (readings items).map (·.2) = items.map asCalls := by
  rw [readings, List.map_map]
  rfl

end Lists

section Operands

/-- The tokens of an operand where one is required to bind at least so tightly. -/
def operandTokens (strength required : Nat) (tokens : List Token) : List Token :=
  if strength < required then .leftParen :: tokens ++ [.rightParen] else tokens

/-- Whether an operand ends in a slash that stands for the root. -/
def bareOperand (required : Nat) (e : Expr) : Bool :=
  decide (required ≤ e.strength) && endsInRoot e

/-- Where the tokens of an expression are read as it: at the place of its outermost operator. -/
def ReadsInPlace (e : Expr) (tokens : List Token) : Prop :=
  match e with
  | .binary _ op _ => Chain op.strength (endsInRoot e) (asCalls e) tokens
  | .union _ _ => Chain 7 (endsInRoot e) (asCalls e) tokens
  | .negate _ => Whole 7 (endsInRoot e) (asCalls e) tokens
  | .root => Whole 8 true (asCalls e) tokens
  | .path _ _ => Chain 8 false (asCalls e) tokens
  | .step _ | .filter _ _ => Whole 9 false (asCalls e) tokens
  | _ => Primary (asCalls e) tokens

/-- Whether a slash or a predicate may come after the text. -/
def isTight (e : Expr) : Bool := decide (e.strength = tightest) && !e.isRoot

/-- The text of an expression spells the tokens, and they are read as the expression. -/
structure Written (e : Expr) (tokens : List Token) : Prop where
  spelled : Spells (isTight e) e.render tokens
  read : ReadsInPlace e tokens
  steps : beginsStep e = true → startsStep tokens = true

variable {e : Expr} {tokens : List Token} {place : Nat}

theorem operator_bounds (op : BinaryOp) : 1 ≤ op.strength ∧ op.strength ≤ 6 := by
  cases op <;> decide

theorem one_le_strength (e : Expr) : 1 ≤ e.strength := by
  cases e with
  | binary left op right => exact (operator_bounds op).1
  | _ => simp [Expr.strength, tightest, unionStrength, negateStrength]

theorem strength_le_tightest (e : Expr) : e.strength ≤ tightest := by
  cases e with
  | binary left op right =>
    have bound := (operator_bounds op).2
    simp only [Expr.strength, tightest]
    omega
  | _ => simp [Expr.strength, tightest, unionStrength, negateStrength]

/-- An expression is read at every place among operators that it binds tightly enough for. -/
theorem read_whole (read : ReadsInPlace e tokens) (low : place ≤ 7) (le : place ≤ e.strength) :
    Whole place (endsInRoot e) (asCalls e) tokens := by
  cases e with
  | binary left op right =>
    have bound := (operator_bounds op).2
    exact (Chain.whole (by omega) read).loosen (by omega) le
  | union => exact (Chain.whole (by decide) read).loosen (by decide) low
  | negate => exact Whole.loosen read (by decide) low
  | root => exact Whole.loosen read (by decide) (by omega)
  | path => exact (Chain.whole (by decide) read).loosen (by decide) (by omega)
  | step | filter => exact Whole.loosen read (by decide) (by omega)
  | context | parent | call | sequence | string | number | var | lookup =>
    exact (Primary.whole read).loosen (by decide) (by omega)

/-- It is a left part there. -/
theorem read_chain (read : ReadsInPlace e tokens) (low : place ≤ 6) (le : place ≤ e.strength) :
    Chain place (endsInRoot e) (asCalls e) tokens := by
  rcases Nat.lt_or_eq_of_le le with more | rfl
  · exact (read_whole read (by omega) more).chain (by omega)
  · cases e with
    | binary left op right => exact read
    | _ => simp [Expr.strength, tightest, unionStrength, negateStrength] at low

/-- An expression that is no operation is read as one side of a union, and as closely as its form
allows: as the left side of a path, as what follows a slash, as what predicates filter. -/
theorem tight_read (read : ReadsInPlace e tokens) (tight : tightest ≤ e.strength) :
    Whole 8 (endsInRoot e) (asCalls e) tokens ∧
      (e.isRoot = false → Chain 8 false (asCalls e) tokens) ∧
      (followsSlash e = true → Whole 9 false (asCalls e) tokens) ∧
      (takesPredicates e = true → Primary (asCalls e) tokens) := by
  cases e with
  | binary left op right =>
    have bound := (operator_bounds op).2
    simp only [Expr.strength, tightest] at tight
    omega
  | union | negate => simp [Expr.strength, tightest, unionStrength, negateStrength] at tight
  | root => exact ⟨read, nofun, nofun, nofun⟩
  | path => exact ⟨Chain.whole (by decide) read, fun _ => read, nofun, nofun⟩
  | step | filter =>
    have chain := Whole.chain (by decide) read
    exact ⟨chain.whole (by decide), fun _ => chain, fun _ => read, nofun⟩
  | context | parent | call | sequence | string | number | var | lookup =>
    have whole := Primary.whole read
    have chain := whole.chain (by decide)
    exact ⟨chain.whole (by decide), fun _ => chain, fun _ => whole, fun _ => read⟩

theorem written_spells (written : Written e tokens) : Spells false e.render tokens := by
  have spelled := written.spelled
  cases tight : isTight e with
  | false => rwa [tight] at spelled
  | true => exact (tight ▸ spelled).loosen

/-- An expression is an item of a list. -/
theorem written_item (written : Written e tokens) : Item (e.render, asCalls e) :=
  ⟨tokens, endsInRoot e, written_spells written,
    read_whole written.read (by decide) (one_le_strength e)⟩

/-- In parentheses every expression can stand everywhere. -/
theorem wrapped_reads (written : Written e tokens) :
    Primary (asCalls e) (.leftParen :: tokens ++ [.rightParen]) :=
  enclosed_primary (enclosed_list (list_last
    (read_whole written.read (by decide) (one_le_strength e))))

/-- An operand is in parentheses or binds as tightly as it has to. -/
theorem operand_cases (e : Expr) (required : Nat) (tokens : List Token) :
    (e.strength < required ∧ bareOperand required e = false ∧
      operandTokens e.strength required tokens = .leftParen :: tokens ++ [.rightParen]) ∨
    (required ≤ e.strength ∧ bareOperand required e = endsInRoot e ∧
      operandTokens e.strength required tokens = tokens) := by
  rcases Nat.lt_or_ge e.strength required with loose | tight
  · exact .inl ⟨loose, by simp [bareOperand, Nat.not_le.mpr loose], if_pos loose⟩
  · exact .inr ⟨tight, by simp [bareOperand, tight], if_neg (Nat.not_lt.mpr tight)⟩

theorem operand_spells (written : Written e tokens) (required : Nat) :
    Spells false (operandText e.strength required e.render)
      (operandTokens e.strength required tokens) := by
  unfold operandText operandTokens
  split
  · exact (spells_wrapped written.spelled).loosen
  · exact written_spells written

theorem tight_operand_spells (written : Written e tokens) (proper : e.isRoot = false) :
    Spells true (operandText e.strength tightest e.render)
      (operandTokens e.strength tightest tokens) := by
  have bound := strength_le_tightest e
  unfold operandText operandTokens
  split
  · exact spells_wrapped written.spelled
  · have tight : isTight e = true := by simp [isTight, proper]; omega
    exact tight ▸ written.spelled

theorem operand_whole (written : Written e tokens) (low : place ≤ 7) :
    Whole place (bareOperand place e) (asCalls e) (operandTokens e.strength place tokens) := by
  rcases operand_cases e place tokens with ⟨-, bare, same⟩ | ⟨tight, bare, same⟩ <;> rw [bare, same]
  · exact (wrapped_reads written).whole.loosen (by decide) (by omega)
  · exact read_whole written.read low tight

theorem operand_chain (written : Written e tokens) (low : place ≤ 6) :
    Chain place (bareOperand place e) (asCalls e) (operandTokens e.strength place tokens) := by
  rcases operand_cases e place tokens with ⟨-, bare, same⟩ | ⟨tight, bare, same⟩ <;> rw [bare, same]
  · exact ((wrapped_reads written).whole.loosen (by decide) (by omega)).chain (by omega)
  · exact read_chain written.read low tight

/-- A minus sign in front of a union would take in all of it, and behind one there is no place for
it: the two operands of a union must not be negations. -/
theorem tight_of_no_negation (plain : isNegation e = false) (high : unionStrength < e.strength) :
    tightest ≤ e.strength := by
  cases e with
  | binary left op right =>
    have bound := (operator_bounds op).2
    simp only [Expr.strength, unionStrength] at high
    omega
  | union => exact absurd high (by simp [Expr.strength])
  | negate => cases plain
  | _ => exact Nat.le_refl _

theorem union_right_whole (written : Written e tokens) (plain : isNegation e = false) :
    Whole 8 (bareOperand 8 e) (asCalls e) (operandTokens e.strength 8 tokens) := by
  rcases operand_cases e 8 tokens with ⟨-, bare, same⟩ | ⟨tight, bare, same⟩ <;> rw [bare, same]
  · exact (wrapped_reads written).whole.loosen (by decide) (by decide)
  · exact (tight_read written.read (tight_of_no_negation plain tight)).1

theorem union_left_chain (written : Written e tokens) (plain : isNegation e = false) :
    Chain 7 (bareOperand 7 e) (asCalls e) (operandTokens e.strength 7 tokens) := by
  rcases operand_cases e 7 tokens with ⟨-, bare, same⟩ | ⟨tight, bare, same⟩ <;> rw [bare, same]
  · exact ((wrapped_reads written).whole.loosen (by decide) (by decide)).chain (by decide)
  · rcases Nat.lt_or_eq_of_le tight with more | own
    · exact (tight_read written.read (tight_of_no_negation plain more)).1.chain (by decide)
    · cases e with
      | union left right => exact written.read
      | binary left op right =>
        have bound := (operator_bounds op).2
        simp only [Expr.strength] at own
        omega
      | _ => cases own

theorem negated_whole (written : Written e tokens) :
    Whole 7 (bareOperand 8 e) (asCalls e) (operandTokens e.strength 8 tokens) := by
  rcases operand_cases e 8 tokens with ⟨-, bare, same⟩ | ⟨tight, bare, same⟩ <;> rw [bare, same]
  · exact (wrapped_reads written).whole.loosen (by decide) (by decide)
  · exact read_whole written.read (by decide) (Nat.le_of_succ_le tight)

/-- What follows a slash is one step or one primary expression. -/
theorem follower_whole (written : Written e tokens) (follows : followsSlash e = true) :
    Whole 9 false (asCalls e) (operandTokens e.strength tightest tokens) := by
  rcases operand_cases e tightest tokens with ⟨-, -, same⟩ | ⟨tight, -, same⟩ <;> rw [same]
  · exact (wrapped_reads written).whole
  · exact (tight_read written.read tight).2.2.1 follows

theorem path_left_chain (written : Written e tokens) (proper : e.isRoot = false) :
    Chain 8 false (asCalls e) (operandTokens e.strength tightest tokens) := by
  rcases operand_cases e tightest tokens with ⟨-, -, same⟩ | ⟨tight, -, same⟩ <;> rw [same]
  · exact (wrapped_reads written).whole.chain (by decide)
  · exact (tight_read written.read tight).2.1 proper

theorem filtered_primary (written : Written e tokens) (takes : takesPredicates e = true) :
    Primary (asCalls e) (operandTokens e.strength tightest tokens) := by
  rcases operand_cases e tightest tokens with ⟨-, -, same⟩ | ⟨tight, -, same⟩ <;> rw [same]
  · exact wrapped_reads written
  · exact (tight_read written.read tight).2.2.2 takes

end Operands

section Items

theorem readings_are_items {items : List Expr} (inside : ∀ x ∈ items, ∃ tokens, Written x tokens) :
    ∀ item ∈ readings items, Item item := by
  intro item member
  obtain ⟨x, among, rfl⟩ := List.mem_map.mp member
  obtain ⟨tokens, written⟩ := inside x among
  exact written_item written

theorem expressions_listed {items : List Expr} (filled : items ≠ [])
    (inside : ∀ x ∈ items, ∃ tokens, Written x tokens) :
    ∃ tokens, Spells false (commaList (items.map Expr.render)) tokens ∧
      Listed (items.map asCalls) tokens := by
  have each := readings_are_items inside
  rw [← readings_texts, ← readings_values]
  exact items_listed (by simpa [readings] using filled) each

theorem expressions_enclosed {items : List Expr}
    (inside : ∀ x ∈ items, ∃ tokens, Written x tokens) :
    ∃ tokens, Spells false (commaList (items.map Expr.render)) tokens ∧
      Enclosed (items.map asCalls) tokens := by
  rw [← readings_texts, ← readings_values]
  exact items_enclosed (readings_are_items inside)

end Items

section Steps

theorem kind_name_plain {name : String} (kind : isKindName name = true) : IsPlain name.toList := by
  simp only [isKindName, Bool.or_eq_true, beq_iff_eq] at kind
  rcases kind with ((rfl | rfl) | rfl) | rfl <;> decide

theorem axis_name_plain (axis : Axis) : IsPlain axis.name.toList := by
  cases axis <;> decide

/-- A literal without a quote in it stands between quotes as it is. -/
theorem unquoted_literal {value : String} (unquoted : '"' ∉ value.toList) :
    literal value = "\"" ++ value ++ "\"" := by
  have same : value.toList.flatMap (fun c => if c = '"' then ['"', '"'] else [c]) =
      value.toList.flatMap fun c => [c] := by
    rw [List.flatMap_def, List.flatMap_def, List.map_congr_left fun c member => ?_]
    refine if_neg ?_
    rintro rfl
    exact unquoted member
  refine String.toList_inj.mp ?_
  simp [literal, same]

theorem test_spells {test : NodeTest} (spelled : SpelledTest test)
    (unquoted : ∀ target, test = .instruction (some target) → '"' ∉ target.toList) :
    Spells true test.render (testTokens test) := by
  have kind (name : String) {text : String} {inner : List Token} (is : isKindName name = true)
      (content : Spells true text inner) :
      Spells true (name ++ "(" ++ text ++ ")") (.name name :: .leftParen :: inner ++ [.rightParen]) :=
    spells_call (plain_is_name (kind_name_plain is)) content
  cases test with
  | any => exact spells_star
  | named written =>
    have is : IsName written := spelled
    exact spells_name is
  | labelled label =>
    have is : IsPlain label.toList := spelled
    have shown : NodeTest.render (.labelled label) = label ++ ":*" := rfl
    rw [shown]
    exact spells_wildcard is
  | node =>
    show Spells true "node()" _
    simpa [testTokens] using kind "node" rfl spells_nothing
  | text =>
    show Spells true "text()" _
    simpa [testTokens] using kind "text" rfl spells_nothing
  | comment =>
    show Spells true "comment()" _
    simpa [testTokens] using kind "comment" rfl spells_nothing
  | instruction target =>
    cases target with
    | none =>
      show Spells true "processing-instruction()" _
      simpa [testTokens] using kind "processing-instruction" rfl spells_nothing
    | some target =>
      have content := kind "processing-instruction" rfl (spells_literal target)
      rw [unquoted_literal (unquoted target rfl)] at content
      have shown : "processing-instruction" ++ "(" ++ ("\"" ++ target ++ "\"") ++ ")" =
          "processing-instruction(\"" ++ target ++ "\")" :=
        String.toList_inj.mp (by simp)
      rw [shown] at content
      exact content

theorem head_spells {axis : Axis} {test : NodeTest} (spelled : SpelledTest test)
    (faithful : FaithfulHead axis test) :
    Spells true (stepHead axis test) (headTokens axis test) := by
  have inner := test_spells spelled faithful.unquoted
  unfold stepHead
  split
  · exact inner
  · exact spells_signed (c := '@') rfl inner
  · exact absurd rfl (faithful.long rfl).1
  · exact absurd rfl (faithful.long rfl).2
  · next named other _ _ =>
    have written : headTokens axis test = .axis axis.name :: testTokens test := by
      unfold headTokens
      split
      · exact (named rfl).elim
      · exact (other rfl).elim
      · rfl
    rw [written]
    exact spells_axis (axis_name_plain axis) inner

theorem predicates_written {predicates : List Predicate} (filled : ∀ p ∈ predicates, p ≠ [])
    (inside : ∀ p ∈ predicates, ∀ x ∈ p, ∃ tokens, Written x tokens) :
    ∃ back, Bracketed (predicates.map (List.map asCalls)) back ∧
      ∀ {front text}, Spells true text front →
        Spells true (text ++ Expr.renderPredicates predicates) (front ++ back) := by
  induction predicates with
  | nil =>
    refine ⟨[], no_predicates, fun {front text} spelled => ?_⟩
    rw [List.append_nil]
    exact (String.append_empty (s := text)).symm ▸ spelled
  | cons p rest ih =>
    obtain ⟨own, others⟩ := List.forall_mem_cons.mp filled
    obtain ⟨ownInside, othersInside⟩ := List.forall_mem_cons.mp inside
    obtain ⟨items, spelled, listed⟩ := expressions_listed own ownInside
    obtain ⟨back, bracketed, spells⟩ := ih others othersInside
    refine ⟨_, predicate_more listed bracketed, fun {front text} before => ?_⟩
    have after := spells (spells_predicate before spelled)
    rw [Expr.renderPredicates_cons, ← String.append_assoc]
    simpa using after

end Steps

section Forms
variable {left right inner : Expr} {front back : List Token}

theorem binary_written {op : BinaryOp} (first : Written left front) (second : Written right back)
    (star : op = .mul → left.strength < op.strength ∨ endsInRoot left = false) :
    ∃ tokens, Written (.binary left op right) tokens := by
  have low := (operator_bounds op).2
  have apart : bareOperand op.strength left = true → op ≠ .mul := by
    rintro bare rfl
    simp only [bareOperand, Bool.and_eq_true, decide_eq_true_eq] at bare
    rcases star rfl with loose | proper
    · exact absurd bare.1 (Nat.not_le.mpr loose)
    · rw [proper] at bare
      cases bare.2
  refine ⟨_, ?_, binary_reads (of_operator_token op) apart (operand_chain first low)
    (operand_whole second (by omega)), nofun⟩
  have other : op.strength ≠ tightest := by
    unfold tightest
    omega
  have loose : isTight (.binary left op right) = false := by simp [isTight, Expr.strength, other]
  rw [loose, Expr.render_binary]
  exact spells_infix op (operand_spells first _) (operand_spells second _)

theorem union_written (first : Written left front) (second : Written right back)
    (plain : isNegation left = false) (plain' : isNegation right = false) :
    ∃ tokens, Written (.union left right) tokens := by
  refine ⟨_, ?_, union_reads (union_left_chain first plain) (union_right_whole second plain'), nofun⟩
  rw [Expr.render_union]
  exact spells_union (operand_spells first _) (operand_spells second _)

theorem negate_written (whole : Written inner front) : ∃ tokens, Written (.negate inner) tokens := by
  refine ⟨_, ?_, negate_reads (negated_whole whole), nofun⟩
  rw [Expr.render_negate]
  exact spells_signed (c := '-') rfl (operand_spells whole _)

theorem no_slash_of_begins {tokens : List Token} (begins : Begins 9 tokens) : NoSlash tokens := by
  obtain ⟨token, later, rfl, opens⟩ := begins
  refine ⟨token, rfl, ?_, ?_⟩ <;> rintro rfl <;> exact absurd opens (by decide)

theorem abbreviated_of_follows (follows : followsSlash right = true) :
    right.isAbbreviated = false := by
  cases right with
  | step step => simpa [followsSlash, Expr.isAbbreviated] using follows
  | _ => rfl

theorem root_of_follows (follows : followsSlash right = true) : right.isRoot = false := by
  cases right with
  | root => cases follows
  | _ => rfl

theorem follower_spells (second : Written right back) (follows : followsSlash right = true) :
    Spells true (operandText right.strength tightest right.render)
      (operandTokens right.strength tightest back) :=
  tight_operand_spells second (root_of_follows follows)

theorem path_render (proper : left.isRoot = false) (follows : followsSlash right = true) :
    (Expr.path left right).render = operandText left.strength tightest left.render ++ "/" ++
      operandText right.strength tightest right.render := by
  rw [Expr.render_path, if_neg (by simp [proper]), if_neg (by simp [abbreviated_of_follows follows])]

theorem rooted_render (follows : followsSlash right = true) :
    (Expr.path .root right).render = "/" ++ operandText right.strength tightest right.render := by
  rw [Expr.render_path,
    if_neg (c := right.isAbbreviated = true) (by simp [abbreviated_of_follows follows])]
  rfl

/-- Two slashes are the two around the step that is not written. -/
theorem descent_render (follows : followsSlash right = true) :
    (descend left right).render =
      (if left.isRoot then "//" else operandText left.strength tightest left.render ++ "//") ++
        operandText right.strength tightest right.render := by
  have step : (Expr.path left (.step .descendantOrSelf)).render =
      if left.isRoot then "/" else operandText left.strength tightest left.render ++ "/" := by
    rw [Expr.render_path, if_pos (c := (Expr.step .descendantOrSelf).isAbbreviated = true) rfl,
      String.append_empty]
  rw [descend, path_render rfl follows, step]
  simp only [operandText, Expr.strength, Nat.lt_irrefl, if_false]
  cases left.isRoot with
  | true => rfl
  | false => simp [String.append_assoc]

theorem path_written (first : Written left front) (second : Written right back)
    (proper : left.isRoot = false) (follows : followsSlash right = true) :
    ∃ tokens, Written (.path left right) tokens := by
  have whole := follower_whole second follows
  refine ⟨_, ?_, path_reads (path_left_chain first proper) whole, nofun⟩
  rw [path_render proper follows]
  exact spells_path (tight_operand_spells first proper) (follower_spells second follows)
    (no_slash_of_begins whole.begins)

theorem tight_of_begins {e : Expr} (begins : beginsStep e = true) : ¬e.strength < tightest := by
  cases e with
  | binary | union | negate => cases begins
  | _ => exact Nat.lt_irrefl _

theorem rooted_written (second : Written right back) (begins : beginsStep right = true)
    (follows : followsSlash right = true) : ∃ tokens, Written (.path .root right) tokens := by
  have whole := follower_whole second follows
  have steps : startsStep (operandTokens right.strength tightest back) = true := by
    rw [operandTokens, if_neg (tight_of_begins begins)]
    exact second.steps begins
  refine ⟨_, ?_, rooted_reads whole steps, nofun⟩
  rw [rooted_render follows]
  exact spells_rooted (follower_spells second follows) (no_slash_of_begins whole.begins)

theorem descent_written (first : Written left front) (second : Written right back)
    (follows : followsSlash right = true) : ∃ tokens, Written (descend left right) tokens := by
  have whole := follower_whole second follows
  have after := follower_spells second follows
  cases proper : left.isRoot with
  | true =>
    cases left with
    | root =>
      refine ⟨_, ?_, root_descent_reads whole, nofun⟩
      rw [descent_render follows]
      exact spells_root_descent after
    | _ => cases proper
  | false =>
    refine ⟨_, ?_, descent_reads (path_left_chain first proper) whole, nofun⟩
    rw [descent_render follows, proper]
    exact spells_descent (tight_operand_spells first proper) after

theorem step_written {axis : Axis} {test : NodeTest} {predicates : List Predicate}
    (head : FaithfulHead axis test) (spelled : SpelledTest test) (filled : ∀ p ∈ predicates, p ≠ [])
    (inside : ∀ p ∈ predicates, ∀ x ∈ p, ∃ tokens, Written x tokens) :
    ∃ tokens, Written (.step ⟨axis, test, predicates⟩) tokens := by
  obtain ⟨back, bracketed, spells⟩ := predicates_written filled inside
  refine ⟨headTokens axis test ++ back, ?_, ?_, fun _ => head_starts_step axis test back⟩
  · rw [Expr.render_step]
    exact spells (head_spells spelled head)
  · have reads := step_reads axis test bracketed
    rw [← predicates_as_calls_eq] at reads
    exact reads

theorem filter_written {predicates : List Predicate} (before : Written inner front)
    (takes : takesPredicates inner = true) (filtered : predicates ≠ [])
    (filled : ∀ p ∈ predicates, p ≠ [])
    (inside : ∀ p ∈ predicates, ∀ x ∈ p, ∃ tokens, Written x tokens) :
    ∃ tokens, Written (.filter inner predicates) tokens := by
  obtain ⟨back, bracketed, spells⟩ := predicates_written filled inside
  have proper : inner.isRoot = false := by
    cases inner with
    | root => cases takes
    | _ => rfl
  refine ⟨operandTokens inner.strength tightest front ++ back, ?_, ?_, ?_⟩
  · rw [Expr.render_filter]
    exact spells (tight_operand_spells before proper)
  · have reads := filter_reads (filtered_primary before takes) bracketed (by simpa using filtered)
    rw [← predicates_as_calls_eq] at reads
    exact reads
  · intro begins
    have inner : beginsStep inner = true := begins
    rw [operandTokens, if_neg (tight_of_begins inner)]
    exact starts_step_append (before.steps inner) back

theorem call_written {function : String} {arguments : List Expr} (is : IsName function)
    (other : isKindName function = false)
    (inside : ∀ x ∈ arguments, ∃ tokens, Written x tokens) :
    ∃ tokens, Written (.call function arguments) tokens := by
  obtain ⟨tokens, spelled, enclosed⟩ := expressions_enclosed inside
  refine ⟨.name function :: .leftParen :: tokens ++ [.rightParen], ?_, ?_, fun _ => rfl⟩
  · rw [Expr.render_call]
    exact spells_call is spelled
  · have reads := call_primary other enclosed
    rw [← all_as_calls_eq] at reads
    exact reads

theorem sequence_of_several {items : List Expr} (several : items.length ≠ 1) :
    sequenceOf items = .sequence items := by
  unfold sequenceOf
  split
  · exact absurd rfl several
  · rfl

theorem sequence_written {items : List Expr} (several : items.length ≠ 1)
    (inside : ∀ x ∈ items, ∃ tokens, Written x tokens) :
    ∃ tokens, Written (.sequence items) tokens := by
  obtain ⟨tokens, spelled, enclosed⟩ := expressions_enclosed inside
  refine ⟨.leftParen :: tokens ++ [.rightParen], ?_, ?_, nofun⟩
  · rw [Expr.render_sequence]
    exact spells_wrapped spelled
  · have reads := enclosed_primary enclosed
    rw [sequence_of_several (by simpa using several), ← all_as_calls_eq] at reads
    exact reads

end Forms

section Lookups

theorem string_item (value : String) : Item (literal value, .string value) :=
  ⟨[.string value], false, spells_literal value,
    (token_primary rfl (fun _ => rfl) fun _ _ => rfl).whole.loosen (by decide) (by decide)⟩

/-- Items in parentheses are an item: a single one as itself. -/
theorem wrapped_item {items : List (String × Expr)} (each : ∀ item ∈ items, Item item) :
    Item ("(" ++ commaList (items.map (·.1)) ++ ")", sequenceOf (items.map (·.2))) := by
  obtain ⟨tokens, spelled, enclosed⟩ := items_enclosed each
  exact ⟨_, false, (spells_wrapped spelled).loosen,
    (enclosed_primary enclosed).whole.loosen (by decide) (by decide)⟩

/-- Strings that stand in a lookup, in parentheses of their own. -/
def column (entries : List LookupEntry) (text : LookupEntry → String) : String × Expr :=
  ("(" ++ commaList (entries.map fun entry => literal (text entry)) ++ ")",
    sequenceOf (entries.map fun entry => .string (text entry)))

theorem column_item (entries : List LookupEntry) (text : LookupEntry → String) :
    Item (column entries text) := by
  have each : ∀ item ∈ entries.map fun entry => (literal (text entry), Expr.string (text entry)),
      Item item := by
    intro item member
    obtain ⟨entry, _, rfl⟩ := List.mem_map.mp member
    exact string_item (text entry)
  have wrapped := wrapped_item each
  rw [List.map_map, List.map_map] at wrapped
  exact wrapped

theorem comma_list_keys (text : String) (entries : List LookupEntry) :
    commaList (text :: entries.map fun entry => entry.key.render) =
      text ++ Expr.renderKeys entries := by
  induction entries generalizing text with
  | nil => exact String.append_empty.symm
  | cons entry rest ih =>
    rw [List.map_cons, comma_list_cons, ih, Expr.renderKeys_cons]
    simp only [String.append_assoc]

/-- The arguments of the call that a lookup is written as. -/
def lookupArguments (entries : List LookupEntry) : List (String × Expr) :=
  column entries (·.field) :: column entries (·.operator.name) ::
    entries.map fun entry => (entry.key.render, asCalls entry.key)

theorem lookup_render (entries : List LookupEntry) (fallback : Step) :
    (Expr.lookup ⟨entries, fallback⟩).render =
      FieldLookup.function ++ "(" ++ commaList ((lookupArguments entries).map (·.1)) ++ ")" := by
  have keys : (entries.map fun entry => (entry.key.render, asCalls entry.key)).map (·.1) =
      entries.map fun entry => entry.key.render := by
    rw [List.map_map]
    rfl
  rw [Expr.render_lookup, lookupArguments, List.map_cons, List.map_cons, keys,
    comma_list_cons, comma_list_keys]
  refine String.toList_inj.mp ?_
  simp [column]

theorem lookup_name : IsName FieldLookup.function := by
  have label : IsPlain "range".toList := by decide
  have word : IsWord "field".toList := by decide
  have named := IsName.labelled label word
  simpa [FieldLookup.function] using named

theorem lookup_written {entries : List LookupEntry} (fallback : Step)
    (inside : ∀ entry ∈ entries, ∃ tokens, Written entry.key tokens) :
    ∃ tokens, Written (.lookup ⟨entries, fallback⟩) tokens := by
  have each : ∀ item ∈ lookupArguments entries, Item item := by
    refine List.forall_mem_cons.mpr ⟨column_item _ _, List.forall_mem_cons.mpr
      ⟨column_item _ _, fun item member => ?_⟩⟩
    obtain ⟨entry, among, rfl⟩ := List.mem_map.mp member
    obtain ⟨tokens, written⟩ := inside entry among
    exact written_item written
  obtain ⟨tokens, spelled, enclosed⟩ := items_enclosed each
  refine ⟨.name FieldLookup.function :: .leftParen :: tokens ++ [.rightParen], ?_, ?_, fun _ => rfl⟩
  · rw [lookup_render]
    exact spells_call lookup_name spelled
  · have reads := call_primary (by decide : isKindName FieldLookup.function = false) enclosed
    have values : (lookupArguments entries).map (·.2) =
        sequenceOf (entries.map fun entry => .string entry.field) ::
          sequenceOf (entries.map fun entry => .string entry.operator.name) ::
            keysAsCalls entries := by
      rw [keys_as_calls_eq, lookupArguments, List.map_cons, List.map_cons, List.map_map]
      rfl
    rw [values] at reads
    exact reads

end Lookups

/-- The text of a faithful expression spells tokens that are read as it. -/
theorem faithful_written {e : Expr} (faithful : Faithful e) (spelled : Spelled e) :
    ∃ tokens, Written e tokens := by
  have single {e : Expr} {token : Token} (text : Spells (isTight e) e.render [token])
      (read : ReadsInPlace e [token]) (steps : beginsStep e = true → startsStep [token] = true) :
      ∃ tokens, Written e tokens := ⟨[token], text, read, steps⟩
  induction faithful with
  | root => exact single spells_root root_reads nofun
  | context =>
    exact single spells_context (token_primary rfl (fun _ => rfl) fun _ _ => rfl) fun _ => rfl
  | parent =>
    exact single spells_parent (token_primary rfl (fun _ => rfl) fun _ _ => rfl) fun _ => rfl
  | string value =>
    exact single (spells_literal value) (token_primary rfl (fun _ => rfl) fun _ _ => rfl) nofun
  | number value =>
    cases spelled with
    | number plus =>
      exact single (spells_number plus) (token_primary rfl (fun _ => rfl) fun _ _ => rfl) nofun
  | var name =>
    cases spelled with
    | var is =>
      exact ⟨_, spells_signed (c := '$') rfl (spells_name is), variable_primary name, nofun⟩
  | step head inside ih =>
    cases spelled with
    | step named filled parts =>
      exact step_written head named filled fun p listed x member =>
        ih p listed x member (parts p listed x member)
  | filter takes before inside ih ihs =>
    cases spelled with
    | filter first filtered filled parts =>
      obtain ⟨front, written⟩ := ih first
      exact filter_written written takes filtered filled fun p listed x member =>
        ihs p listed x member (parts p listed x member)
  | rooted begins follows after ih =>
    cases spelled with
    | path first second =>
      obtain ⟨back, written⟩ := ih second
      exact rooted_written written begins follows
  | path proper follows before after ih ih' =>
    cases spelled with
    | path first second =>
      obtain ⟨front, left⟩ := ih first
      obtain ⟨back, right⟩ := ih' second
      exact path_written left right proper follows
  | descent follows before after ih ih' =>
    cases spelled with
    | path base second =>
      cases base with
      | path first _ =>
        obtain ⟨front, left⟩ := ih first
        obtain ⟨back, right⟩ := ih' second
        exact descent_written left right follows
  | binary star before after ih ih' =>
    cases spelled with
    | binary first second =>
      obtain ⟨front, left⟩ := ih first
      obtain ⟨back, right⟩ := ih' second
      exact binary_written left right star
  | union plain plain' before after ih ih' =>
    cases spelled with
    | union first second =>
      obtain ⟨front, left⟩ := ih first
      obtain ⟨back, right⟩ := ih' second
      exact union_written left right plain plain'
  | negate inside ih =>
    cases spelled with
    | negate inner =>
      obtain ⟨front, written⟩ := ih inner
      exact negate_written written
  | call inside ih =>
    cases spelled with
    | call is other parts => exact call_written is other fun x member => ih x member (parts x member)
  | sequence inside ih =>
    cases spelled with
    | sequence several parts =>
      exact sequence_written several fun x member => ih x member (parts x member)
  | lookup inside ih =>
    cases spelled with
    | lookup parts => exact lookup_written _ fun entry member => ih entry member (parts entry member)

/-- A faithful expression is read back from its text, with its lookups as calls. -/
theorem faithful_read_back {e : Expr} (faithful : Faithful e) (spelled : Spelled e) :
    parse e.render = .ok (asCalls e) := by
  obtain ⟨tokens, written⟩ := faithful_written faithful spelled
  have whole := read_whole written.read (by decide) (one_le_strength e)
  rw [parse, tokenize_spelled written.spelled]
  exact whole.parsed

end RangeIndex.RenderedText

import RangeIndex.Proofs.TokenSpelling
import RangeIndex.Query.Parsing
import RangeIndex.Query.Printing

/-! The forms of expressions that the text of an expression depends on. The text puts parentheses
around weaker operators only, so a path, a step or a predicate that binds more loosely than its place
loses the parentheses it had in the query. An expression is faithful where none is lost. Lookups have
no syntax of their own and are written as calls. -/
namespace RangeIndex.RenderedForms
open Query TokenSpelling

section Forms

/-- Whether the text ends in a slash that stands for the root. -/
def endsInRoot : Expr → Bool
  | .root => true
  | .binary _ op right => decide (op.strength + 1 ≤ right.strength) && endsInRoot right
  | .union _ right => decide (unionStrength + 1 ≤ right.strength) && endsInRoot right
  | .negate inner => decide (negateStrength ≤ inner.strength) && endsInRoot inner
  | _ => false

/-- Whether the expression is a step, or a primary expression that begins like one, so that it can
follow the slash of the root. -/
def beginsStep : Expr → Bool
  | .step _ | .context | .parent | .call _ _ | .lookup _ => true
  | .filter inner _ => beginsStep inner
  | _ => false

/-- Whether the expression can follow a slash without parentheses of its own. The step that two
slashes stand for is not written after one. -/
def followsSlash : Expr → Bool
  | .root | .path _ _ => false
  | .step step => !step.isAbbreviated
  | _ => true

/-- Whether predicates after the expression filter all of it. -/
def takesPredicates : Expr → Bool
  | .root | .path _ _ | .step _ | .filter _ _ => false
  | _ => true

def isNegation : Expr → Bool
  | .negate _ => true
  | _ => false

/-- An axis with a node test that have no short form of their own, and no quote to close the target
of the test early. -/
structure FaithfulHead (axis : Axis) (test : NodeTest) : Prop where
  long : test = .node → axis ≠ .self ∧ axis ≠ .parent
  unquoted : ∀ target, test = .instruction (some target) → '"' ∉ target.toList

/-- Expressions whose text has all the parentheses that they need. -/
inductive Faithful : Expr → Prop where
  | root : Faithful .root
  | context : Faithful .context
  | parent : Faithful .parent
  | string (value : String) : Faithful (.string value)
  | number (value : Number.Finite) : Faithful (.number (.finite value))
  | var (name : String) : Faithful (.var name)
  | step {axis : Axis} {test : NodeTest} {predicates : List Predicate}
      (head : FaithfulHead axis test) (inside : ∀ p ∈ predicates, ∀ x ∈ p, Faithful x) :
      Faithful (.step ⟨axis, test, predicates⟩)
  | filter {inner : Expr} {predicates : List Predicate} (takes : takesPredicates inner = true)
      (before : Faithful inner) (inside : ∀ p ∈ predicates, ∀ x ∈ p, Faithful x) :
      Faithful (.filter inner predicates)
  | rooted {right : Expr} (begins : beginsStep right = true) (follows : followsSlash right = true)
      (after : Faithful right) : Faithful (.path .root right)
  | path {left right : Expr} (proper : left.isRoot = false) (follows : followsSlash right = true)
      (before : Faithful left) (after : Faithful right) : Faithful (.path left right)
  | descent {left right : Expr} (follows : followsSlash right = true) (before : Faithful left)
      (after : Faithful right) : Faithful (descend left right)
  | binary {left right : Expr} {op : BinaryOp}
      (star : op = .mul → left.strength < op.strength ∨ endsInRoot left = false)
      (before : Faithful left) (after : Faithful right) : Faithful (.binary left op right)
  | union {left right : Expr} (first : isNegation left = false) (second : isNegation right = false)
      (before : Faithful left) (after : Faithful right) : Faithful (.union left right)
  | negate {inner : Expr} (inside : Faithful inner) : Faithful (.negate inner)
  | call {function : String} {arguments : List Expr} (inside : ∀ x ∈ arguments, Faithful x) :
      Faithful (.call function arguments)
  | sequence {items : List Expr} (inside : ∀ x ∈ items, Faithful x) : Faithful (.sequence items)
  | lookup {entries : List LookupEntry} {fallback : Step}
      (inside : ∀ entry ∈ entries, Faithful entry.key) : Faithful (.lookup ⟨entries, fallback⟩)

/-- A node test whose name or label is spelled as names are. -/
def SpelledTest : NodeTest → Prop
  | .named written => IsName written
  | .labelled label => IsPlain label.toList
  | _ => True

/-- Expressions put together as queries can put them together: names are spelled as names are, a
number has no sign, no brackets are empty, and one expression in parentheses is no sequence. -/
inductive Spelled : Expr → Prop where
  | root : Spelled .root
  | context : Spelled .context
  | parent : Spelled .parent
  | string (value : String) : Spelled (.string value)
  | number {value : Number} (plus : Unsigned value) : Spelled (.number value)
  | var {name : String} (is : IsName name) : Spelled (.var name)
  | path {left right : Expr} (before : Spelled left) (after : Spelled right) :
      Spelled (.path left right)
  | step {axis : Axis} {test : NodeTest} {predicates : List Predicate} (head : SpelledTest test)
      (filled : ∀ p ∈ predicates, p ≠ []) (inside : ∀ p ∈ predicates, ∀ x ∈ p, Spelled x) :
      Spelled (.step ⟨axis, test, predicates⟩)
  | filter {inner : Expr} {predicates : List Predicate} (before : Spelled inner)
      (filtered : predicates ≠ []) (filled : ∀ p ∈ predicates, p ≠ [])
      (inside : ∀ p ∈ predicates, ∀ x ∈ p, Spelled x) : Spelled (.filter inner predicates)
  | binary {left right : Expr} {op : BinaryOp} (before : Spelled left) (after : Spelled right) :
      Spelled (.binary left op right)
  | union {left right : Expr} (before : Spelled left) (after : Spelled right) :
      Spelled (.union left right)
  | negate {inner : Expr} (inside : Spelled inner) : Spelled (.negate inner)
  | call {function : String} {arguments : List Expr} (is : IsName function)
      (other : isKindName function = false) (inside : ∀ x ∈ arguments, Spelled x) :
      Spelled (.call function arguments)
  | sequence {items : List Expr} (several : items.length ≠ 1) (inside : ∀ x ∈ items, Spelled x) :
      Spelled (.sequence items)
  | lookup {entries : List LookupEntry} {fallback : Step}
      (inside : ∀ entry ∈ entries, Spelled entry.key) : Spelled (.lookup ⟨entries, fallback⟩)

end Forms

section Lookups

mutual

/-- The expression with every lookup as the call it is written as. -/
def asCalls : Expr → Expr
  | .lookup ⟨entries, _⟩ =>
    .call FieldLookup.function
      (sequenceOf (entries.map fun entry => .string entry.field) ::
        sequenceOf (entries.map fun entry => .string entry.operator.name) :: keysAsCalls entries)
  | .path left right => .path (asCalls left) (asCalls right)
  | .step ⟨axis, test, predicates⟩ => .step ⟨axis, test, predicatesAsCalls predicates⟩
  | .filter inner predicates => .filter (asCalls inner) (predicatesAsCalls predicates)
  | .binary left op right => .binary (asCalls left) op (asCalls right)
  | .union left right => .union (asCalls left) (asCalls right)
  | .negate inner => .negate (asCalls inner)
  | .call function arguments => .call function (allAsCalls arguments)
  | .sequence items => .sequence (allAsCalls items)
  | .root => .root
  | .context => .context
  | .parent => .parent
  | .string value => .string value
  | .number value => .number value
  | .var name => .var name

/-- The expressions of a list with their lookups as calls. -/
def allAsCalls : List Expr → List Expr
  | [] => []
  | x :: rest => asCalls x :: allAsCalls rest

/-- The predicates of a list with their lookups as calls. -/
def predicatesAsCalls : List (List Expr) → List (List Expr)
  | [] => []
  | p :: rest => allAsCalls p :: predicatesAsCalls rest

/-- The keys of a lookup with their lookups as calls. -/
def keysAsCalls : List LookupEntry → List Expr
  | [] => []
  | ⟨_, _, key⟩ :: rest => asCalls key :: keysAsCalls rest

end

theorem all_as_calls_eq (items : List Expr) : allAsCalls items = items.map asCalls := by
  induction items with
  | nil => rfl
  | cons x rest ih => exact congrArg (asCalls x :: ·) ih

theorem predicates_as_calls_eq (predicates : List Predicate) :
    predicatesAsCalls predicates = predicates.map (List.map asCalls) := by
  induction predicates with
  | nil => rfl
  | cons p rest ih => exact List.cons_eq_cons.mpr ⟨all_as_calls_eq p, ih⟩

theorem keys_as_calls_eq (entries : List LookupEntry) :
    keysAsCalls entries = entries.map fun entry => asCalls entry.key := by
  induction entries with
  | nil => rfl
  | cons entry rest ih =>
    cases entry
    exact congrArg (_ :: ·) ih

end Lookups

end RangeIndex.RenderedForms

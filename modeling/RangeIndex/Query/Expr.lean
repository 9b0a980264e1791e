import RangeIndex.Number.Basic
import RangeIndex.Rule.Options

/-! Query expressions. A location step carries its predicates, and a predicate holds one or more
expressions. An index lookup stands in for a step and keeps that step, so nothing of the query is
forgotten when it is put to use. -/
namespace RangeIndex.Query

/-- An operator between two expressions. -/
inductive BinaryOp where
  | or
  | and
  | eq
  | notEq
  | lt
  | ltEq
  | gt
  | gtEq
  | add
  | sub
  | mul
  | div
  | mod
deriving DecidableEq, Repr

namespace BinaryOp

/-- The sign or word of the operator. -/
def symbol : BinaryOp → String
  | .or => "or"
  | .and => "and"
  | .eq => "="
  | .notEq => "!="
  | .lt => "<"
  | .ltEq => "<="
  | .gt => ">"
  | .gtEq => ">="
  | .add => "+"
  | .sub => "-"
  | .mul => "*"
  | .div => "div"
  | .mod => "mod"

/-- How tightly the operator binds, from one for the loosest. -/
def strength : BinaryOp → Nat
  | .or => 1
  | .and => 2
  | .eq | .notEq => 3
  | .lt | .ltEq | .gt | .gtEq => 4
  | .add | .sub => 5
  | .mul | .div | .mod => 6

/-- All operators, those that bind more loosely first. -/
def all : List BinaryOp :=
  [.or, .and, .eq, .notEq, .lt, .ltEq, .gt, .gtEq, .add, .sub, .mul, .div, .mod]

/-- The operator of that sign or word. -/
def ofSymbol? (symbol : String) : Option BinaryOp := all.find? fun op => op.symbol == symbol

@[simp] theorem ofSymbol?_symbol (op : BinaryOp) : ofSymbol? op.symbol = some op := by
  cases op <;> decide

/-- The comparison the operator makes, if it makes one. -/
def comparison? : BinaryOp → Option Operator
  | .eq => some .eq
  | .notEq => some .ne
  | .lt => some .lt
  | .ltEq => some .le
  | .gt => some .gt
  | .gtEq => some .ge
  | _ => none

end BinaryOp

/-- A direction to step in. -/
inductive Axis where
  | child
  | descendant
  | descendantOrSelf
  | parent
  | ancestor
  | ancestorOrSelf
  | followingSibling
  | precedingSibling
  | following
  | preceding
  | self
  | attribute
deriving DecidableEq, Repr

namespace Axis

/-- The name of the axis. -/
def name : Axis → String
  | .child => "child"
  | .descendant => "descendant"
  | .descendantOrSelf => "descendant-or-self"
  | .parent => "parent"
  | .ancestor => "ancestor"
  | .ancestorOrSelf => "ancestor-or-self"
  | .followingSibling => "following-sibling"
  | .precedingSibling => "preceding-sibling"
  | .following => "following"
  | .preceding => "preceding"
  | .self => "self"
  | .attribute => "attribute"

/-- All axes. -/
def all : List Axis :=
  [.child, .descendant, .descendantOrSelf, .parent, .ancestor, .ancestorOrSelf,
   .followingSibling, .precedingSibling, .following, .preceding, .self, .attribute]

/-- The axis of that name. -/
def ofName? (name : String) : Option Axis := all.find? fun axis => axis.name == name

@[simp] theorem ofName?_name (axis : Axis) : ofName? axis.name = some axis := by
  cases axis <;> decide

end Axis

/-- What a step requires of the nodes on its axis. -/
inductive NodeTest where
  /-- A name of any kind the axis leads to. -/
  | any
  /-- A name, with its label if it has one. -/
  | named (written : String)
  /-- Any name with the label. -/
  | labelled (label : String)
  | node
  | text
  | comment
  | instruction (target : Option String)
deriving DecidableEq, Repr

mutual

/-- A query expression. -/
inductive Expr where
  /-- The root of the document. -/
  | root
  /-- The context item. -/
  | context
  | parent
  /-- The right side evaluated for every item of the left. -/
  | path (left right : Expr)
  | step (step : Step)
  /-- The items of an expression that pass every predicate. -/
  | filter (inner : Expr) (predicates : List (List Expr))
  | binary (left : Expr) (op : BinaryOp) (right : Expr)
  | union (left right : Expr)
  | negate (inner : Expr)
  /-- A function call; the name is kept as written. -/
  | call (function : String) (arguments : List Expr)
  | sequence (items : List Expr)
  | string (value : String)
  | number (value : Number)
  | var (name : String)
  /-- An index lookup in place of a step. -/
  | lookup (lookup : FieldLookup)

/-- A step along an axis to the nodes that pass a test and every predicate. -/
structure Step where
  axis : Axis
  test : NodeTest
  predicates : List (List Expr)

/-- A field to look up, how to compare it and with what. -/
structure LookupEntry where
  field : String
  operator : Operator
  key : Expr

/-- Fields to look up together, and the step the lookup stands in for. -/
structure FieldLookup where
  entries : List LookupEntry
  fallback : Step

end

/-- What is between the brackets of a predicate. -/
abbrev Predicate := List Expr

namespace Step

/-- The step that two slashes stand for. -/
def descendantOrSelf : Step := ⟨.descendantOrSelf, .node, []⟩

/-- Whether two slashes stand for the step. -/
def isAbbreviated (step : Step) : Bool :=
  decide (step.axis = .descendantOrSelf) && decide (step.test = .node) && step.predicates.isEmpty

end Step

instance : Inhabited Expr := ⟨.root⟩

namespace Expr

/-- The step an expression is, or ends in. -/
def lastStep? : Expr → Option Step
  | .step last | .path _ (.step last) => some last
  | _ => none

/-- The predicates an expression ends in. -/
def lastPredicates : Expr → List Predicate
  | .filter _ predicates => predicates
  | e => (e.lastStep?.map (·.predicates)).getD []

end Expr

/-- Why a lookup cannot be built. -/
inductive LookupError where
  | noFields
  | unequalColumns (fields operators keys : Nat)
  | namelessField (index : Nat)
deriving DecidableEq, Repr

namespace LookupError

def text : LookupError → String
  | .noFields => "field lookup without fields"
  | .unequalColumns fields operators keys =>
    toString fields ++ " fields, " ++ toString operators ++ " operators and " ++ toString keys ++
      " keys"
  | .namelessField index => "field " ++ toString index ++ " has no name"

def message (error : LookupError) : String := "cannot construct expression: " ++ error.text

end LookupError

namespace FieldLookup

/-- The function a lookup is written as a call of. -/
def function : String := "range:field"

/-- A lookup of at least one field, each with a name. -/
def ofEntries? (entries : List LookupEntry) (fallback : Step) : Except LookupError FieldLookup :=
  if entries.isEmpty then .error .noFields
  else match entries.findIdx? fun entry => entry.field.isEmpty with
    | some index => .error (.namelessField index)
    | none => .ok ⟨entries, fallback⟩

/-- A lookup from its fields, operators and keys, which belong together in order. -/
def ofColumns? (fields : List String) (operators : List Operator) (keys : List Expr)
    (fallback : Step) : Except LookupError FieldLookup :=
  if fields.isEmpty then .error .noFields
  else if fields.length ≠ operators.length ∨ fields.length ≠ keys.length then
    .error (.unequalColumns fields.length operators.length keys.length)
  else
    let entries := (fields.zip (operators.zip keys)).map fun (field, operator, key) =>
      LookupEntry.mk field operator key
    ofEntries? entries fallback

end FieldLookup

/-! Two expressions are the same when they are built alike and their numbers are numerically
equal, so an expression with a non-number in it is not even the same as itself. -/

mutual

/-- Whether two expressions are the same. -/
def Expr.same : Expr → Expr → Bool
  | .root, .root => true
  | .context, .context => true
  | .parent, .parent => true
  | .path l r, .path l' r' => l.same l' && r.same r'
  | .step s, .step s' => s.same s'
  | .filter x ps, .filter x' ps' => x.same x' && Expr.samePredicates ps ps'
  | .binary l op r, .binary l' op' r' => l.same l' && op == op' && r.same r'
  | .union l r, .union l' r' => l.same l' && r.same r'
  | .negate x, .negate x' => x.same x'
  | .call f xs, .call f' xs' => f == f' && Expr.sameAll xs xs'
  | .sequence xs, .sequence xs' => Expr.sameAll xs xs'
  | .string v, .string v' => v == v'
  | .number v, .number v' => v.equals v'
  | .var v, .var v' => v == v'
  | .lookup l, .lookup l' => l.same l'
  | _, _ => false

/-- Whether two steps are the same. -/
def Step.same : Step → Step → Bool
  | ⟨axis, test, ps⟩, ⟨axis', test', ps'⟩ =>
    axis == axis' && test == test' && Expr.samePredicates ps ps'

/-- Whether two lookup entries are the same. -/
def LookupEntry.same : LookupEntry → LookupEntry → Bool
  | ⟨field, op, key⟩, ⟨field', op', key'⟩ => field == field' && op == op' && key.same key'

/-- Whether two lookups are the same. -/
def FieldLookup.same : FieldLookup → FieldLookup → Bool
  | ⟨es, step⟩, ⟨es', step'⟩ => Expr.sameEntries es es' && step.same step'

/-- Whether two lists of expressions are the same. -/
def Expr.sameAll : List Expr → List Expr → Bool
  | [], [] => true
  | x :: xs, x' :: xs' => x.same x' && Expr.sameAll xs xs'
  | _, _ => false

/-- Whether two lists of predicates are the same. -/
def Expr.samePredicates : List (List Expr) → List (List Expr) → Bool
  | [], [] => true
  | p :: ps, p' :: ps' => Expr.sameAll p p' && Expr.samePredicates ps ps'
  | _, _ => false

/-- Whether two lists of lookup entries are the same. -/
def Expr.sameEntries : List LookupEntry → List LookupEntry → Bool
  | [], [] => true
  | e :: es, e' :: es' => e.same e' && Expr.sameEntries es es'
  | _, _ => false

end

end RangeIndex.Query

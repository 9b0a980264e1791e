import RangeIndex.Number.Layout
import RangeIndex.Query.Expr

/-! The text of an expression. Operands that bind less tightly than their place requires are put
in parentheses, strings are between double quotes with a quote inside written twice, and an index
lookup is written as a call. -/
namespace RangeIndex.Query

/-- Texts with a comma between neighbours. -/
def commaList (texts : List String) : String := String.intercalate ", " texts

/-- A string literal. -/
def literal (value : String) : String :=
  String.ofList ('"' :: value.toList.flatMap (fun c => if c = '"' then ['"', '"'] else [c]) ++ ['"'])

/-- The text of a node test. The target of an instruction is written between quotes as it is. -/
def NodeTest.render : NodeTest → String
  | .any => "*"
  | .named written => written
  | .labelled label => label ++ ":*"
  | .node => "node()"
  | .text => "text()"
  | .comment => "comment()"
  | .instruction none => "processing-instruction()"
  | .instruction (some target) => "processing-instruction(\"" ++ target ++ "\")"

/-- An axis with a node test, in the short form where there is one. -/
def stepHead (axis : Axis) (test : NodeTest) : String :=
  match axis, test with
  | .child, test => test.render
  | .attribute, test => "@" ++ test.render
  | .self, .node => "."
  | .parent, .node => ".."
  | axis, test => axis.name ++ "::" ++ test.render

/-- How tightly everything but operators binds. -/
def tightest : Nat := 9

/-- How tightly a union binds. -/
def unionStrength : Nat := 7

/-- How tightly a minus sign binds. -/
def negateStrength : Nat := 8

/-- How tightly the outermost operator of an expression binds. -/
def Expr.strength : Expr → Nat
  | .binary _ op _ => op.strength
  | .union _ _ => unionStrength
  | .negate _ => negateStrength
  | _ => tightest

/-- Whether the expression is the root of the document. -/
def Expr.isRoot : Expr → Bool
  | .root => true
  | _ => false

/-- Whether the expression is a step that two slashes stand for. -/
def Expr.isAbbreviated : Expr → Bool
  | .step s => s.isAbbreviated
  | _ => false

/-- The text of an operand where one is required to bind at least so tightly. -/
def operandText (strength required : Nat) (text : String) : String :=
  if strength < required then "(" ++ text ++ ")" else text

mutual

/-- The text of an expression. -/
def Expr.render : Expr → String
  | .root => "/"
  | .context => "."
  | .parent => ".."
  | .path left right =>
    (if left.isRoot then "/" else operandText left.strength tightest left.render ++ "/") ++
      (if right.isAbbreviated then "" else operandText right.strength tightest right.render)
  | .step s => s.render
  | .filter inner predicates =>
    operandText inner.strength tightest inner.render ++ Expr.renderPredicates predicates
  | .binary left op right =>
    operandText left.strength op.strength left.render ++ " " ++ op.symbol ++ " " ++
      operandText right.strength (op.strength + 1) right.render
  | .union left right =>
    operandText left.strength unionStrength left.render ++ " | " ++
      operandText right.strength (unionStrength + 1) right.render
  | .negate inner => "-" ++ operandText inner.strength negateStrength inner.render
  | .call function arguments => function ++ "(" ++ commaList (Expr.renderAll arguments) ++ ")"
  | .sequence items => "(" ++ commaList (Expr.renderAll items) ++ ")"
  | .string value => literal value
  | .number value => value.queryText
  | .var name => "$" ++ name
  | .lookup l => l.render

/-- The text of a step. -/
def Step.render : Step → String
  | ⟨axis, test, predicates⟩ => stepHead axis test ++ Expr.renderPredicates predicates

/-- The text of a lookup: the names of the fields, those of the operators, and the keys. -/
def FieldLookup.render : FieldLookup → String
  | ⟨entries, _⟩ =>
    FieldLookup.function ++ "((" ++ commaList (entries.map fun e => literal e.field) ++ "), (" ++
      commaList (entries.map fun e => literal e.operator.name) ++ ")" ++
      Expr.renderKeys entries ++ ")"

/-- The texts of expressions. -/
def Expr.renderAll : List Expr → List String
  | [] => []
  | x :: rest => x.render :: Expr.renderAll rest

/-- The text of predicates in brackets. -/
def Expr.renderPredicates : List (List Expr) → String
  | [] => ""
  | p :: rest => "[" ++ commaList (Expr.renderAll p) ++ "]" ++ Expr.renderPredicates rest

/-- The text of the keys of a lookup, each after a comma. -/
def Expr.renderKeys : List LookupEntry → String
  | [] => ""
  | ⟨_, _, key⟩ :: rest => ", " ++ key.render ++ Expr.renderKeys rest

end

namespace Expr
variable (left right inner : Expr) (predicates : List Predicate) (items : List Expr)

theorem render_path : (Expr.path left right).render =
    (if left.isRoot then "/" else operandText left.strength tightest left.render ++ "/") ++
      (if right.isAbbreviated then "" else operandText right.strength tightest right.render) :=
  rfl

theorem render_step (axis : Axis) (test : NodeTest) :
    (Expr.step ⟨axis, test, predicates⟩).render =
      stepHead axis test ++ renderPredicates predicates :=
  rfl

theorem render_filter : (Expr.filter inner predicates).render =
    operandText inner.strength tightest inner.render ++ renderPredicates predicates :=
  rfl

theorem render_binary (op : BinaryOp) : (Expr.binary left op right).render =
    operandText left.strength op.strength left.render ++ " " ++ op.symbol ++ " " ++
      operandText right.strength (op.strength + 1) right.render :=
  rfl

theorem render_union : (Expr.union left right).render =
    operandText left.strength unionStrength left.render ++ " | " ++
      operandText right.strength (unionStrength + 1) right.render :=
  rfl

theorem render_negate :
    (Expr.negate inner).render = "-" ++ operandText inner.strength negateStrength inner.render :=
  rfl

theorem renderAll_eq : renderAll items = items.map render := by
  induction items with
  | nil => rfl
  | cons x rest ih => exact congrArg (x.render :: ·) ih

theorem render_call (function : String) :
    (Expr.call function items).render = function ++ "(" ++ commaList (items.map render) ++ ")" :=
  congrArg (fun texts => function ++ "(" ++ commaList texts ++ ")") (renderAll_eq items)

theorem render_sequence :
    (Expr.sequence items).render = "(" ++ commaList (items.map render) ++ ")" :=
  congrArg (fun texts => "(" ++ commaList texts ++ ")") (renderAll_eq items)

theorem renderPredicates_cons (p : Predicate) : renderPredicates (p :: predicates) =
    "[" ++ commaList (p.map render) ++ "]" ++ renderPredicates predicates :=
  congrArg (fun texts => "[" ++ commaList texts ++ "]" ++ renderPredicates predicates)
    (renderAll_eq p)

theorem renderKeys_cons (entry : LookupEntry) (entries : List LookupEntry) :
    renderKeys (entry :: entries) = ", " ++ entry.key.render ++ renderKeys entries := by
  cases entry
  rfl

theorem render_lookup (entries : List LookupEntry) (fallback : Step) :
    (Expr.lookup ⟨entries, fallback⟩).render =
      FieldLookup.function ++ "((" ++ commaList (entries.map fun e => literal e.field) ++ "), (" ++
        commaList (entries.map fun e => literal e.operator.name) ++ ")" ++ renderKeys entries ++
          ")" :=
  rfl

end Expr

end RangeIndex.Query

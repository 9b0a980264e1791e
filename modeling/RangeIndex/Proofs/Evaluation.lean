import RangeIndex.Proofs.LookupOrigins
import RangeIndex.Query.Focus

/-! What expressions come to. An evaluator says what each kind of expression makes of the values of the
expressions in it; how these hang together is the same for all evaluators. An expression is evaluated
with a focus: an item, its position among the items it is one of, and their number. The right side of a
path and the predicates of a filter or a step get a focus of their own, on each item of what they are
applied to. All other parts of an expression share its focus, so its value can depend on the focus only
through them and through what it reads of the focus itself. -/
namespace RangeIndex.Evaluation
open Query LookupOrigins

section Definitions

/-- What values are made of, besides truth values and texts. -/
structure Domain where
  Node : Type
  /-- Numbers of all types. -/
  Num : Type
  /-- Items of any other type. -/
  Atom : Type
  /-- Why an evaluation fails. -/
  Fault : Type

/-- One item of a value. -/
inductive Item (D : Domain) where
  | node (node : D.Node)
  | truth (value : Bool)
  | text (value : String)
  | number (value : D.Num)
  | atom (value : D.Atom)

/-- What an expression comes to: items in order, or a failure. -/
abbrev Outcome (D : Domain) := Except D.Fault (List (Item D))

/-- The context item, its position among the items it is one of, and their number. -/
structure Focus (D : Domain) where
  item : Item D
  position : Nat
  size : Nat

/-- What each kind of expression makes of what the expressions in it come to. -/
structure Evaluator (D : Domain) where
  root : Item D → Outcome D
  context : Item D → Outcome D
  parent : Item D → Outcome D
  /-- The nodes on an axis that pass a test, in the order of the axis. -/
  step : Axis → NodeTest → Item D → Outcome D
  /-- What a step yields of the nodes that passed its predicates. -/
  arrange : Axis → Outcome D → Outcome D
  /-- A path, from its left side and from the right side at each item of it. -/
  path : Outcome D → List (Outcome D) → Outcome D
  binary : BinaryOp → Outcome D → Outcome D → Outcome D
  union : Outcome D → Outcome D → Outcome D
  negate : Outcome D → Outcome D
  call : String → List (Outcome D) → Focus D → Outcome D
  sequence : List (Outcome D) → Outcome D
  var : String → Outcome D
  lookup : FieldLookup → Focus D → Outcome D
  /-- The number that a numeral stands for. -/
  numeral : Number → D.Num
  /-- Whether a number equals a position. -/
  isPosition : D.Num → Nat → Bool
  /-- The effective boolean value of items. -/
  effective : List (Item D) → Except D.Fault Bool

/-- A focus on each item of a value in turn. -/
def foci {D : Domain} : Outcome D → List (Focus D)
  | .error _ => []
  | .ok items => items.zipIdx.map fun (item, place) => ⟨item, place + 1, items.length⟩

namespace Evaluator
variable {D : Domain}

/-- Whether a predicate with this value is passed at a position: a number is passed at the position it
equals, anything else by its effective boolean value. -/
def passes (ev : Evaluator D) (position : Nat) : Outcome D → Except D.Fault Bool
  | .error fault => .error fault
  | .ok [.number value] => .ok (ev.isPosition value position)
  | .ok items => ev.effective items

/-- The items in focus that pass a predicate. -/
def passing (ev : Evaluator D) (predicate : Focus D → Outcome D) : List (Focus D) → Outcome D
  | [] => .ok []
  | focus :: rest => do
    let passed ← ev.passes focus.position (predicate focus)
    let others ← ev.passing predicate rest
    return if passed then focus.item :: others else others

/-- The items of a value that pass a predicate. -/
def select (ev : Evaluator D) (predicate : Focus D → Outcome D) : Outcome D → Outcome D
  | .error fault => .error fault
  | .ok items => ev.passing predicate (foci (.ok items))

/-- What several expressions come to together. -/
def together (ev : Evaluator D) : List (Outcome D) → Outcome D
  | [outcome] => outcome
  | outcomes => ev.sequence outcomes

mutual

/-- What an expression comes to with a focus. -/
def eval (ev : Evaluator D) : Expr → Focus D → Outcome D
  | .root, focus => ev.root focus.item
  | .context, focus => ev.context focus.item
  | .parent, focus => ev.parent focus.item
  | .path left right, focus =>
    ev.path (ev.eval left focus) ((foci (ev.eval left focus)).map (ev.eval right))
  | .step ⟨axis, test, predicates⟩, focus =>
    ev.arrange axis (ev.keep predicates (ev.step axis test focus.item))
  | .filter inner predicates, focus => ev.keep predicates (ev.eval inner focus)
  | .binary left op right, focus => ev.binary op (ev.eval left focus) (ev.eval right focus)
  | .union left right, focus => ev.union (ev.eval left focus) (ev.eval right focus)
  | .negate inner, focus => ev.negate (ev.eval inner focus)
  | .call function arguments, focus => ev.call function (ev.evalAll arguments focus) focus
  | .sequence items, focus => ev.sequence (ev.evalAll items focus)
  | .string value, _ => .ok [.text value]
  | .number value, _ => .ok [.number (ev.numeral value)]
  | .var name, _ => ev.var name
  | .lookup l, focus => ev.lookup l focus

/-- What expressions come to, one by one, with the same focus. -/
def evalAll (ev : Evaluator D) : List Expr → Focus D → List (Outcome D)
  | [], _ => []
  | x :: rest, focus => ev.eval x focus :: ev.evalAll rest focus

/-- The items of a value that pass predicates, each asked about what passed those before it. -/
def keep (ev : Evaluator D) : List (List Expr) → Outcome D → Outcome D
  | [], found => found
  | p :: rest, found =>
    ev.keep rest (ev.select (fun focus => ev.together (ev.evalAll p focus)) found)

end

/-- Whether the item in focus passes a predicate. -/
def passesPredicate (ev : Evaluator D) (predicate : Predicate) (focus : Focus D) :
    Except D.Fault Bool :=
  ev.passes focus.position (ev.together (ev.evalAll predicate focus))

end Evaluator

/-- The parts of an expression that share its focus. -/
def partsHere : Expr → List Expr
  | .path left _ => [left]
  | .filter inner _ => [inner]
  | .binary left _ right => [left, right]
  | .union left right => [left, right]
  | .negate inner => [inner]
  | .call _ arguments => arguments
  | .sequence items => items
  | _ => []

/-- What an expression reads of the focus itself is the same for two foci. -/
def ReadsSame {D : Domain} (ev : Evaluator D) (focus focus' : Focus D) : Expr → Prop
  | .root | .context | .parent | .step _ => focus.item = focus'.item
  | .call function arguments => ev.call function (ev.evalAll arguments focus) focus =
      ev.call function (ev.evalAll arguments focus) focus'
  | .lookup l => ev.lookup l focus = ev.lookup l focus'
  | _ => True

end Definitions

section Sharing
variable {D : Domain} {ev : Evaluator D} {focus focus' : Focus D} {e : Expr}

theorem part_here_is_part {part : Expr} (here : part ∈ partsHere e) : part ∈ parts e := by
  cases e with
  | path left right => exact List.mem_cons.mpr (.inl (List.mem_singleton.mp here))
  | filter inner predicates => exact List.mem_cons.mpr (.inl (List.mem_singleton.mp here))
  | binary | union | negate | call | sequence => exact here
  | root | context | parent | step | string | number | var | lookup => cases here

theorem eval_all_same {xs : List Expr}
    (each : ∀ x ∈ xs, ev.eval x focus = ev.eval x focus') :
    ev.evalAll xs focus = ev.evalAll xs focus' := by
  induction xs with
  | nil => rfl
  | cons x rest ih =>
    obtain ⟨head, later⟩ := List.forall_mem_cons.mp each
    rw [Evaluator.evalAll, Evaluator.evalAll, head, ih later]

/-- An expression has the same value with two foci if the parts that share them have, and if it reads
nothing else of them that differs. The right side of a path and the predicates are evaluated with foci
on the items of a value that is the same. -/
theorem same_value (each : ∀ part ∈ partsHere e, ev.eval part focus = ev.eval part focus')
    (own : ReadsSame ev focus focus' e) : ev.eval e focus = ev.eval e focus' := by
  cases e with
  | root => exact congrArg ev.root own
  | context => exact congrArg ev.context own
  | parent => exact congrArg ev.parent own
  | step step =>
    obtain ⟨axis, test, predicates⟩ := step
    exact congrArg (fun item => ev.arrange axis (ev.keep predicates (ev.step axis test item))) own
  | path left right =>
    have found := each left List.mem_cons_self
    rw [Evaluator.eval, Evaluator.eval, found]
  | filter inner predicates =>
    have found := each inner List.mem_cons_self
    rw [Evaluator.eval, Evaluator.eval, found]
  | binary left op right =>
    obtain ⟨first, second⟩ := forall_mem_pair.mp each
    rw [Evaluator.eval, Evaluator.eval, first, second]
  | union left right =>
    obtain ⟨first, second⟩ := forall_mem_pair.mp each
    rw [Evaluator.eval, Evaluator.eval, first, second]
  | negate inner => rw [Evaluator.eval, Evaluator.eval, each inner List.mem_cons_self]
  | call function arguments =>
    have given : ev.evalAll arguments focus = ev.evalAll arguments focus' := eval_all_same each
    rw [Evaluator.eval, Evaluator.eval, ← given]
    exact own
  | sequence items =>
    have listed : ev.evalAll items focus = ev.evalAll items focus' := eval_all_same each
    rw [Evaluator.eval, Evaluator.eval, listed]
  | string | number | var => rfl
  | lookup l => exact own

/-- A check that parts inherit, and under which nothing that differs is read, is enough for the same
value with both foci. -/
theorem same_value_of_check {check : Expr → Bool}
    (inherited : ∀ e, check e = false → ∀ part ∈ partsHere e, check part = false)
    (own : ∀ e, (∀ lookup, e ≠ .lookup lookup) → check e = false → ReadsSame ev focus focus' e)
    (plain : LookupFree e) (checked : check e = false) : ev.eval e focus = ev.eval e focus' := by
  revert checked
  refine lookup_free_induction (fun e notLookup _ inside checked => ?_) plain
  have each : ∀ part ∈ partsHere e, ev.eval part focus = ev.eval part focus' := by
    intro part here
    exact inside part (part_here_is_part here) (inherited e checked part here)
  exact same_value each (own e notLookup checked)

end Sharing

section Sample

/-- Nodes are told apart by the names that lead to them, and numbers are positions. -/
abbrev namedNodes : Domain := ⟨List String, Nat, Empty, Unit⟩

/-- The text of an item; that of a node is its own name. -/
def textOf : Item namedNodes → String
  | .node names => names.getLastD ""
  | .truth value => toString value
  | .text value => value
  | .number value => toString value

/-- The effective boolean value of items. -/
def isTrue : List (Item namedNodes) → Bool
  | [.truth value] => value
  | [.text value] => value != ""
  | items => !items.isEmpty

def isNode : Item namedNodes → Bool
  | .node _ => true
  | _ => false

/-- A value with nothing but its nodes. -/
def nodesOf (outcome : Outcome namedNodes) : Outcome namedNodes := outcome.map (List.filter isNode)

/-- Values one after the other, unless one of them failed. -/
def joined (outcomes : List (Outcome namedNodes)) : Outcome namedNodes :=
  outcomes.foldr (fun first rest => do return (← first) ++ (← rest)) (.ok [])

/-- In one document, where every element has just one child of each name. -/
def oneOfEach : Evaluator namedNodes where
  root _ := .ok [.node []]
  context item := .ok [item]
  parent
    | .node names => .ok [.node names.dropLast]
    | _ => .error ()
  step _ test
    | .node names =>
      match test with
      | .named name => .ok [.node (names ++ [name])]
      | _ => .ok [.node names]
    | _ => .error ()
  arrange _ := nodesOf
  path _ results := nodesOf (joined results)
  binary op left right := do
    let first ← left
    let second ← right
    return [.truth (match op with
      | .and => isTrue first && isTrue second
      | .or => isTrue first || isTrue second
      | _ => first.any fun a => second.any fun b => textOf a == textOf b)]
  union left right := joined [left, right]
  negate _ := .error ()
  call function arguments focus :=
    if isBuiltin truthFunctions function then .ok [.truth !arguments.isEmpty]
    else if arguments.isEmpty && isBuiltin implicitReaders function then
      .ok [if isPositional function then .number focus.position else focus.item]
    else .ok [.node []]
  sequence := joined
  var _ := .ok []
  lookup _ _ := .error ()
  numeral
    | .finite value => value.wholePart
    | _ => 0
  isPosition value position := decide (value = position)
  effective items := .ok (isTrue items)

end Sample

end RangeIndex.Evaluation

import RangeIndex.Location.Basic
import RangeIndex.Name.Bindings
import RangeIndex.Query.Expr

/-! What is known of an expression before it is evaluated: the pattern of the locations it leads
to, the path a predicate compares, and the collections it starts from. Where a step has no
structural pattern nothing is known. -/
namespace RangeIndex.Query

/-- What is known of a query's surroundings: the bindings of its labels, and the collections the
root stands for. -/
structure StaticContext where
  bindings : Bindings := .initial
  defaultCollections : List String := []

/-- The name of a function without the label `fn`; a function with any other label is none of
the built-in ones. -/
def builtin? (function : String) : Option String :=
  match splitLabel function with
  | (none, name) => some name
  | (some label, name) => if label = "fn" then some name else none

/-- Whether a function is one of the built-in ones of a list. -/
def isBuiltin (names : List String) (function : String) : Bool :=
  (builtin? function).any names.contains

/-- The components a step adds to the location it starts from, unless it has no pattern. -/
def stepComponents? (bindings : Bindings) (axis : Axis) (test : NodeTest) :
    Option (List Component) :=
  match axis, test with
  | .child, .named written => (bindings.qualify .element written).map fun name => [.named name]
  | .child, .any => some [.wildcard]
  | .attribute, .named written =>
    (bindings.qualify .attribute written).map fun name => [.named name]
  | .self, .node => some []
  | .descendantOrSelf, .node => some [.gap]
  | .descendant, .named written | .descendantOrSelf, .named written =>
    (bindings.qualify .element written).map fun name => [.gap, .named name]
  | .descendant, .any | .descendantOrSelf, .any => some [.gap, .wildcard]
  | _, _ => none

/-- The pattern extended by a step, unless the step has no pattern. -/
def extendByStep? (bindings : Bindings) (pattern : Pattern) (step : Step) : Option Pattern :=
  (stepComponents? bindings step.axis step.test).map fun components =>
    components.foldl Pattern.extend pattern

/-- Whether a function leads to the roots of stored documents. -/
def isDocumentRoot (function : String) : Bool := isBuiltin ["collection", "doc"] function

/-- The pattern of the locations an expression leads to, when it starts from documents and takes
only steps that have patterns. Predicates do not change it. -/
def contextPath? (bindings : Bindings) : Expr → Option Pattern
  | .root => some .empty
  | .call function _ => if isDocumentRoot function then some .empty else none
  | .filter inner _ => contextPath? bindings inner
  | .path left (.step step) =>
    (contextPath? bindings left).bind fun pattern => extendByStep? bindings pattern step
  | _ => none

/-- The pattern of a path relative to the context item, when no step of it has predicates. -/
def innerPath? (bindings : Bindings) : Expr → Option Pattern
  | .context => some .empty
  | .step step =>
    if step.predicates.isEmpty then extendByStep? bindings .empty step else none
  | .path left (.step step) =>
    (innerPath? bindings left).bind fun pattern =>
      if step.predicates.isEmpty then extendByStep? bindings pattern step else none
  | _ => none

/-- The expression a path starts from, when that is the root or a call that leads to documents. -/
def pathRoot? : Expr → Option Expr
  | .root => some .root
  | .call function arguments =>
    if isDocumentRoot function then some (.call function arguments) else none
  | .filter inner _ => pathRoot? inner
  | .path left _ => pathRoot? left
  | _ => none

/-- The collection a document is in, by its address. -/
def documentCollection? (address : String) : Option String :=
  (Text.cutAtLast '/' address.toList).map fun (collection, _) =>
    if collection.isEmpty then "/" else String.ofList collection

/-- The collections a path can reach from its root. The root of the document stands for the
default collections, and an address that is not a literal for none that are known. -/
def rootCollections (context : StaticContext) : Expr → List String
  | .root => context.defaultCollections
  | .call function (.string address :: _) =>
    match builtin? function with
    | some "collection" => [address]
    | some "doc" => (documentCollection? address).toList
    | _ => []
  | _ => []

end RangeIndex.Query

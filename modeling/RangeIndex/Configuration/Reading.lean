import RangeIndex.Configuration.Outline
import RangeIndex.Location.Reading
import RangeIndex.Rule.Basic

/-! Reading the rules of a collection from its configuration document. Every `create` element is
read on its own, so a rule at fault is reported and left out, and the others are not affected. -/
namespace RangeIndex.Configuration

/-- What is wrong with a configuration document or with one rule in it. -/
inductive Fault where
  | nesting (fault : NestingFault)
  | wrongRoot (tag : String)
  | emptyDocument
  | bothPathForms
  | noPathForm
  | namelessField (path : String)
  | conditionsWithoutField (path : String)
  | noConditionAttribute
  | unboundConditionLabel (written : String)
  | noConditionValue (written : String)
  | unsupportedOperator (name : String)
  | unknownWhiteSpace (name : String)
  | unknownType (name : String)
  | notYesOrNo (setting found : String)
deriving DecidableEq, Repr

namespace Fault

def text : Fault → String
  | .nesting f => f.text
  | .wrongRoot tag => "expected <collection> document element, found <" ++ tag ++ ">"
  | .emptyDocument => "empty configuration document"
  | .bothPathForms => "`create` takes either `qname` or `match`, not both"
  | .noPathForm => "`create` needs a `qname` or `match`"
  | .namelessField path => "field of `" ++ path ++ "` has no name"
  | .conditionsWithoutField path => "conditions on `" ++ path ++ "` require at least one field"
  | .noConditionAttribute => "condition has no `attribute`"
  | .unboundConditionLabel written =>
    "unbound prefix in condition attribute `" ++ written ++ "`"
  | .noConditionValue written => "condition on `@" ++ written ++ "` has no `value`"
  | .unsupportedOperator name => "unsupported condition operator `" ++ name ++ "`"
  | .unknownWhiteSpace name => "unknown whitespace treatment `" ++ name ++ "`"
  | .unknownType name => "unknown index type `" ++ name ++ "`"
  | .notYesOrNo setting found =>
    "`" ++ setting ++ "` must be yes or no, found `" ++ found ++ "`"

end Fault

/-- An error of a configuration: in a path, or elsewhere. -/
inductive Error where
  | path (error : PathError)
  | fault (fault : Fault)
deriving DecidableEq, Repr

def Error.message : Error → String
  | .path e => e.message
  | .fault f => "invalid index configuration: " ++ f.text

open Text

/-- The value of a yes-or-no setting of an element, or its default. -/
def readFlag (element : Element) (setting : String) (default : Bool) : Except Error Bool :=
  match (element.get? setting).map trimmed with
  | none => .ok default
  | some value =>
    if value = "yes" ∨ value = "true" then .ok true
    else if value = "no" ∨ value = "false" then .ok false
    else .error (.fault (.notYesOrNo setting value))

/-- The value of a setting with a fixed vocabulary, or its default. -/
def readNamed {α : Type} (element : Element) (setting : String) (ofName? : String → Option α)
    (unknown : String → Fault) (default : α) : Except Error α :=
  match element.get? setting with
  | none => .ok default
  | some name =>
    match ofName? (trimmed name) with
    | some value => .ok value
    | none => .error (.fault (unknown name))

/-- The text options of an element; what it leaves open is inherited. -/
def readOptions (element : Element) (inherited : TextOptions) : Except Error TextOptions := do
  let whiteSpace ←
    readNamed element "whitespace" WhiteSpace.ofName? .unknownWhiteSpace inherited.whiteSpace
  let type ← readNamed element "type" ValueType.ofName? .unknownType inherited.type
  let caseSensitive ← readFlag element "case" inherited.caseSensitive
  let nested ← readFlag element "nested" inherited.nested
  return ⟨whiteSpace, caseSensitive, nested, type⟩

/-- A pattern in an attribute of a configuration; all of them are open at the end. -/
def readPath (bindings : Bindings) (path : String) : Except Error Pattern :=
  match Pattern.read bindings false path with
  | .ok pattern => .ok pattern
  | .error error => .error (.path error)

/-- The pattern of a rule: a name, which may be anywhere, or a path, which may start anywhere
unless it begins with a slash. -/
def readRulePath (element : Element) : Except Error Pattern :=
  match element.get? "qname", element.get? "match" with
  | some name, none => readPath element.bindings ("//" ++ trimmed name)
  | none, some path =>
    let path := trimmed path
    readPath element.bindings (if path.toList.head? = some '/' then path else "//" ++ path)
  | some _, some _ => .error (.fault .bothPathForms)
  | none, none => .error (.fault .noPathForm)

/-- The name in an attribute of a condition, without the mark that it may have in front. -/
def readConditionName (element : Element) : Except Error String :=
  match ((element.get? "attribute").map trimmed).filter (· != "") with
  | none => .error (.fault .noConditionAttribute)
  | some written =>
    match written.toList with
    | '@' :: name => .ok (String.ofList name)
    | _ => .ok written

/-- The operator of a condition. Pattern matching is not among those it may use. -/
def readConditionOperator (element : Element) : Except Error Operator :=
  readNamed element "operator" (fun name => (Operator.ofName? name).filter (· != .matches))
    .unsupportedOperator .eq

/-- The condition an element stands for. -/
def readCondition (element : Element) : Except Error Condition := do
  let written ← readConditionName element
  let some subject := element.bindings.qualify .attribute written
    | throw (.fault (.unboundConditionLabel written))
  let some value := element.get? "value" | throw (.fault (.noConditionValue written))
  let operator ← readConditionOperator element
  let caseSensitive ← readFlag element "case" true
  let numeric ← readFlag element "numeric" false
  return ⟨subject, value, operator, caseSensitive, numeric⟩

/-- Add the field an element stands for to a rule, whose options it inherits. -/
def addField (rule : Rule) (element : Element) : Except Error Rule := do
  let some name := ((element.get? "name").map trimmed).filter (· != "")
    | throw (.fault (.namelessField rule.path.text))
  let below ← (element.get? "match").mapM (readPath element.bindings)
  let options ← readOptions element rule.options
  return rule.withField name below options

/-- The rule a `create` element stands for. -/
def readRule (element : Element) : Except Error Rule := do
  let path ← readRulePath element
  let options ← readOptions element {}
  let conditions ← (element.childrenTagged "condition").mapM readCondition
  let rule ← (element.childrenTagged "field").foldlM addField ⟨path, conditions, [], options⟩
  if !rule.conditions.isEmpty && !rule.isComplex then
    throw (.fault (.conditionsWithoutField rule.path.text))
  return rule

/-- The `create` elements of a document, in its order. -/
def creates (root : Element) : List Element :=
  (root.childrenTagged "index").flatMap fun index =>
    (index.childrenTagged "range").flatMap fun range => range.childrenTagged "create"

/-- The rules read and the errors met. -/
structure Report where
  ruleSet : RuleSet
  errors : List Error
deriving DecidableEq, Repr

/-- The rules of a list of elements, and the errors of those that stand for none. -/
def readRules (elements : List Element) : List Rule × List Error :=
  let results := elements.map readRule
  (results.filterMap fun | .ok rule => some rule | .error _ => none,
    results.filterMap fun | .ok _ => none | .error error => some error)

/-- The rules configured for a collection by a document with the given outline. Faults in the
nesting come first among the errors. -/
def readOutline (collection : String) (outline : Outline) : Report :=
  let nesting := outline.faults.map fun fault => Error.fault (.nesting fault)
  match outline.root with
  | none => ⟨⟨collection, []⟩, nesting ++ [.fault .emptyDocument]⟩
  | some root =>
    if root.tag = "collection" then
      let (rules, errors) := readRules (creates root)
      ⟨⟨collection, rules⟩, nesting ++ errors⟩
    else ⟨⟨collection, []⟩, nesting ++ [.fault (.wrongRoot root.tag)]⟩

/-- The rules configured for a collection by a document. -/
def load (collection : String) (document : List UInt8) : Report :=
  readOutline collection (.ofEvents (Markup.events document))

end RangeIndex.Configuration

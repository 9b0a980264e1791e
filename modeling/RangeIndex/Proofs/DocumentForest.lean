import RangeIndex.Entry.Indexer
import RangeIndex.Proofs.ScopeNesting

/-! What a document ought to be indexed as, by recursion on its elements and without a walk. An
element contributes the entries of its attributes, then those of its children, then its own; and
the fields of an entry are read off the element's subtree the same way. -/
namespace RangeIndex.DocumentForest
open Markup ScopeNesting

/-- Elements and texts in order. An element without children may be written as one short tag. -/
inductive Forest where
  | empty
  | text (content : String) (rest : Forest)
  | element (name : String) (attributes : List Attribute) (short : Bool) (children rest : Forest)

/-- Where in a document something is, and what is bound there. -/
structure Place where
  location : Pattern
  bindings : Bindings

namespace Place

/-- Outside all elements. -/
def document : Place := ⟨.empty, .initial⟩

/-- An element with its attributes as it is found at a place: what it declares is bound for its own
name already. -/
def below (place : Place) (name : String) (attributes : List Attribute) : Place :=
  let bindings := place.bindings.declareAll (effective (attributes.filterMap declaredBy?))
  ⟨place.location.push (.named (elementName bindings name)), bindings⟩

/-- The attributes of an element that declare nothing. -/
def values (place : Place) (attributes : List Attribute) : List AttributeValue :=
  (attributes.filter fun a => (declaredBy? a).isNone).map fun a =>
    ⟨attributeName place.bindings a.name, a.value⟩

/-- The location of an attribute of an element. -/
def attributeAt (place : Place) (a : AttributeValue) : Pattern := place.location.push (.named a.name)

@[simp] theorem length_below (place : Place) (name : String) (attributes : List Attribute) :
    (place.below name attributes).location.length = place.location.length + 1 := by
  simp [below]

end Place

namespace Forest

def isEmpty : Forest → Bool
  | empty => true
  | _ => false

/-- How deep elements are nested. -/
def depth : Forest → Nat
  | empty => 0
  | text _ rest => rest.depth
  | element _ _ _ children rest => max (children.depth + 1) rest.depth

/-- What a reader reports of the forest. -/
def events : Forest → List Event
  | empty => []
  | text content rest => .characters content :: rest.events
  | element name attributes short children rest =>
    let own := if short && children.isEmpty then [.opened name attributes true]
      else .opened name attributes false :: (children.events ++ [.closed name])
    own ++ rest.events

/-- All text. -/
def content : Forest → String
  | empty => ""
  | text content rest => content ++ rest.content
  | element _ _ _ children rest => children.content ++ rest.content

/-- The text that is in no further element. -/
def ownContent : Forest → String
  | empty => ""
  | text content rest => content ++ rest.ownContent
  | element _ _ _ _ rest => rest.ownContent

/-- The text whose enclosing element is at a location a pattern accepts. -/
def contentAt (path : Pattern) (place : Place) : Forest → String
  | empty => ""
  | text content rest =>
    (if path.isMatch place.location then content else "") ++ rest.contentAt path place
  | element name attributes _ children rest =>
    children.contentAt path (place.below name attributes) ++ rest.contentAt path place

end Forest

section Fields

/-- A text under the name of a field. An empty text makes no field. -/
def namedField (field : FieldRule) (text : String) : List Field :=
  if text = "" then [] else [⟨some field.name, text, field.options⟩]

/-- Collectors make fields of texts in the same way. -/
theorem field_of_text (field : FieldRule) (text : String) :
    FieldCollector.fieldOf field text = namedField field text := by
  simp [FieldCollector.fieldOf, namedField]

/-- The fields that the attributes of an element are the values of. -/
def attributeFields (fields : List FieldRule) (place : Place) (values : List AttributeValue) :
    List Field :=
  values.flatMap fun a =>
    (fields.filter fun field => field.targetsAttribute && field.covers (place.attributeAt a)).flatMap
      fun field => namedField field a.value

/-- The text of an element that a field takes. -/
def fieldContent (field : FieldRule) (children : Forest) : String :=
  if field.options.nested then children.content else children.ownContent

/-- The fields that an element itself is the value of, the last declared first. -/
def elementFields (fields : List FieldRule) (place : Place) (children : Forest) : List Field :=
  (fields.filter fun field => !field.targetsAttribute && field.covers place.location).reverse.flatMap
    fun field => namedField field (fieldContent field children)

/-- The fields found in a forest: for each element those of its attributes, of its children, and
its own. -/
def fieldsIn (fields : List FieldRule) (place : Place) : Forest → List Field
  | .empty => []
  | .text _ rest => fieldsIn fields place rest
  | .element name attributes _ children rest =>
    let here := place.below name attributes
    attributeFields fields here (here.values attributes) ++ fieldsIn fields here children ++
      elementFields fields here children ++ fieldsIn fields place rest

/-- The text that a simple rule takes of an element with these children. -/
def simpleContent (path : Pattern) (options : TextOptions) (place : Place) (children : Forest) :
    String :=
  if options.nested then children.content else children.contentAt path place

/-- The fields of a rule's entry for an element. -/
def nodeFields (rule : Rule) (place : Place) (values : List AttributeValue) (children : Forest) :
    List Field :=
  if rule.isComplex then
    attributeFields rule.fields place values ++ fieldsIn rule.fields place children ++
      elementFields rule.fields place children
  else [⟨none, simpleContent rule.path rule.options place children, rule.options⟩]

end Fields

section Entries

/-- The rules whose path leads to a location, each with its place among all rules. -/
def rulesAt (rules : RuleSet) (location : Pattern) : List (Nat × Rule) :=
  rules.numbered.filter fun (_, rule) => rule.path.isMatch location

/-- A walk asks for the same rules. -/
theorem for_node_at (rules : RuleSet) (location : Pattern) :
    rules.forNode location = rulesAt rules location :=
  rfl

/-- The entries of simple rules for the attributes of an element. -/
def attributeEntries (rules : RuleSet) (place : Place) (values : List AttributeValue) :
    List IndexEntry :=
  values.flatMap fun a =>
    ((rulesAt rules (place.attributeAt a)).filter fun (_, rule) => !rule.isComplex).map
      fun (index, rule) => ⟨index, (place.attributeAt a).text, [⟨none, a.value, rule.options⟩]⟩

/-- The entries for an element itself, by the rules it meets; one without fields is left out. -/
def elementEntries (rules : RuleSet) (place : Place) (values : List AttributeValue)
    (children : Forest) : List IndexEntry :=
  let met := (rulesAt rules place.location).filter fun (_, rule) => rule.conditionsHold values
  met.flatMap fun (index, rule) =>
    let fields := nodeFields rule place values children
    if fields.isEmpty then [] else [⟨index, place.location.text, fields⟩]

/-- The entries of a forest: for each element those of its attributes, of its children, and its
own. -/
def entriesIn (rules : RuleSet) (place : Place) : Forest → List IndexEntry
  | .empty => []
  | .text _ rest => entriesIn rules place rest
  | .element name attributes _ children rest =>
    let here := place.below name attributes
    let values := here.values attributes
    attributeEntries rules here values ++ entriesIn rules here children ++
      elementEntries rules here values children ++ entriesIn rules place rest

end Entries

end RangeIndex.DocumentForest

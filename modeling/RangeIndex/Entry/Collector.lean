import RangeIndex.Entry.Field

/-! A collector follows one indexed node and gathers its text. It is told of every start, end,
attribute and text inside the node together with the current location, which is the element's
own, or the attribute's below its element. -/
namespace RangeIndex

/-- The collector of a simple rule: the rule's pattern and options, and the text so far. -/
structure SimpleCollector where
  path : Pattern
  options : TextOptions
  gathered : String
deriving DecidableEq, Repr

namespace SimpleCollector

/-- The collector of a rule that already holds a text. -/
def holding (rule : Rule) (text : String) : SimpleCollector := ⟨rule.path, rule.options, text⟩

/-- Text at a location. Without nested text only that of the rule's own locations counts. -/
def characters (collector : SimpleCollector) (text : String) (location : Pattern) :
    SimpleCollector :=
  if collector.options.nested || collector.path.isMatch location then
    { collector with gathered := collector.gathered ++ text }
  else collector

/-- The one field gathered, and the collector emptied. -/
def finish (collector : SimpleCollector) : List Field × SimpleCollector :=
  ([⟨none, collector.gathered, collector.options⟩], { collector with gathered := "" })

end SimpleCollector

/-- A field being gathered, with the depth of the element that started it. -/
structure OpenField where
  field : FieldRule
  depth : Nat
  gathered : String
deriving DecidableEq, Repr

/-- The collector of a complex rule: its fields, those being gathered with the latest first, and
those gathered, in order. -/
structure FieldCollector where
  fields : List FieldRule
  opened : List OpenField
  gathered : List Field
deriving DecidableEq, Repr

namespace FieldCollector

/-- The collector of a rule, with nothing gathered. -/
def new (rule : Rule) : FieldCollector := ⟨rule.fields, [], []⟩

/-- The field that a text makes; an empty text makes none. -/
def fieldOf (field : FieldRule) (text : String) : List Field :=
  if text.isEmpty then [] else [⟨some field.name, text, field.options⟩]

/-- An element starts at a location: the fields there that are not attributes are opened. -/
def start (collector : FieldCollector) (location : Pattern) : FieldCollector :=
  let starting := collector.fields.filter fun field =>
    !field.targetsAttribute && field.covers location
  { collector with
    opened := (starting.map fun field => ⟨field, location.length, ""⟩).reverse ++
      collector.opened }

/-- Whether an open field belongs to an element at a depth or below. -/
def endsAt (depth : Nat) (field : OpenField) : Bool := decide (depth ≤ field.depth)

/-- The element at a location ends: the fields opened in it are completed, the latest first. -/
def close (collector : FieldCollector) (location : Pattern) : FieldCollector :=
  let ending := collector.opened.takeWhile (endsAt location.length)
  { collector with
    opened := collector.opened.dropWhile (endsAt location.length)
    gathered := collector.gathered ++ ending.flatMap fun f => fieldOf f.field f.gathered }

/-- Text at a location. A field without nested text takes only that of its own element. -/
def characters (collector : FieldCollector) (text : String) (location : Pattern) :
    FieldCollector :=
  { collector with
    opened := collector.opened.map fun f =>
      if f.field.options.nested || f.depth == location.length then
        { f with gathered := f.gathered ++ text }
      else f }

/-- An attribute at a location is the whole text of the fields there. -/
def attributeValue (collector : FieldCollector) (value : String) (location : Pattern) :
    FieldCollector :=
  let found := collector.fields.filter fun field =>
    field.targetsAttribute && field.covers location
  { collector with
    gathered := collector.gathered ++ found.flatMap fun field => fieldOf field value }

/-- The fields gathered, open ones completed first, and the collector emptied. -/
def finish (collector : FieldCollector) : List Field × FieldCollector :=
  (collector.gathered ++ collector.opened.flatMap fun f => fieldOf f.field f.gathered,
    { collector with opened := [], gathered := [] })

end FieldCollector

/-- A collector of either kind. -/
inductive Collector where
  | simple (collector : SimpleCollector)
  | complex (collector : FieldCollector)
deriving DecidableEq, Repr

namespace Collector

/-- The collector for a node of a rule, by the rule's own kind. -/
def ofRule (rule : Rule) : Collector :=
  if rule.isComplex then .complex (.new rule) else .simple (.holding rule "")

/-- Whether the collector gathers named fields. -/
def hasFields : Collector → Bool
  | .simple _ => false
  | .complex _ => true

/-- An element starts at a location. -/
def start (location : Pattern) : Collector → Collector
  | .simple c => .simple c
  | .complex c => .complex (c.start location)

/-- The element at a location ends. -/
def close (location : Pattern) : Collector → Collector
  | .simple c => .simple c
  | .complex c => .complex (c.close location)

/-- Text at a location. -/
def characters (text : String) (location : Pattern) : Collector → Collector
  | .simple c => .simple (c.characters text location)
  | .complex c => .complex (c.characters text location)

/-- An attribute at a location. -/
def attributeValue (value : String) (location : Pattern) : Collector → Collector
  | .simple c => .simple c
  | .complex c => .complex (c.attributeValue value location)

/-- The fields gathered, and the collector emptied. -/
def finish : Collector → List Field × Collector
  | .simple c => (c.finish.1, .simple c.finish.2)
  | .complex c => (c.finish.1, .complex c.finish.2)

end Collector

end RangeIndex

import RangeIndex.Location.Matching
import RangeIndex.Rule.Condition

/-! A rule binds a pattern to the entries it creates. A simple rule stores the text of the node
it matches. A complex rule stores named fields found at and below the node, and conditions may
restrict it. -/
namespace RangeIndex

/-- A named field of a complex rule; its pattern starts at the document, not at the node. -/
structure FieldRule where
  name : String
  path : Pattern
  options : TextOptions
deriving DecidableEq, Repr

namespace FieldRule

/-- Whether the field covers a location. -/
def covers (field : FieldRule) (location : Pattern) : Bool := field.path.isMatch location

/-- Whether the field is an attribute's value. -/
def targetsAttribute (field : FieldRule) : Bool := field.path.targetsAttribute

end FieldRule

/-- What is stored for the nodes a pattern matches. -/
structure Rule where
  path : Pattern
  conditions : List Condition := []
  fields : List FieldRule := []
  options : TextOptions := {}
deriving DecidableEq, Repr

namespace Rule

/-- The rule with one condition more. -/
def withCondition (rule : Rule) (condition : Condition) : Rule :=
  { rule with conditions := rule.conditions ++ [condition] }

/-- The rule with one field more, at a path below the node, or at the node itself. -/
def withField (rule : Rule) (name : String) (below : Option Pattern) (options : TextOptions) :
    Rule :=
  let path := match below with
    | some below => rule.path.joined below
    | none => rule.path
  { rule with fields := rule.fields ++ [⟨name, path, options⟩] }

/-- Whether the rule stores named fields. -/
def isComplex (rule : Rule) : Bool := !rule.fields.isEmpty

/-- Whether the rule's node or one of its fields is at a location. -/
def covers (rule : Rule) (location : Pattern) : Bool :=
  rule.path.isMatch location || rule.fields.any fun field => field.covers location

/-- The first field at a location. -/
def fieldAt? (rule : Rule) (location : Pattern) : Option FieldRule :=
  rule.fields.find? fun field => field.covers location

/-- Whether an element with these attributes meets all conditions. -/
def conditionsHold (rule : Rule) (attributes : List AttributeValue) : Bool :=
  rule.conditions.all fun condition => condition.holds attributes

/-- Whether the rule's node is an attribute. -/
def targetsAttribute (rule : Rule) : Bool := rule.path.targetsAttribute

end Rule

/-- The rules configured for a collection, in the order they were declared. -/
structure RuleSet where
  collection : String
  rules : List Rule
deriving DecidableEq, Repr

namespace RuleSet

/-- Whether some rule stores named fields. -/
def hasFields (set : RuleSet) : Bool := set.rules.any Rule.isComplex

/-- The rules, each with its place in the set. -/
def numbered (set : RuleSet) : List (Nat × Rule) :=
  set.rules.zipIdx.map fun (rule, index) => (index, rule)

/-- The complex rules with their node or a field at a location, each with its place in the
set. -/
def covering (set : RuleSet) (location : Pattern) : List (Nat × Rule) :=
  set.numbered.filter fun (_, rule) => rule.isComplex && rule.covers location

/-- The rules that create an entry for the node at a location, each with its place in the
set. -/
def forNode (set : RuleSet) (location : Pattern) : List (Nat × Rule) :=
  set.numbered.filter fun (_, rule) => rule.path.isMatch location

/-- Whether some rule may create an entry for a node at a location of this length. -/
def reaches (set : RuleSet) (length : Nat) : Bool :=
  set.rules.any fun rule => rule.path.allowsLength length

/-- Where no rule reaches there is no entry to create. -/
theorem forNode_eq_nil {set : RuleSet} {location : Pattern}
    (unreached : set.reaches location.length = false) : set.forNode location = [] := by
  rw [forNode, List.filter_eq_nil_iff]
  rintro ⟨index, rule⟩ member satisfied
  obtain ⟨⟨first, place⟩, found, same⟩ := List.mem_map.mp member
  obtain rfl : first = rule := congrArg Prod.snd same
  have listed : first ∈ set.rules := List.mem_of_getElem? (List.mem_zipIdx_iff_getElem?.mp found)
  have allowed := Pattern.allowsLength_of_isMatch satisfied
  exact Bool.false_ne_true (unreached.symm.trans (List.any_eq_true.mpr ⟨first, listed, allowed⟩))

end RuleSet

end RangeIndex

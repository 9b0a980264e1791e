import RangeIndex.Name.Basic

/-! A pattern is a sequence of names, single-element wildcards and gaps. The same type serves
rules, which match, and locations, which are matched. A closed pattern also matches everything
below what it describes. -/
namespace RangeIndex

/-- One part of a pattern. -/
inductive Component where
  /-- An element or attribute of that name. -/
  | named (name : QName)
  /-- Any one element. -/
  | wildcard
  /-- Any number of levels, none included. -/
  | gap
deriving DecidableEq, Repr

namespace Component

def isGap : Component → Bool
  | .gap => true
  | _ => false

def isNamed : Component → Bool
  | .named _ => true
  | _ => false

/-- Whether the component is the name of an attribute. -/
def isAttribute : Component → Bool
  | .named name => name.isAttribute
  | _ => false

/-- The component between slashes; a gap leaves nothing there. -/
def text : Component → String
  | .named name => name.text
  | .wildcard => "*"
  | .gap => ""

/-- Whether two components are the same up to the labels of their names. -/
def same : Component → Component → Bool
  | .named a, .named b => a.same b
  | .wildcard, .wildcard => true
  | .gap, .gap => true
  | _, _ => false

/-- Whether one component that is not a gap accepts one component of a location. -/
def accepts : Component → Component → Bool
  | .wildcard, .named actual => !actual.isAttribute
  | .named expected, .named actual => actual.same expected
  | _, _ => false

@[simp] theorem same_refl (component : Component) : component.same component = true := by
  cases component <;> simp [same, QName.same_iff]

end Component

/-- A sequence of components with its behaviour at the end. -/
structure Pattern where
  components : List Component
  closed : Bool
deriving DecidableEq, Repr

namespace Pattern

/-- The pattern of the document itself. -/
def empty : Pattern := ⟨[], false⟩

instance : Inhabited Pattern := ⟨empty⟩

def isEmpty (pattern : Pattern) : Bool := pattern.components.isEmpty

def length (pattern : Pattern) : Nat := pattern.components.length

def last? (pattern : Pattern) : Option Component := pattern.components.getLast?

/-- Whether the pattern names every level. -/
def isLiteral (pattern : Pattern) : Bool := pattern.components.all Component.isNamed

/-- Whether the pattern ends in the name of an attribute. -/
def targetsAttribute (pattern : Pattern) : Bool := pattern.last?.any Component.isAttribute

/-- Add a component at the end. -/
def push (pattern : Pattern) (component : Component) : Pattern :=
  { pattern with components := pattern.components ++ [component] }

/-- Drop the last component, if there is one. -/
def pop (pattern : Pattern) : Pattern :=
  { pattern with components := pattern.components.dropLast }

/-- Add a component at the end unless that would put two gaps side by side. -/
def extend (pattern : Pattern) (component : Component) : Pattern :=
  if component.isGap && pattern.last?.any Component.isGap then pattern
  else pattern.push component

/-- The components of one pattern followed by those of another; the first decides on the end. -/
def joined (pattern other : Pattern) : Pattern :=
  { pattern with components := pattern.components ++ other.components }

/-- Whether two patterns have the same end and the same components up to labels. -/
def same (a b : Pattern) : Bool :=
  a.closed == b.closed && a.length == b.length &&
    (a.components.zip b.components).all fun (x, y) => x.same y

/-- The pattern with a slash before every component, or one slash when there is none. -/
def text (pattern : Pattern) : String :=
  if pattern.isEmpty then "/" else String.join (pattern.components.map fun c => "/" ++ c.text)

theorem isEmpty_iff {pattern : Pattern} : pattern.isEmpty = true ↔ pattern.length = 0 := by
  simp [isEmpty, length]

@[simp] theorem length_push (pattern : Pattern) (component : Component) :
    (pattern.push component).length = pattern.length + 1 := by
  simp [push, length]

@[simp] theorem pop_push (pattern : Pattern) (component : Component) :
    (pattern.push component).pop = pattern := by
  simp [push, pop]

@[simp] theorem length_joined (pattern other : Pattern) :
    (pattern.joined other).length = pattern.length + other.length := by
  simp [joined, length]

theorem joined_assoc (a b c : Pattern) : (a.joined b).joined c = a.joined (b.joined c) := by
  simp [joined]

@[simp] theorem same_refl (pattern : Pattern) : pattern.same pattern = true := by
  obtain ⟨components, closed⟩ := pattern
  have each : (components.zip components).all (fun (x, y) => x.same y) = true := by
    induction components with
    | nil => rfl
    | cons component rest ih => simp [ih]
  simp [same, each]

end Pattern

end RangeIndex

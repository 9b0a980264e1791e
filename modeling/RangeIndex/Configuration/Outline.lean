import RangeIndex.Markup.Event
import RangeIndex.Name.Bindings

/-! The element tree of a configuration document. Building it tolerates faults in the nesting:
each is recorded, and the tree is closed as if the tags had matched. Text is of no interest. -/
namespace RangeIndex.Configuration

/-- An element with its plain attributes and the bindings in force on it. -/
structure Element where
  tag : String
  attributes : List (String × String)
  bindings : Bindings
  children : List Element

/-- A fault in the nesting of a document. -/
inductive NestingFault where
  | contentAfterRoot (tag : String)
  | mismatchedEnd (found expected : String)
  | unexpectedEnd (tag : String)
  | unclosed (tag : String)
deriving DecidableEq, Repr

namespace NestingFault

def text : NestingFault → String
  | .contentAfterRoot tag => "content after document element: <" ++ tag ++ ">"
  | .mismatchedEnd found expected =>
    "mismatched end tag </" ++ found ++ ">, expected </" ++ expected ++ ">"
  | .unexpectedEnd tag => "unexpected end tag </" ++ tag ++ ">"
  | .unclosed tag => "unclosed element <" ++ tag ++ ">"

end NestingFault

namespace Element

/-- The value of an attribute, the first one where it is repeated. -/
def get? (element : Element) (name : String) : Option String := element.attributes.lookup name

/-- The children with a tag, in order. -/
def childrenTagged (element : Element) (tag : String) : List Element :=
  element.children.filter fun child => child.tag == tag

/-- Add a child after the others. -/
def addChild (element child : Element) : Element :=
  { element with children := element.children ++ [child] }

/-- What a declaration of a label binds: the label and its namespace. The default namespace is
not one, as no name of a configuration is in it. -/
def declaration? (a : Markup.Attribute) : Option (String × String) :=
  match splitLabel a.name with
  | (some "xmlns", label) => some (label, a.value)
  | _ => none

/-- Whether an attribute declares a namespace, the default one included. -/
def isDeclaration (a : Markup.Attribute) : Bool :=
  a.name == "xmlns" || (splitLabel a.name).1 == some "xmlns"

/-- The element a start tag opens inside others with the given bindings. -/
def ofTag (inherited : Bindings) (name : String) (attributes : List Markup.Attribute) :
    Element where
  tag := (splitLabel name).2
  attributes := (attributes.filter fun a => !isDeclaration a).map fun a => (a.name, a.value)
  bindings := inherited.declareAll (attributes.filterMap declaration?)
  children := []

end Element

/-- The state of building: the open elements, the innermost first, the document element once it
is closed, and the faults met. -/
structure Outline where
  opened : List Element := []
  root : Option Element := none
  faults : List NestingFault := []

namespace Outline

/-- Before the first tag. -/
def initial : Outline := {}

instance : Inhabited Outline := ⟨initial⟩

/-- Record a fault. -/
def report (outline : Outline) (fault : NestingFault) : Outline :=
  { outline with faults := outline.faults ++ [fault] }

/-- Put a finished element in its place: under the innermost open one, or as the root. -/
def place (outline : Outline) (element : Element) : Outline :=
  match outline.opened, outline.root with
  | parent :: outer, _ => { outline with opened := parent.addChild element :: outer }
  | [], none => { outline with root := some element }
  | [], some _ => outline.report (.contentAfterRoot element.tag)

/-- The bindings in force where the next element starts. -/
def bindings (outline : Outline) : Bindings :=
  match outline.opened with
  | parent :: _ => parent.bindings
  | [] => .initial

/-- The outline after one more event. -/
def add (outline : Outline) : Markup.Event → Outline
  | .opened name attributes selfClosing =>
    let element := Element.ofTag outline.bindings name attributes
    if selfClosing then outline.place element
    else { outline with opened := element :: outline.opened }
  | .closed name =>
    let tag := (splitLabel name).2
    match outline.opened with
    | [] => outline.report (.unexpectedEnd tag)
    | element :: outer =>
      let outline := { outline with opened := outer }
      if element.tag = tag then outline.place element
      else (outline.report (.mismatchedEnd tag element.tag)).place element
  | .characters _ => outline

/-- Close the elements still open, the innermost first, so many of them at most. -/
def closeOpen : Nat → Outline → Outline
  | 0, outline => outline
  | count + 1, outline =>
    match outline.opened with
    | [] => outline
    | element :: outer =>
      closeOpen count
        (({ outline with opened := outer }.report (.unclosed element.tag)).place element)

/-- The outline of a whole document. -/
def ofEvents (events : List Markup.Event) : Outline :=
  let outline := events.foldl add initial
  closeOpen outline.opened.length outline

end Outline

end RangeIndex.Configuration

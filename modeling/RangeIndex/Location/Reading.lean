import RangeIndex.Location.Basic
import RangeIndex.Name.Bindings
import RangeIndex.Text.Blank

/-! Reading a pattern from text in one pass. A slash in front only marks the text as absolute; from
there on each slash ends a segment, and the component that the segment stands for is added to those
before it. An empty segment is a gap, and adds nothing where a gap stands already, but the last segment
may not be empty. Reading stops at the first segment at fault. -/
namespace RangeIndex

/-- What is wrong with a segment. -/
inductive PathFault where
  | noComponents
  | trailingSlash
  | emptyAttributeName
  | unboundLabel (written : String)
deriving DecidableEq, Repr

/-- A text that is no path, and why. -/
structure PathError where
  path : String
  fault : PathFault
deriving DecidableEq, Repr

namespace PathFault

def text : PathFault → String
  | .noComponents => "path has no components"
  | .trailingSlash => "trailing slash"
  | .emptyAttributeName => "empty attribute name"
  | .unboundLabel written => "unbound prefix in `" ++ written ++ "`"

end PathFault

def PathError.message (error : PathError) : String :=
  "invalid path `" ++ error.path ++ "`: " ++ error.fault.text

namespace Pattern

/-- What a segment names, and the name. A mark in front makes it the name of an attribute. -/
def splitMark : List Char → NameKind × List Char
  | '@' :: name => (.attribute, name)
  | name => (.element, name)

/-- The component a non-empty segment other than a wildcard stands for. -/
def readName (bindings : Bindings) (segment : List Char) : Except PathFault Component :=
  let (kind, name) := splitMark segment
  if name.isEmpty then .error .emptyAttributeName
  else match bindings.qualify kind (String.ofList name) with
    | none => .error (.unboundLabel (String.ofList name))
    | some name => .ok (.named name)

/-- The component a trimmed segment stands for. -/
def readSegment (bindings : Bindings) : List Char → Except PathFault Component
  | [] => .ok .gap
  | ['*'] => .ok .wildcard
  | segment => readName bindings segment

/-- Add what the last segment stands for to what is read already. -/
def readLast (bindings : Bindings) (before : Pattern) (segment : List Char) :
    Except PathFault Pattern :=
  if segment.isEmpty then .error (if before.isEmpty then .noComponents else .trailingSlash)
  else (readSegment bindings segment).map before.extend

/-- Read on in a text, with what is read already and the current segment so far. -/
def readRest (bindings : Bindings) (before : Pattern) (segment : List Char) :
    List Char → Except PathFault Pattern
  | [] => readLast bindings before (Text.trim segment)
  | c :: rest =>
    if c = '/' then
      match readSegment bindings (Text.trim segment) with
      | .error fault => .error fault
      | .ok component => readRest bindings (before.extend component) [] rest
    else readRest bindings before (segment ++ [c]) rest

/-- A path text without the slash that marks it as absolute. -/
def body (path : String) : List Char :=
  match path.toList with
  | '/' :: body => body
  | body => body

/-- The pattern a text stands for under the given bindings. -/
def read (bindings : Bindings) (closed : Bool) (path : String) : Except PathError Pattern :=
  match readRest bindings ⟨[], closed⟩ [] (body path) with
  | .error fault => .error ⟨path, fault⟩
  | .ok pattern => .ok pattern

end Pattern

end RangeIndex

import RangeIndex.Name.Basic

/-! Bindings that follow the nesting of a document. Each declaration remembers the depth it was
made at, and leaving a scope drops the declarations made at its depth or below. Depth is counted
in 16 bits and does not fall below zero. -/
namespace RangeIndex

/-- A declaration; an empty label sets the default namespace. -/
structure Declaration where
  label : String
  space : String
  depth : UInt16
deriving DecidableEq, Repr

/-- The declarations in force, the latest first, and the depth of the innermost scope. -/
structure Scopes where
  declarations : List Declaration
  depth : UInt16
deriving DecidableEq, Repr

namespace Scopes

/-- Outside all scopes, with `xml` bound. -/
def initial : Scopes := ⟨[⟨"xml", xmlNamespace, 0⟩], 0⟩

instance : Inhabited Scopes := ⟨initial⟩

/-- Enter a scope. -/
def push (scopes : Scopes) : Scopes := { scopes with depth := scopes.depth + 1 }

/-- Leave the innermost scope together with what was declared in it. -/
def pop (scopes : Scopes) : Scopes where
  declarations := scopes.declarations.dropWhile fun d => decide (scopes.depth ≤ d.depth)
  depth := if scopes.depth = 0 then 0 else scopes.depth - 1

/-- Leave all scopes, keeping only the oldest declaration. -/
def clear (scopes : Scopes) : Scopes := ⟨scopes.declarations.getLast?.toList, 0⟩

/-- Whether a label's meaning is fixed, so that declarations of it are ignored. -/
def isReserved (label : String) : Bool := label == "xml" || label == "xmlns"

/-- Declare a label in the innermost scope. -/
def declare (scopes : Scopes) (label space : String) : Scopes :=
  if isReserved label then scopes
  else { scopes with declarations := ⟨label, space, scopes.depth⟩ :: scopes.declarations }

/-- The namespace of a label. A declaration with an empty namespace takes the label out of
force. -/
def resolve (scopes : Scopes) (label : String) : Option String :=
  presentText ((scopes.declarations.find? fun d => d.label == label).map (·.space))

/-- The name of an element; without a label it is in the default namespace. -/
def elementName (scopes : Scopes) (written : String) : QName :=
  let (label, localPart) := splitLabel written
  .ofParts .element (scopes.resolve (label.getD "")) localPart label

/-- The name of an attribute; without a label it is in no namespace. -/
def attributeName (scopes : Scopes) (written : String) : QName :=
  match splitLabel written with
  | (none, localPart) => .unqualified .attribute localPart
  | (some label, localPart) => .ofParts .attribute (scopes.resolve label) localPart (some label)

end Scopes

end RangeIndex

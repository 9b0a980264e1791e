import RangeIndex.Rule.Basic

/-! Text gathered for an entry, and the value it is stored as. -/
namespace RangeIndex

/-- A field of an entry; the field of a simple rule has no name. -/
structure Field where
  name : Option String
  content : String
  options : TextOptions
deriving DecidableEq, Repr

namespace Field

/-- The stored value: white space is treated first, then case. -/
def value (field : Field) : String :=
  let text := String.ofList (field.options.whiteSpace.apply field.content.toList)
  if field.options.caseSensitive then text else Text.lowercase text

end Field

end RangeIndex

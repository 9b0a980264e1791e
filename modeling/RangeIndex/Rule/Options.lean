import RangeIndex.Text.Blank
import RangeIndex.Text.Pieces

/-! The vocabulary of rules: operators that compare stored text with keys, treatments of white
space, and the declared types of stored values. Each has the names it goes by in a
configuration. -/
namespace RangeIndex

/-- A comparison shared by conditions, predicates and lookups. -/
inductive Operator where
  | eq
  | ne
  | lt
  | gt
  | le
  | ge
  | startsWith
  | endsWith
  | contains
  | matches
deriving DecidableEq, Repr

namespace Operator

/-- The name of the operator. -/
def name : Operator → String
  | .eq => "eq"
  | .ne => "ne"
  | .lt => "lt"
  | .gt => "gt"
  | .le => "le"
  | .ge => "ge"
  | .startsWith => "starts-with"
  | .endsWith => "ends-with"
  | .contains => "contains"
  | .matches => "matches"

/-- All operators. -/
def all : List Operator :=
  [.eq, .ne, .lt, .gt, .le, .ge, .startsWith, .endsWith, .contains, .matches]

/-- The operator of that name. -/
def ofName? (name : String) : Option Operator := all.find? fun op => op.name == name

@[simp] theorem ofName?_name (op : Operator) : ofName? op.name = some op := by
  cases op <;> decide

end Operator

/-- What is done to white space in stored text. -/
inductive WhiteSpace where
  /-- Nothing. -/
  | keep
  /-- It is dropped at the ends. -/
  | trim
  /-- It is dropped at the ends, and each run inside becomes one space. -/
  | collapse
deriving DecidableEq, Repr

namespace WhiteSpace

/-- The first of the names of a treatment. -/
def name : WhiteSpace → String
  | .keep => "none"
  | .trim => "normalize"
  | .collapse => "collapse"

/-- The treatment of that name. -/
def ofName? (name : String) : Option WhiteSpace :=
  if name = "none" ∨ name = "preserve" then some .keep
  else if name = "normalize" ∨ name = "trim" then some .trim
  else if name = "collapse" then some .collapse
  else none

@[simp] theorem ofName?_name (treatment : WhiteSpace) :
    ofName? treatment.name = some treatment := by
  cases treatment <;> decide

/-- Put out a word behind the output so far, which is kept backwards. A space goes between the two
unless nothing is put out yet. -/
def addWord (output word : List Char) : List Char :=
  if output.isEmpty then word.reverse else word.reverse ++ ' ' :: output

/-- The text with its white space treated. -/
def apply : WhiteSpace → List Char → List Char
  | .keep, text => text
  | .trim, text => Text.trimBy Text.isMarkupBlank text
  | .collapse, text => ((Text.words Text.isMarkupBlank text).foldl addWord []).reverse

end WhiteSpace

/-- The declared type of a stored value. -/
inductive ValueType where
  | string
  | integer
  | decimal
  | double
  | float
  | boolean
  | date
  | dateTime
  | time
deriving DecidableEq, Repr

namespace ValueType

/-- The name of the type in the namespace of schema types. -/
def localName : ValueType → String
  | .string => "string"
  | .integer => "integer"
  | .decimal => "decimal"
  | .double => "double"
  | .float => "float"
  | .boolean => "boolean"
  | .date => "date"
  | .dateTime => "dateTime"
  | .time => "time"

/-- The name of the type with its usual label. -/
def name (type : ValueType) : String := "xs:" ++ type.localName

/-- All types. -/
def all : List ValueType :=
  [.string, .integer, .decimal, .double, .float, .boolean, .date, .dateTime, .time]

/-- The name without the label `xs`. -/
def dropLabel (name : String) : String :=
  match name.toList with
  | 'x' :: 's' :: ':' :: rest => String.ofList rest
  | _ => name

/-- The type of that name, with or without its label; the narrower integers count as
integers. -/
def ofName? (name : String) : Option ValueType :=
  let name := dropLabel name
  if name = "int" ∨ name = "long" ∨ name = "short" then some .integer
  else all.find? fun type => type.localName == name

@[simp] theorem ofName?_localName (type : ValueType) : ofName? type.localName = some type := by
  cases type <;> decide

@[simp] theorem ofName?_name (type : ValueType) : ofName? type.name = some type := by
  cases type <;> decide

end ValueType

/-- How the text of an entry is gathered and stored. -/
structure TextOptions where
  whiteSpace : WhiteSpace := .keep
  caseSensitive : Bool := true
  /-- Whether text inside nested elements belongs to the entry. -/
  nested : Bool := true
  type : ValueType := .string
deriving DecidableEq, Repr

instance : Inhabited TextOptions := ⟨{}⟩

end RangeIndex

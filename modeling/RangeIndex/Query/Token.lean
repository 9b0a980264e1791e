import RangeIndex.Number.Layout
import RangeIndex.Text.Quoted

/-! The tokens of query text. Operator words are tokens of their own and never names. -/
namespace RangeIndex.Query

/-- A token. -/
inductive Token where
  | slash
  | doubleSlash
  | dot
  | doubleDot
  | atSign
  | pipe
  | plus
  | minus
  | star
  | eq
  | notEq
  | lt
  | ltEq
  | gt
  | gtEq
  | and
  | or
  | mod
  | div
  | leftParen
  | rightParen
  | leftBracket
  | rightBracket
  | comma
  | dollar
  | number (value : Number)
  | string (value : String)
  /-- A name, with its label if it has one. -/
  | name (written : String)
  /-- Any name with a label. -/
  | labelWildcard (label : String)
  /-- The name of an axis with the two colons after it. -/
  | axis (name : String)
deriving DecidableEq

namespace Token

/-- The word a token's kind is called by. -/
def kindName : Token → String
  | .slash => "Slash"
  | .doubleSlash => "DoubleSlash"
  | .dot => "Dot"
  | .doubleDot => "DoubleDot"
  | .atSign => "At"
  | .pipe => "Pipe"
  | .plus => "Plus"
  | .minus => "Minus"
  | .star => "Star"
  | .eq => "Eq"
  | .notEq => "NotEq"
  | .lt => "Lt"
  | .ltEq => "LtEq"
  | .gt => "Gt"
  | .gtEq => "GtEq"
  | .and => "And"
  | .or => "Or"
  | .mod => "Mod"
  | .div => "Div"
  | .leftParen => "LeftParen"
  | .rightParen => "RightParen"
  | .leftBracket => "LeftBracket"
  | .rightBracket => "RightBracket"
  | .comma => "Comma"
  | .dollar => "Dollar"
  | .number _ => "Number"
  | .string _ => "String"
  | .name _ => "Name"
  | .labelWildcard _ => "PrefixWildcard"
  | .axis _ => "Axis"

/-- What a token carries, as messages show it. -/
def contentText : Token → Option String
  | .number value => some value.messageText
  | .string value => some (Text.quoted value)
  | .name written => some (Text.quoted written)
  | .labelWildcard label => some (Text.quoted label)
  | .axis written => some (Text.quoted written)
  | _ => none

/-- A token inside a message: its kind, and what it carries in parentheses. -/
def messageText (token : Token) : String :=
  match token.contentText with
  | some content => token.kindName ++ "(" ++ content ++ ")"
  | none => token.kindName

/-- A token that may be missing, inside a message. -/
def optionText : Option Token → String
  | some token => "Some(" ++ token.messageText ++ ")"
  | none => "None"

end Token

/-- What keeps a text from being cut into tokens. -/
inductive LexicalFault where
  | unterminatedComment
  | unterminatedString
  | unexpectedCharacter (c : Char)
  | incompleteName (label : String)
deriving DecidableEq, Repr

namespace LexicalFault

def text : LexicalFault → String
  | .unterminatedComment => "unterminated comment"
  | .unterminatedString => "unterminated string literal"
  | .unexpectedCharacter c => "unexpected character `" ++ c.toString ++ "`"
  | .incompleteName label => "incomplete qualified name `" ++ label ++ ":`"

end LexicalFault

/-- What keeps a text from being a query. Offsets count bytes. -/
inductive QueryError where
  | lexical (fault : LexicalFault) (offset : Nat)
  | trailing (token : Token)
  | expected (expected : Token) (found : Option Token)
  | expectedVariable (found : Option Token)
  | expectedNodeTest (found : Option Token)
  | unexpected (token : Token)
  | unexpectedEnd
  | unknownAxis (name : String)
deriving DecidableEq

namespace QueryError

def text : QueryError → String
  | .lexical fault offset => fault.text ++ " at offset " ++ toString offset
  | .trailing token => "unexpected " ++ token.messageText ++ " after expression"
  | .expected wanted (some found) =>
    "expected " ++ wanted.messageText ++ ", found " ++ found.messageText
  | .expected wanted none => "expected " ++ wanted.messageText ++ ", found end of input"
  | .expectedVariable found => "expected variable name, found " ++ Token.optionText found
  | .expectedNodeTest found => "expected node test, found " ++ Token.optionText found
  | .unexpected token => "unexpected " ++ token.messageText
  | .unexpectedEnd => "unexpected end of input"
  | .unknownAxis name => "unknown axis `" ++ name ++ "`"

def message (error : QueryError) : String := "query syntax error: " ++ error.text

end QueryError

end RangeIndex.Query

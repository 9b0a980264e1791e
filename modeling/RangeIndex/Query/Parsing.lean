import RangeIndex.Query.Expr
import RangeIndex.Query.Lexing

/-! Reading expressions from tokens. The grammar has one level for each strength of operator;
below them are signs, unions, paths, steps and primary expressions. A budget bounds how deep the
readers call each other. Between two tokens taken there are fewer calls than `levels`, so the
budget that a query is given is never used up. -/
namespace RangeIndex.Query

namespace BinaryOp

/-- The operator a token stands for. -/
def ofToken? : Token → Option BinaryOp
  | .or => some .or
  | .and => some .and
  | .eq => some .eq
  | .notEq => some .notEq
  | .lt => some .lt
  | .ltEq => some .ltEq
  | .gt => some .gt
  | .gtEq => some .gtEq
  | .plus => some .add
  | .minus => some .sub
  | .star => some .mul
  | .div => some .div
  | .mod => some .mod
  | _ => none

/-- The operator a token stands for, if it is one of the given strength. -/
def at? (strength : Nat) (token : Token) : Option BinaryOp :=
  (ofToken? token).filter fun op => op.strength == strength

/-- The greatest strength of an operator. -/
def strongest : Nat := 6

end BinaryOp

/-- What a reader makes of the tokens in front, and the tokens after them. -/
abbrev Taken (α : Type) := α × List Token

/-- Take one token, which has to be the given one. -/
def expect (token : Token) : List Token → Except QueryError (List Token)
  | found :: rest => if found = token then .ok rest else .error (.expected token (some found))
  | [] => .error (.expected token none)

/-- Whether a name in front of a parenthesis is a node test and not a function. -/
def isKindName (name : String) : Bool :=
  name == "node" || name == "text" || name == "comment" || name == "processing-instruction"

/-- The node test of a kind name. -/
def kindTest (name : String) (target : Option String) : NodeTest :=
  if name = "node" then .node
  else if name = "text" then .text
  else if name = "comment" then .comment
  else .instruction target

/-- The target that the test of an instruction may have. -/
def takeTarget (name : String) (tokens : List Token) : Option String × List Token :=
  if name = "processing-instruction" then
    match tokens with
    | .string target :: rest | .name target :: rest => (some target, rest)
    | tokens => (none, tokens)
  else (none, tokens)

/-- The axis in front, the child axis where none is written. -/
def readAxis : List Token → Except QueryError (Taken Axis)
  | .atSign :: rest => .ok (.attribute, rest)
  | .axis name :: rest =>
    match Axis.ofName? name with
    | some axis => .ok (axis, rest)
    | none => .error (.unknownAxis name)
  | tokens => .ok (.child, tokens)

/-- The node test in front. -/
def readNodeTest : List Token → Except QueryError (Taken NodeTest)
  | .star :: rest => .ok (.any, rest)
  | .labelWildcard label :: rest => .ok (.labelled label, rest)
  | .name name :: .leftParen :: rest =>
    if isKindName name then do
      let (target, rest) := takeTarget name rest
      let rest ← expect .rightParen rest
      return (kindTest name target, rest)
    else .ok (.named name, .leftParen :: rest)
  | .name name :: rest => .ok (.named name, rest)
  | found :: _ => .error (.expectedNodeTest (some found))
  | [] => .error (.expectedNodeTest none)

/-- Whether a step can follow the slash of the root. -/
def startsStep : List Token → Bool
  | .atSign :: _ | .axis _ :: _ | .star :: _ | .labelWildcard _ :: _ | .name _ :: _ | .dot :: _
  | .doubleDot :: _ => true
  | _ => false

/-- The axis and node test in front. -/
def readStepHead (tokens : List Token) : Except QueryError (Taken (Axis × NodeTest)) := do
  let (axis, rest) ← readAxis tokens
  let (test, rest) ← readNodeTest rest
  return ((axis, test), rest)

/-- The variable after a dollar sign. -/
def readVariable : List Token → Except QueryError (Taken Expr)
  | .name name :: rest => .ok (.var name, rest)
  | tokens => .error (.expectedVariable tokens.head?)

/-- The operator in front, if it is one of the given strength. -/
def takeOperator (strength : Nat) : List Token → Option (BinaryOp × List Token)
  | token :: rest => (BinaryOp.at? strength token).map (·, rest)
  | [] => none

/-- Whether the tokens in front are a location step and not a primary expression. -/
def isLocationStep : List Token → Bool
  | .atSign :: _ | .axis _ :: _ | .star :: _ | .labelWildcard _ :: _ => true
  | .name name :: .leftParen :: _ => isKindName name
  | .name _ :: _ => true
  | _ => false

/-- A step of the descendants of a base, as two slashes abbreviate it. -/
def descend (base step : Expr) : Expr := .path (.path base (.step .descendantOrSelf)) step

/-- An expression with the predicates after it, itself when there are none. -/
def filtered (inner : Expr) (predicates : List Predicate) : Expr :=
  if predicates.isEmpty then inner else .filter inner predicates

/-- A list of expressions as one: a single one as itself, and any others as a sequence. -/
def sequenceOf : List Expr → Expr
  | [item] => item
  | items => .sequence items

mutual

/-- One or more expressions with commas between them. -/
def readList : Nat → List Token → Except QueryError (Taken (List Expr))
  | 0, _ => .error .unexpectedEnd
  | budget + 1, tokens => do
    let (item, rest) ← readLevel budget 1 tokens
    match rest with
    | .comma :: rest =>
      let (items, rest) ← readList budget rest
      return (item :: items, rest)
    | rest => return ([item], rest)

/-- An expression whose operators have at least the given strength. -/
def readLevel : Nat → Nat → List Token → Except QueryError (Taken Expr)
  | 0, _, _ => .error .unexpectedEnd
  | budget + 1, strength, tokens =>
    if BinaryOp.strongest < strength then readSigned budget tokens
    else do
      let (left, rest) ← readLevel budget (strength + 1) tokens
      readOperators budget strength left rest

/-- The operators of one strength after a left operand, grouped from the left. -/
def readOperators : Nat → Nat → Expr → List Token → Except QueryError (Taken Expr)
  | 0, _, _, _ => .error .unexpectedEnd
  | budget + 1, strength, left, tokens =>
    match takeOperator strength tokens with
    | none => .ok (left, tokens)
    | some (op, rest) => do
      let (right, rest) ← readLevel budget (strength + 1) rest
      readOperators budget strength (.binary left op right) rest

/-- An expression with minus signs in front. -/
def readSigned : Nat → List Token → Except QueryError (Taken Expr)
  | 0, _ => .error .unexpectedEnd
  | budget + 1, tokens =>
    match tokens with
    | .minus :: rest => do
      let (inner, rest) ← readSigned budget rest
      return (.negate inner, rest)
    | tokens => do
      let (left, rest) ← readPath budget tokens
      readUnions budget left rest

/-- The unions after a left operand, grouped from the left. -/
def readUnions : Nat → Expr → List Token → Except QueryError (Taken Expr)
  | 0, _, _ => .error .unexpectedEnd
  | budget + 1, left, tokens =>
    match tokens with
    | .pipe :: rest => do
      let (right, rest) ← readPath budget rest
      readUnions budget (.union left right) rest
    | tokens => .ok (left, tokens)

/-- A path from the root or from its first step. A slash that no step follows is the root and
ends the path. -/
def readPath : Nat → List Token → Except QueryError (Taken Expr)
  | 0, _ => .error .unexpectedEnd
  | budget + 1, tokens =>
    match tokens with
    | .slash :: rest =>
      if startsStep rest then do
        let (step, rest) ← readStepExpr budget rest
        readSteps budget (.path .root step) rest
      else .ok (.root, rest)
    | .doubleSlash :: rest => do
      let (step, rest) ← readStepExpr budget rest
      readSteps budget (descend .root step) rest
    | tokens => do
      let (first, rest) ← readStepExpr budget tokens
      readSteps budget first rest

/-- The steps after a base, each behind one slash or two. -/
def readSteps : Nat → Expr → List Token → Except QueryError (Taken Expr)
  | 0, _, _ => .error .unexpectedEnd
  | budget + 1, base, tokens =>
    match tokens with
    | .slash :: rest => do
      let (step, rest) ← readStepExpr budget rest
      readSteps budget (.path base step) rest
    | .doubleSlash :: rest => do
      let (step, rest) ← readStepExpr budget rest
      readSteps budget (descend base step) rest
    | tokens => .ok (base, tokens)

/-- A location step, or a primary expression that predicates may filter. -/
def readStepExpr : Nat → List Token → Except QueryError (Taken Expr)
  | 0, _ => .error .unexpectedEnd
  | budget + 1, tokens =>
    if isLocationStep tokens then do
      let ((axis, test), rest) ← readStepHead tokens
      let (predicates, rest) ← readPredicates budget rest
      return (.step ⟨axis, test, predicates⟩, rest)
    else do
      let (inner, rest) ← readPrimary budget tokens
      let (predicates, rest) ← readPredicates budget rest
      return (filtered inner predicates, rest)

/-- Any number of predicates in brackets. -/
def readPredicates : Nat → List Token → Except QueryError (Taken (List Predicate))
  | 0, _ => .error .unexpectedEnd
  | budget + 1, tokens =>
    match tokens with
    | .leftBracket :: rest => do
      let (items, rest) ← readList budget rest
      let rest ← expect .rightBracket rest
      let (predicates, rest) ← readPredicates budget rest
      return (items :: predicates, rest)
    | tokens => .ok ([], tokens)

/-- A literal, a variable, a call, a sequence or an expression in parentheses. -/
def readPrimary : Nat → List Token → Except QueryError (Taken Expr)
  | 0, _ => .error .unexpectedEnd
  | budget + 1, tokens =>
    match tokens with
    | .number value :: rest => .ok (.number value, rest)
    | .string value :: rest => .ok (.string value, rest)
    | .dot :: rest => .ok (.context, rest)
    | .doubleDot :: rest => .ok (.parent, rest)
    | .dollar :: rest => readVariable rest
    | .leftParen :: rest => do
      let (items, rest) ← readEnclosed budget rest
      return (sequenceOf items, rest)
    | .name function :: rest => do
      let rest ← expect .leftParen rest
      let (arguments, rest) ← readEnclosed budget rest
      return (.call function arguments, rest)
    | found :: _ => .error (.unexpected found)
    | [] => .error .unexpectedEnd

/-- The expressions between parentheses, none included, from after the opening one. -/
def readEnclosed : Nat → List Token → Except QueryError (Taken (List Expr))
  | 0, _ => .error .unexpectedEnd
  | budget + 1, tokens =>
    match tokens with
    | .rightParen :: rest => .ok ([], rest)
    | tokens => do
      let (items, rest) ← readList budget tokens
      let rest ← expect .rightParen rest
      return (items, rest)

end

/-- An upper bound on how many readers call each other between two tokens taken. -/
def levels : Nat := 16

/-- The expression a list of tokens stands for. Expressions with commas between them are a
sequence, and no token may be left over. -/
def parseTokens (tokens : List Token) : Except QueryError Expr := do
  let (items, rest) ← readList (levels * (tokens.length + 1)) tokens
  match rest with
  | token :: _ => throw (.trailing token)
  | [] => return sequenceOf items

/-- The expression a query text stands for. -/
def parse (query : String) : Except QueryError Expr := do
  parseTokens (← tokenize query)

end RangeIndex.Query

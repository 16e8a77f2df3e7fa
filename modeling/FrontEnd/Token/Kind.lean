/-
# Token kinds, operators and quotes

A kind says what a token is; the text of a token matters only to names and literals.  The
binary operators are those kinds that may stand between two operands.  The quotes are the
two marks that enclose a literal.
-/

namespace FrontEnd

/-- What a token is. -/
inductive Kind where
  | keywordFunc
  | keywordIf
  | keywordElse
  | keywordReturn
  | identifier
  | integerLiteral
  | floatLiteral
  | stringLiteral
  | charLiteral
  | openParenthesis
  | closeParenthesis
  | openScope
  | closeScope
  | comma
  | assignment
  | add
  | subtract
  | multiply
  | divide
  | modulo
  | equal
  | notEqual
  | lessThan
  | lessThanOrEqual
  | greaterThan
  | greaterThanOrEqual
  | and
  | or
  | not
  /-- The end of the text. -/
  | eof
  deriving DecidableEq, Repr, Inhabited

namespace Kind

/-- Every kind, in the order of the declaration. -/
def all : List Kind :=
  [keywordFunc, keywordIf, keywordElse, keywordReturn, identifier, integerLiteral, floatLiteral,
   stringLiteral, charLiteral, openParenthesis, closeParenthesis, openScope, closeScope, comma,
   assignment, add, subtract, multiply, divide, modulo, equal, notEqual, lessThan,
   lessThanOrEqual, greaterThan, greaterThanOrEqual, and, or, not, eof]

/-- The name that messages use for a kind. -/
def name : Kind → String
  | keywordFunc => "KeywordFunc"
  | keywordIf => "KeywordIf"
  | keywordElse => "KeywordElse"
  | keywordReturn => "KeywordReturn"
  | identifier => "Identifier"
  | integerLiteral => "IntegerLiteral"
  | floatLiteral => "FloatLiteral"
  | stringLiteral => "StringLiteral"
  | charLiteral => "CharLiteral"
  | openParenthesis => "OpenParenthesis"
  | closeParenthesis => "CloseParenthesis"
  | openScope => "OpenScope"
  | closeScope => "CloseScope"
  | comma => "Comma"
  | assignment => "Assignment"
  | add => "Add"
  | subtract => "Subtract"
  | multiply => "Multiply"
  | divide => "Divide"
  | modulo => "Modulo"
  | equal => "Equal"
  | notEqual => "NotEqual"
  | lessThan => "LessThan"
  | lessThanOrEqual => "LessThanOrEqual"
  | greaterThan => "GreaterThan"
  | greaterThanOrEqual => "GreaterThanOrEqual"
  | and => "And"
  | or => "Or"
  | not => "Not"
  | eof => "Eof"

/-- The kind of a name, if there is one. -/
def ofName? (name : String) : Option Kind := all.find? fun k => k.name == name

def isKeyword : Kind → Bool
  | keywordFunc | keywordIf | keywordElse | keywordReturn => true
  | _ => false

end Kind

/-- What may stand between two operands. -/
inductive Operator where
  | add
  | subtract
  | multiply
  | divide
  | modulo
  | equal
  | notEqual
  | lessThan
  | lessThanOrEqual
  | greaterThan
  | greaterThanOrEqual
  | and
  | or
  deriving DecidableEq, Repr, Inhabited

namespace Operator

/-- The kind of the token that writes an operator. -/
def kind : Operator → Kind
  | add => .add
  | subtract => .subtract
  | multiply => .multiply
  | divide => .divide
  | modulo => .modulo
  | equal => .equal
  | notEqual => .notEqual
  | lessThan => .lessThan
  | lessThanOrEqual => .lessThanOrEqual
  | greaterThan => .greaterThan
  | greaterThanOrEqual => .greaterThanOrEqual
  | and => .and
  | or => .or

/-- The operator that a token of this kind writes.  Assignment and negation are none. -/
def ofKind? : Kind → Option Operator
  | .add => some add
  | .subtract => some subtract
  | .multiply => some multiply
  | .divide => some divide
  | .modulo => some modulo
  | .equal => some equal
  | .notEqual => some notEqual
  | .lessThan => some lessThan
  | .lessThanOrEqual => some lessThanOrEqual
  | .greaterThan => some greaterThan
  | .greaterThanOrEqual => some greaterThanOrEqual
  | .and => some and
  | .or => some or
  | _ => none

/-- How an operator is written. -/
def symbol : Operator → String
  | add => "+"
  | subtract => "-"
  | multiply => "*"
  | divide => "/"
  | modulo => "%"
  | equal => "=="
  | notEqual => "!="
  | lessThan => "<"
  | lessThanOrEqual => "<="
  | greaterThan => ">"
  | greaterThanOrEqual => ">="
  | and => "&&"
  | or => "||"

/-- The name of an operator is that of its kind. -/
def name (o : Operator) : String := o.kind.name

theorem ofKind?_eq_some_iff {k : Kind} {o : Operator} : ofKind? k = some o ↔ k = o.kind := by
  cases k <;> cases o <;> decide

end Operator

/-- The two ways to quote a literal. -/
inductive Quote where
  | string
  | char
  deriving DecidableEq, Repr, Inhabited

namespace Quote

/-- The character that opens and closes the literal. -/
def mark : Quote → Char
  | string => '"'
  | char => '\''

/-- The kind of the literal. -/
def kind : Quote → Kind
  | string => .stringLiteral
  | char => .charLiteral

/-- What messages call the literal. -/
def name : Quote → String
  | string => "string"
  | char => "char"

/-- The quote that a character opens. -/
def ofMark? (c : Char) : Option Quote :=
  if c = '"' then some string else if c = '\'' then some char else none

theorem ofMark?_eq_some_iff {c : Char} {q : Quote} : ofMark? c = some q ↔ c = q.mark := by
  cases q <;> simp only [ofMark?, mark] <;> grind

end Quote

/-- Can stand between two operands. -/
def Kind.isBinaryOperator (k : Kind) : Bool := (Operator.ofKind? k).isSome

end FrontEnd

/-
# The grammar as parsers

One parser per rule, each the body of the method that is named with it.  What can contain itself takes a bound on how deep it nests: an
expression may hold calls that hold expressions, a statement may hold blocks that hold
statements, and an assigned name may be assigned again.  Every level of nesting consumes a
token, so the number of tokens is bound enough (`Parser.Bounds`).

A name, a parenthesis around parameters and an opening brace may be missing: `afterName`,
`afterParameter`, `afterParameters` and `afterOpenScope` list what may stand after them.
-/
import FrontEnd.Parser.Basic
import FrontEnd.Tree

namespace FrontEnd
namespace Parser

/-! ## What may follow -/

/-- After the name of a function. -/
def afterName : List Kind := [.openParenthesis]

/-- After an opened parameter list or a parameter: another parameter or the end of the
list. -/
def afterParameter : List Kind := [.identifier, .closeParenthesis]

/-- After a parameter list. -/
def afterParameters : List Kind := [.openScope]

/-- After an opened block: a statement or the end of the block. -/
def afterOpenScope : List Kind := [.identifier, .keywordIf, .keywordReturn, .closeScope]

/-- Takes a name and answers its text, or the text of the token that is there instead
(`eat_identifier`). -/
def name (follow : List Kind) : Parser String := do
  return (← eatBefore .identifier follow).text

/-! ## Expressions -/

/-- The arguments of a call (`parse_call`).  They end at the closing parenthesis or with the
text. -/
def call (expression : Parser Node) (callee : String) : Parser Node :=
  inRule .call do
    let _ ← eat .openParenthesis
    let arguments ← many (fun k => k != .closeParenthesis && k != .eof) expression
    let _ ← eat .closeParenthesis
    return .call callee arguments

/-- A single operand (`parse_unary`).  A token that cannot be one is kept as garbage. -/
def unary (expression : Parser Node) : Parser Node :=
  inRule .unary do
    let token ← advance
    match token.kind with
    | .identifier =>
      if (← lookahead).kind = .openParenthesis then call expression token.text
      else return .identifier token.text
    | .integerLiteral => return .literal .integer token.text
    | .floatLiteral => return .literal .float token.text
    | .stringLiteral => return .literal .string token.text
    | _ => return .garbage token

/-- An operand, or two with an operator between them (`parse_expression`).  Operators do not
chain. -/
def expression : Nat → Parser Node
  | 0 => outOfBound
  | bound + 1 =>
    inRule .expression do
      let left ← unary (expression bound)
      match Operator.ofKind? (← lookahead).kind with
      | some operator =>
        let _ ← advance
        let right ← unary (expression bound)
        return .binary left operator right
      | none => return left

/-! ## Statements -/

/-- Statements between braces (`parse_block`).  They end at the closing brace only: at the end of
the text a statement is asked for, which stops the parse. -/
def block (statement : Parser Node) : Parser Block :=
  inRule .block do
    let _ ← eatBefore .openScope afterOpenScope
    let statements ← many (fun k => k != .closeScope) statement
    let _ ← eat .closeScope
    return statements

/-- A condition and its branches (`parse_if`).  The second is there if `else` is. -/
def ifStmt (statement expression : Parser Node) : Parser Node :=
  inRule .ifStmt do
    let _ ← eat .keywordIf
    let condition ← expression
    let thenBranch ← block statement
    if (← lookahead).kind = .keywordElse then
      let _ ← eat .keywordElse
      let elseBranch ← block statement
      return .conditional condition thenBranch (some elseBranch)
    else return .conditional condition thenBranch none

/-- What is returned (`parse_return`). -/
def returnStmt (expression : Parser Node) : Parser Node :=
  inRule .returnStmt do
    let _ ← eat .keywordReturn
    return .returned (← expression)

/-- What is assigned to `target` (`parse_assignment`): a statement that starts with `if` or `return`, or an
expression.  If the expression is a bare name and another `=` follows, the name is assigned
again. -/
def assignment (statement expression : Parser Node) : Nat → String → Parser Node
  | 0, _ => outOfBound
  | bound + 1, target =>
    inRule .assignment do
      let _ ← eat .assignment
      let start ← lookahead
      if start.kind = .keywordIf ∨ start.kind = .keywordReturn then
        return .assignment target (← statement)
      else
        let value ← expression
        match value, (← lookahead).kind with
        | .identifier name, .assignment =>
          return .assignment target (← assignment statement expression bound name)
        | _, _ => return .assignment target value

/-- What follows a name at the start of a statement (`parse_ident_tail`). -/
def identTail (statement expression : Parser Node) (bound : Nat) (name : String) : Parser Node :=
  inRule .identTail do
    let token ← lookahead
    match token.kind with
    | .openParenthesis => call expression name
    | .assignment => assignment statement expression bound name
    | _ => unhandled token

/-- A statement, told by its first token (`parse_statement`). -/
def statement : Nat → Parser Node
  | 0 => outOfBound
  | bound + 1 =>
    inRule .statement do
      let token ← lookahead
      match token.kind with
      | .identifier =>
        -- the name is there, so that nothing need be named that may follow it
        let name ← name []
        identTail (statement bound) (expression bound) bound name
      | .keywordIf => ifStmt (statement bound) (expression bound)
      | .keywordReturn => returnStmt (expression bound)
      | _ => unhandled token

/-! ## Functions and programs -/

/-- A type and a name (`parse_parameter`). -/
def parameter : Parser Parameter :=
  inRule .parameter do
    let typeName ← name [.identifier]
    let name ← name afterParameter
    return ⟨typeName, name⟩

/-- A function (`parse_function_decl`).  Its parameters are read as long as a name is next. -/
def functionDecl (bound : Nat) : Parser Function :=
  inRule .functionDecl do
    let _ ← eat .keywordFunc
    let name ← name afterName
    let _ ← eatBefore .openParenthesis afterParameter
    let parameters ← many (· == .identifier) parameter
    let _ ← eatBefore .closeParenthesis afterParameters
    let body ← block (statement bound)
    return ⟨name, parameters, body⟩

/-- Functions up to the first token that starts none (`parse_program`); what follows is not
read. -/
def program (bound : Nat) : Parser Program :=
  inRule .program do
    return ⟨← many (· == .keywordFunc) (functionDecl bound)⟩

end Parser
end FrontEnd

/-
# Grammar rules

The rules of the grammar.  Braces mean any number of times, brackets at most once:

    program      := { functionDecl }
    functionDecl := func NAME ( { parameter } ) block
    parameter    := NAME NAME
    block        := begin { statement } end
    statement    := NAME identTail | ifStmt | returnStmt
    identTail    := call | assignment
    call         := ( { expression } )
    assignment   := = ( expression | statement | NAME assignment )
    ifStmt       := if expression block [ else block ]
    returnStmt   := return expression
    expression   := unary [ OPERATOR unary ]
    unary        := NAME [ call ] | INTEGER | FLOAT | STRING | any other token, as garbage

where `begin` and `end` are the two braces.
-/

namespace FrontEnd

inductive Rule where
  | program
  | functionDecl
  | parameter
  | block
  | statement
  | identTail
  | call
  | assignment
  | ifStmt
  | returnStmt
  | expression
  | unary
  deriving DecidableEq, Repr, Inhabited

/-- The name that messages use for a rule. -/
def Rule.name : Rule → String
  | program => "program"
  | functionDecl => "function_decl"
  | parameter => "parameter"
  | block => "block"
  | statement => "statement"
  | identTail => "ident_tail"
  | call => "call"
  | assignment => "assignment"
  | ifStmt => "if_stmt"
  | returnStmt => "return_stmt"
  | expression => "expression"
  | unary => "unary"

end FrontEnd

/-
# Diagnostics

A diagnostic is a problem that did not stop the work: what is wrong, where in the text, and
at which site of the front end it was found.
-/
import FrontEnd.Segment
import FrontEnd.Token

namespace FrontEnd

/-- What is wrong (`DiagnosticKind`). -/
inductive Problem where
  /-- No lexeme can be read. -/
  | lexical (fault : Fault)
  /-- A token of kind `expected` was required and `found` was there. -/
  | mismatch (expected : Kind) (found : Token)
  deriving DecidableEq, Repr

/-- A place in the front end: a rule and the rules that were open, the outermost first. -/
structure Site where
  rule : String
  stack : List String
  deriving DecidableEq, Repr

/-- A recorded problem.  It need not belong to a place in the text. -/
structure Diagnostic where
  problem : Problem
  span : Option Span
  site : Site
  deriving DecidableEq, Repr

def Fault.message : Fault → String
  | invalidChar c => "invalid char: " ++ Text.quoteChar c
  | unterminated quote => "unterminated " ++ quote.name ++ " literal"

def Problem.message : Problem → String
  | lexical fault => fault.message
  | mismatch expected found => "Expected " ++ expected.name ++ " but got " ++ found.display

namespace Site

/-- The site of a rule with no rule around it (`rule`). -/
def ofRule (rule : String) : Site := ⟨rule, [rule]⟩

/-- The site at the innermost of the open rules (`from_stack`). -/
def ofStack (stack : List String) : Site := ⟨stack.getLast?.getD "<top>", stack⟩

def display (s : Site) : String := s.rule ++ " (" ++ " > ".intercalate s.stack ++ ")"

end Site

namespace Diagnostic

def message (d : Diagnostic) : String := d.problem.message

def display (d : Diagnostic) : String := d.message ++ " [in rule " ++ d.site.display ++ "]"

/-- A fault found by the lexer. -/
def ofFault (fault : Fault) (span : Span) : Diagnostic :=
  ⟨.lexical fault, some span, .ofRule "lex"⟩

end Diagnostic
end FrontEnd

/-
# What happens in a parse

A parse is seen from outside as a list of events and an outcome.  The events say which
rules were entered, which tokens were consumed and which tokens were not the expected
ones; the last kind of event is what goes to the diagnostics.  A syntax error ends the
parse (`unhandled`).
-/
import FrontEnd.Diagnostic
import FrontEnd.Parser.Rule

namespace FrontEnd

/-- The parse stopped: `found` starts nothing that `rule` accepts.  `stack` holds the open
rules, the outermost first. -/
structure SyntaxError where
  rule : Rule
  found : Token
  span : Span
  stack : List Rule
  deriving DecidableEq, Repr

namespace SyntaxError

/-- What is wrong, in one line. -/
def message (e : SyntaxError) : String :=
  "no " ++ e.rule.name ++ " starts with " ++ e.found.display

/-- The rule that was open innermost. -/
def innermost (e : SyntaxError) : Option Rule := e.stack.getLast?

/-- The lines that list the open rules, each with its index. -/
def stackLines (e : SyntaxError) : String :=
  String.join (e.stack.zipIdx.map fun (rule, i) => "  " ++ toString i ++ ": " ++ rule.name ++ "\n")

/-- The heading of the open rules. -/
def stackHeading : String := "non terminal stack:\n"

/-- The error with its open rules, if there are any. -/
def display (e : SyntaxError) : String :=
  "syntax error: " ++ e.message ++ "\n"
    ++ (if e.stack.isEmpty then "" else stackHeading ++ e.stackLines)

end SyntaxError

/-- `expected` was required and `found` was there, while these rules were open, the outermost
first. -/
def Diagnostic.ofMismatch (expected : Kind) (found : Token) (stack : List Rule) : Diagnostic :=
  ⟨.mismatch expected found, some found.span, .ofStack (stack.map Rule.name)⟩

inductive Event where
  /-- `rule` was entered as the `depth`-th open rule. -/
  | enter (rule : Rule) (depth : Nat) (lookahead : Token)
  | consume (token : Token)
  /-- `expected` was required and `found` was there; `stack` holds the open rules, the
  outermost first. -/
  | mismatch (expected : Kind) (found : Token) (stack : List Rule)
  deriving DecidableEq, Repr

namespace Event

/-- The diagnostic that an event records. -/
def diagnostic? : Event → Option Diagnostic
  | mismatch expected found stack => some (.ofMismatch expected found stack)
  | _ => none

end Event

/-- The diagnostics that events record, in order. -/
def recorded (events : List Event) : List Diagnostic := events.filterMap Event.diagnostic?

@[simp] theorem recorded_nil : recorded [] = [] := rfl

@[simp] theorem recorded_append (es es' : List Event) :
    recorded (es ++ es') = recorded es ++ recorded es' := by
  simp [recorded]

@[simp] theorem recorded_enter_cons (rule : Rule) (depth : Nat) (t : Token) (es : List Event) :
    recorded (.enter rule depth t :: es) = recorded es := rfl

@[simp] theorem recorded_consume_cons (t : Token) (es : List Event) :
    recorded (.consume t :: es) = recorded es := rfl

@[simp] theorem recorded_mismatch_cons (expected : Kind) (t : Token) (stack : List Rule)
    (es : List Event) :
    recorded (.mismatch expected t stack :: es) =
      ⟨.mismatch expected t, some t.span, .ofStack (stack.map Rule.name)⟩ :: recorded es := rfl

end FrontEnd

/-
# The log

A compilation leaves a log: the span that holds it, what the lexer could not read, every
recorded mismatch, and how the parse ended.  Tracing the lexer adds a record for each token,
tracing the parser one for each rule that is entered and each token that is consumed.

A record holds what it is about, and its text is made when somebody shows it.  That can fail: the
text of a rule that is entered stands as far to the right as the rule is deep, and the margin is
a width in a format (`Record.message`).
-/
import FrontEnd.Parser.Tracer
import FrontEnd.Tree.Margin

namespace FrontEnd

/-- How much a record matters. -/
inductive Level where
  | trace
  | debug
  | warn
  deriving DecidableEq, Repr

def Level.name : Level → String
  | trace => "TRACE"
  | debug => "DEBUG"
  | warn => "WARN"

/-- A record of the log. -/
inductive Record where
  /-- A compilation begins, and the records after this one belong to it (`compile_source`). -/
  | compiling (path : String)
  /-- The lexer handed out a token (`next`). -/
  | token (path : String) (t : Token)
  /-- The lexer met a fault (`recover`). -/
  | fault (f : Fault) (offset : Nat)
  /-- The parser recorded a diagnostic (`mismatch`). -/
  | recorded (d : Diagnostic)
  /-- The parser stopped (`unhandled`). -/
  | aborting (e : SyntaxError)
  /-- A rule was entered (`LogTracer`). -/
  | entered (rule : Rule) (depth : Nat) (lookahead : Token)
  /-- The parser consumed a token (`LogTracer`). -/
  | consumed (t : Token)
  /-- The compilation has a tree (`compile_source`). -/
  | parsed (functions diagnostics : Nat)
  /-- The compilation has no tree (`compile_source`). -/
  | aborted (e : SyntaxError)
  deriving DecidableEq, Repr

namespace Record

/-- The level of a record.  The one that opens a compilation is not an event and has none. -/
def level? : Record → Option Level
  | compiling _ => none
  | token .. | fault .. | recorded _ | aborting _ | parsed .. => some .debug
  | entered .. | consumed _ => some .trace
  | aborted _ => some .warn

/-- The part of the program that wrote a record. -/
def target : Record → String
  | compiling _ | parsed .. | aborted _ => "iblangc::compiler"
  | token .. | fault .. => "iblang_parsing::lexer"
  | recorded _ | aborting _ => "iblang_parsing::parser"
  | entered .. | consumed _ => "iblang_parsing::parser::tracer"

/-- What a record names beside its text. -/
def fields : Record → List (String × String)
  | compiling path | token path _ => [("path", path)]
  | parsed functions diagnostics =>
    [("functions", toString functions), ("diagnostics", toString diagnostics)]
  | _ => []

/-- The text of a record, or the name of what it opens. -/
def message : Record → Except Panic String
  | compiling _ => .ok "compile"
  | token _ t => .ok t.inspect
  | fault f offset => .ok (f.message ++ " at offset " ++ toString offset)
  | recorded d => .ok ("recorded " ++ d.display)
  | aborting e => .ok ("aborting parse: " ++ e.message)
  | entered rule depth lookahead =>
    if depth * 2 ≤ Printer.widestMargin then
      .ok (Printer.margin 2 depth ++ "-> " ++ rule.name ++ " lookahead=" ++ lookahead.inspect)
    else .error .marginTooWide
  | consumed t => .ok ("consumed " ++ t.inspect)
  | parsed .. => .ok "parsed"
  | aborted e => .ok ("parsing aborted: " ++ e.message)

/-- Every record has a text, but for a rule that is entered too deep. -/
theorem message_eq_error_iff {r : Record} {p : Panic} : r.message = .error p ↔
    p = .marginTooWide ∧ ∃ rule depth t, r = .entered rule depth t ∧
      Printer.widestMargin < depth * 2 := by
  cases r with
  | entered rule depth t =>
    simp only [message]
    split
    · rename_i hle
      simp only [reduceCtorEq, false_iff]
      rintro ⟨-, rule', depth', t', h, hlt⟩
      cases h
      omega
    · rename_i hlt
      simp only [Except.error.injEq]
      constructor
      · rintro rfl
        exact ⟨rfl, rule, depth, t, rfl, by omega⟩
      · rintro ⟨rfl, -⟩
        rfl
  | _ => simp [message]

end Record

/-- Writes a record of what it is told of (`LogTracer`). -/
def Tracer.logging : Tracer (List Record) where
  enter rule depth lookahead records := records ++ [.entered rule depth lookahead]
  consume token records := records ++ [.consumed token]

/-- The tracer, with what the parser itself writes in the log. -/
def Tracer.withLog (tracer : Tracer (List Record)) : Observer (List Record) where
  toTracer := tracer
  recorded d records := records ++ [.recorded d]
  aborting e records := records ++ [.aborting e]

end FrontEnd

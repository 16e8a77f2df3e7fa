/-
# The command line

What can be written on the command line is declared: the options before the command, and for each
command its options and its arguments (`Args`, `Command` and `LoggingArgs`).  The declaration is
all that the program says about it.  To go over the words of a line and find what was declared is
left to a package, which is any `LineReader` here; it answers what was found or refuses the line
with a text.  What the words found ask for is again said here (`Invocation.ofFound`).

Of the package no more is relied upon than is documented of it, for every line reader that
`Follows` a declaration:

* words that look like no option are the values of the arguments, in their order;
* a trailing argument that takes hyphens has every word after its first value.
-/

namespace FrontEnd

/-- What the command line asks to do (`Command`). -/
inductive Command where
  | compile (files : List String) (traceLexer traceParser : Bool)
  | test (files : List String)
  | exec (program : String) (arguments : List String)
  deriving DecidableEq, Repr

/-- Why a command line asks for nothing that can be done (`ErrorKind`).  Asking for help or for the
version counts as such a reason. -/
inductive UsageError where
  | helpRequested
  | versionRequested
  /-- The line is empty. -/
  | nothingGiven
  | missingCommand
  | unknownCommand
  | missingArgument
  | unknownArgument
  /-- A value is given to an option that takes none. -/
  | unexpectedValue
  /-- A value that its argument cannot have. -/
  | invalidValue
  /-- An option is repeated too often. -/
  | outOfRange
  /-- Two options exclude each other, or one excludes its repetition. -/
  | conflict
  deriving DecidableEq, Repr

/-- What is answered to a line that is not carried out. -/
structure Refusal where
  kind : UsageError
  text : String := ""
  deriving DecidableEq, Repr

/-- Variables that can be set to any text. -/
structure Environment where
  value? : String → Option String

/-- How much is logged (`LevelFilter`). -/
inductive Verbosity where
  | off
  | error
  | info
  | debug
  | trace
  deriving DecidableEq, Repr

namespace Verbosity

def name : Verbosity → String
  | off => "off"
  | error => "error"
  | info => "info"
  | debug => "debug"
  | trace => "trace"

/-- The verbosity that is `offset` levels above the usual one (`log_level_filter`). -/
def ofOffset (offset : Int) : Verbosity :=
  if offset ≤ -2 then off
  else if offset = -1 then error
  else if offset = 0 then info
  else if offset = 1 then debug
  else trace

end Verbosity

/-- How often more and less was asked to be logged (`LoggingArgs`). -/
structure Logging where
  verbose : Nat := 0
  quiet : Nat := 0
  deriving DecidableEq, Repr

namespace Logging

/-- The most that either counts. -/
def most : Nat := 2

/-- How many levels above the usual one are logged (`offset`). -/
def offset (l : Logging) : Int := (min l.verbose most : Int) - (min l.quiet most : Int)

end Logging

/-- A command line that can be carried out (`Args`). -/
structure Invocation where
  logging : Logging := {}
  command : Command
  deriving DecidableEq, Repr

namespace Invocation

def offset (i : Invocation) : Int := i.logging.offset

def verbosity (i : Invocation) : Verbosity := .ofOffset i.offset

end Invocation

namespace CommandLine

/-! ## Declarations -/

/-- The words that an argument can have as values. -/
inductive ValueType where
  /-- A path, which is not empty (`PathBuf`). -/
  | path
  /-- Any word (`OsString`). -/
  | word
  deriving DecidableEq, Repr

def ValueType.accepts : ValueType → String → Bool
  | path, value => value != ""
  | word, _ => true

/-- What comes of an option that is given. -/
inductive Effect where
  /-- It holds, and cannot be given again. -/
  | set
  /-- It is counted, and can be given so often. -/
  | count (most : Nat)
  deriving DecidableEq, Repr

/-- An option, which takes no value. -/
structure Flag where
  name : String
  long : String
  letter? : Option Char := none
  effect : Effect := .set
  /-- The variable that stands in for it. -/
  standIn? : Option String := none
  /-- The options that cannot be given beside it. -/
  excludes : List String := []
  deriving DecidableEq, Repr

/-- An argument, whose values are told by their place. -/
structure Argument where
  name : String
  type : ValueType
  /-- It takes all words that are left. -/
  takesAll : Bool := false
  required : Bool := true
  /-- Once it has a value, every word is one (`trailing_var_arg`). -/
  trailing : Bool := false
  /-- Its values may look like options (`allow_hyphen_values`). -/
  takesHyphens : Bool := false
  deriving DecidableEq, Repr

/-- A command that can be asked for. -/
structure CommandForm where
  name : String
  flags : List Flag := []
  arguments : List Argument
  deriving DecidableEq, Repr

/-- All that can be written on a command line. -/
structure Declaration where
  program : String
  version : String
  /-- The options before the command. -/
  flags : List Flag
  commands : List CommandForm
  deriving DecidableEq, Repr

/-- The files that a command reads.  At least one has to be given. -/
def sourceFiles : Argument := { name := "files", type := .path, takesAll := true }

/-- One of the two options on logging; each excludes the other. -/
def loggingFlag (long : String) (letter : Char) (other : String) : Flag :=
  { name := long, long, letter? := some letter, effect := .count Logging.most
    excludes := [other] }

/-- An option that traces something, for which a variable can stand in. -/
def tracingFlag (name long variableName : String) : Flag :=
  { name, long, standIn? := some variableName }

/-- What is written to compile files. -/
def compileForm : CommandForm where
  name := "compile"
  flags := [tracingFlag "trace_lexer" "trace-lexer" "IBLANG_TRACE_LEXER",
    tracingFlag "trace_parser" "trace-parser" "IBLANG_TRACE_PARSER"]
  arguments := [sourceFiles]

/-- What is written to test files. -/
def testForm : CommandForm where
  name := "test"
  arguments := [sourceFiles]

/-- The program that is run. -/
def programRun : Argument := { name := "exe", type := .word }

/-- The arguments of the program that is run. -/
def programArguments : Argument where
  name := "args"
  type := .word
  takesAll := true
  required := false
  trailing := true
  takesHyphens := true

/-- What is written to run a program. -/
def execForm : CommandForm where
  name := "exec"
  arguments := [programRun, programArguments]

/-- The command line of the program (`Args`). -/
def application : Declaration where
  program := "iblangc_cli"
  version := "0.0.0"
  flags := [loggingFlag "verbose" 'v' "quiet", loggingFlag "quiet" 'q' "verbose"]
  commands := [compileForm, testForm, execForm]

/-! ## What is found on a line -/

/-- How often each option was given, and which values each argument has (`ArgMatches`). -/
structure Found where
  given : String → Nat := fun _ => 0
  values : String → List String := fun _ => []

/-- One more value of an argument, behind the others. -/
def Found.add (f : Found) (name value : String) : Found :=
  { f with values := fun n => if n = name then f.values n ++ [value] else f.values n }

/-- What was found before the command, the command, and what was found behind it. -/
structure Line where
  before : Found := {}
  command : String
  behind : Found

end CommandLine

open CommandLine

/-- The command that was asked for, with what was found behind it.  A line in which something
required is missing is not read in the first place, so that there is nothing more to say where it
is missing all the same. -/
def Command.ofFound (name : String) (found : Found) : Except Refusal Command :=
  match name with
  | "compile" =>
    .ok (.compile (found.values "files") (0 < found.given "trace_lexer")
      (0 < found.given "trace_parser"))
  | "test" => .ok (.test (found.values "files"))
  | "exec" =>
    match found.values "exe" with
    | [program] => .ok (.exec program (found.values "args"))
    | _ => .error { kind := .missingArgument }
  | _ => .error { kind := .unknownCommand }

/-- What the line asks for. -/
def Invocation.ofFound (line : Line) : Except Refusal Invocation :=
  (Command.ofFound line.command line.behind).map fun command =>
    { logging := ⟨line.before.given "verbose", line.before.given "quiet"⟩, command }

/-! ## Line readers -/

/-- A way to read a line, without the name of the program, by a declaration. -/
structure LineReader where
  read : Declaration → Environment → List String → Except Refusal Line

/-- Reads a command line (`parse`). -/
def LineReader.parse (reader : LineReader) (environment : Environment) (words : List String) :
    Except Refusal Invocation := do
  Invocation.ofFound (← reader.read application environment words)

namespace CommandLine

/-- A word that starts with a hyphen. -/
def Hyphened (word : String) : Prop := word.toList.head? = some '-'

instance (word : String) : Decidable (Hyphened word) :=
  inferInstanceAs (Decidable (word.toList.head? = some '-'))

/-- The values of arguments if the words are no options: each argument has one word, in their
order, and one that takes all has the words that are left.  There are none if a word is not
accepted or left over, or if a required argument has no word. -/
def assign? : List Argument → List String → Option (String → List String)
  | [], [] => some fun _ => []
  | [], _ :: _ => none
  | a :: as, words =>
    let (own, others) := if a.takesAll then (words, []) else (words.take 1, words.drop 1)
    if (a.required && own.isEmpty) || !own.all a.type.accepts then none
    else (assign? as others).map fun values name => if name = a.name then own else values name

/-- No variable stands in for an option of the command. -/
def CommandForm.Unset (c : CommandForm) (environment : Environment) : Prop :=
  ∀ f ∈ c.flags, ∀ name, f.standIn? = some name → environment.value? name = none

end CommandLine

/-- **What is documented of the package.** -/
structure LineReader.Follows (reader : LineReader) (d : Declaration) : Prop where
  /-- The words behind a command that look like no option are the values of its arguments, and if
  these can have them then nothing else is found. -/
  values : ∀ c ∈ d.commands, ∀ environment words values, c.Unset environment →
    (∀ word ∈ words, ¬ Hyphened word) → assign? c.arguments words = some values →
    reader.read d environment (c.name :: words) = .ok ⟨{}, c.name, { values }⟩
  /-- Once the last argument of a command has a value, and it is a trailing one that takes
  hyphens, one more word is one more value, whatever it looks like. -/
  trailing : ∀ c ∈ d.commands, ∀ a, c.arguments.getLast? = some a → a.trailing = true →
    a.takesHyphens = true → ∀ environment words line,
      reader.read d environment (c.name :: words) = .ok line → line.behind.values a.name ≠ [] →
      ∀ word, a.type.accepts word = true →
        reader.read d environment (c.name :: (words ++ [word])) =
          .ok { line with behind := line.behind.add a.name word }

end FrontEnd

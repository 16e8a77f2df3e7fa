/-
# The application

Carries out a command line (`main`): what is written to standard output, the status, and the
error that is reported if there is one.

* `compile` reports every file, or writes nothing if some file cannot be read;
* `test` gives a verdict per file and ends at the first file that cannot be read;
* `exec` runs a program.

What is outside is left open: how files are read, how the words of the line are read, and how
programs are run.  A report that cannot be told ends the program where it stands, with what was
written before it.
-/
import FrontEnd.CommandLine
import FrontEnd.Programs
import FrontEnd.SourceFiles

namespace FrontEnd

/-- How a run of the application ended. -/
inductive Ending where
  | succeeded
  /-- The run failed, with this error. -/
  | failed (error : String)
  /-- The command line could not be carried out. -/
  | misused (refusal : Refusal)
  /-- The program ended where it stood. -/
  | panicked (p : Panic)
  deriving DecidableEq, Repr

/-- The status that the application exits with. -/
def Ending.status : Ending → Nat
  | succeeded => 0
  | failed _ => 1
  | misused _ => 2
  | panicked _ => 101

/-- The lines of the error that is reported, without the blanks before each. -/
def Ending.errorLines? : Ending → Option (List String)
  | failed error =>
    some ((Text.splitLines error.toList).map fun l => String.ofList (l.dropWhile Text.isBlank))
  | _ => none

/-- What a run of the application leaves. -/
structure Run where
  stdout : String
  stderr : String := ""
  ending : Ending
  deriving DecidableEq, Repr

namespace Application

/-- How many of the files did not do what was asked. -/
def countOf (failed total : Nat) (complaint : String) : Ending :=
  if failed = 0 then .succeeded
  else .failed (toString failed ++ " of " ++ toString total ++ " files " ++ complaint)

/-! ## Compiling -/

/-- What stands before the report of a file: its path, if there are several files. -/
def heading (several : Bool) (path : String) : String := if several then path ++ "\n" else ""

/-- The reports of compilations, each under its heading, up to the first that cannot be told. -/
def reports (several : Bool) : List Compilation → String × Except Panic Unit
  | [] => ("", .ok ())
  | c :: cs =>
    match c.report with
    | .error p => (heading several c.path, .error p)
    | .ok report =>
      let (text, told) := reports several cs
      (heading several c.path ++ report ++ text, told)

/-- The command that compiles (`compile`). -/
def compile (r : Reader) (c : Compiler) (files : List String) : Run :=
  match r.compileAll c files with
  | .error e => { stdout := "", ending := .failed e.message }
  | .ok compilations =>
    let (text, told) := reports (1 < compilations.length) compilations
    { stdout := text
      ending := match told with
        | .error p => .panicked p
        | .ok () =>
          countOf (compilations.countP (!·.succeeded)) files.length "failed to compile" }

/-! ## Testing -/

/-- The verdict on one file. -/
def verdict (file : String) (o : TestOutcome) : String :=
  if o.passed then "PASS " ++ file ++ "\n"
  else "FAIL " ++ file ++ "\n" ++ String.join (o.mismatches.map fun m => "  " ++ m.display ++ "\n")

/-- The verdicts on the files up to the first that has none, and how many failed. -/
def verdicts (r : Reader) (c : Compiler) : List String → String × Except Stop Nat
  | [] => ("", .ok 0)
  | file :: files =>
    match r.test c file with
    | .error stop => ("", .error stop)
    | .ok o =>
      let (text, failed) := verdicts r c files
      (verdict file o ++ text, failed.map (· + if o.passed then 0 else 1))

/-- The command that tests (`test`). -/
def test (r : Reader) (c : Compiler) (files : List String) : Run :=
  let (text, failed) := verdicts r c files
  { stdout := text
    ending := match failed with
      | .error (.failed e) => .failed e.message
      | .error (.panicked p) => .panicked p
      | .ok n => countOf n files.length "failed" }

/-! ## Running a program -/

/-- The command that runs a program (`exec`). -/
def exec (programs : Programs) (program : String) (arguments : List String) : Run :=
  let ran := programs.forward program arguments
  { stdout := ran.stdout
    stderr := ran.stderr
    ending := match ran.status with
      | .error e => .failed e.message
      | .ok status =>
        if status.isSuccess then .succeeded
        else .failed (program ++ " exited with " ++ status.display) }

/-! ## The whole application -/

/-- Carries out a command. -/
def perform (r : Reader) (programs : Programs) : Command → Run
  | .compile files traceLexer traceParser => compile r (.usual traceLexer traceParser) files
  | .test files => test r (.usual false false) files
  | .exec program arguments => exec programs program arguments

/-- What is done about a line that is refused: help and the version are shown. -/
def decline (refusal : Refusal) : Run :=
  match refusal.kind with
  | .helpRequested | .versionRequested => { stdout := refusal.text, ending := .succeeded }
  | _ => { stdout := "", stderr := refusal.text, ending := .misused refusal }

/-- Carries out a command line, given without the name of the program (`main`). -/
def run (lines : LineReader) (r : Reader) (programs : Programs) (environment : Environment)
    (words : List String) : Run :=
  match lines.parse environment words with
  | .error refusal => decline refusal
  | .ok invocation => perform r programs invocation.command

end Application
end FrontEnd

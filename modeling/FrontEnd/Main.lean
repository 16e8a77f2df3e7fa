/-
# The program

Reads the arguments, the environment and the files that the command line names, lets the
application run, and writes what it leaves.  The log of a compilation goes to standard
error, as far as the command line asks for it.  Words are read and programs are run as the host
does it.
-/
import FrontEnd.Application
import FrontEnd.Host.LineReader
import FrontEnd.Host.Programs

namespace FrontEnd

/-- The files that a command reads. -/
def Command.files : Command → List String
  | compile files .. | test files => files
  | exec .. => []

/-- Whether a record of this level is shown. -/
def Verbosity.shows (v : Verbosity) (l : Level) : Bool :=
  match v, l with
  | .off, _ | .error, _ => false
  | .info, .warn => true
  | .info, _ => false
  | .debug, .trace => false
  | .debug, _ => true
  | .trace, _ => true

/-- The line that shows a record, if this verbosity shows it. -/
def Record.show? (v : Verbosity) (r : Record) : Except Panic (Option String) :=
  match r.level? with
  | some level =>
    if v.shows level then do
      return some (level.name ++ " " ++ r.target ++ ": " ++ (← r.message) ++ "\n")
    else .ok none
  | none => .ok none

/-- Why the system could not read a file, told by its error code. -/
def ReadError.ofSystem : IO.Error → ReadError
  | .inappropriateType _ code _ =>
    if code = 21 then .isADirectory else .notADirectory
  | _ => .notFound

/-- Reads a file of the disk. -/
def readFile (path : String) : IO (Except ReadError String) := do
  try
    let bytes ← IO.FS.readBinFile path
    match Text.ofBytes? bytes with
    | some text => return .ok text
    | none => return .error .invalidData
  catch e => return .error (.ofSystem e)

/-- A reader that answers with what the files held when it was made. -/
def readerOf (files : List String) : IO Reader := do
  let contents ← files.mapM fun path => do return (path, ← readFile path)
  return ⟨fun path => (contents.lookup path).getD (.error .notFound)⟩

/-- What is logged while a command is carried out.  Testing ends at the first file that cannot be
read. -/
def Command.log (r : Reader) : Command → List Record
  | compile files traceLexer traceParser => files.flatMap (logOf (.usual traceLexer traceParser))
  | test files =>
    (files.takeWhile fun path => (r.read path).isOk).flatMap (logOf (.usual false false))
  | exec .. => []
where
  logOf (c : Compiler) (path : String) : List Record :=
    match r.read path with
    | .ok source => c.log path source
    | .error _ => []

/-- The lines of a log that an invocation shows.  There are none if one of them cannot be
written. -/
def Invocation.shownLog (i : Invocation) (r : Reader) : Except Panic (List String) := do
  return (← (i.command.log r).mapM (Record.show? i.verbosity)).reduceOption

end FrontEnd

open FrontEnd in
def main (arguments : List String) : IO UInt32 := do
  let lexer ← IO.getEnv "IBLANG_TRACE_LEXER"
  let parser ← IO.getEnv "IBLANG_TRACE_PARSER"
  let environment : Environment :=
    { value? := fun name =>
        if name = "IBLANG_TRACE_LEXER" then lexer
        else if name = "IBLANG_TRACE_PARSER" then parser
        else none }
  match Host.lineReader.parse environment arguments with
  | .error refusal => finish (Application.decline refusal)
  | .ok invocation =>
    let reader ← readerOf invocation.command.files
    match invocation.shownLog reader with
    | .error p => finish { stdout := "", ending := .panicked p }
    | .ok lines =>
      IO.eprint (String.join lines)
      finish (Application.perform reader (Host.programs ⟨[]⟩) invocation.command)
where
  finish (run : Run) : IO UInt32 := do
    IO.print run.stdout
    IO.eprint run.stderr
    match run.ending with
    | .failed error => IO.eprintln ("Error: " ++ error)
    | .panicked p => IO.eprintln p.message
    | .misused _ | .succeeded => pure ()
    return run.ending.status.toUInt32

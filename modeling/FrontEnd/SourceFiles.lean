/-
# Compiling files

Files are read through a reader, which answers the text of a file or why it cannot be read.
Compiling several files reads all of them or fails with every one that cannot be read.
-/
import FrontEnd.Compilation
import FrontEnd.FileTable

namespace FrontEnd

/-- A way to read files. -/
structure Reader where
  read : String → Except ReadError String

/-- Reads the files of a table. -/
def FileTable.reader (t : FileTable) : Reader := ⟨t.read⟩

/-- Why files were not compiled. -/
inductive CompileError where
  | unreadable (path : String) (cause : ReadError)
  | rejected (path : String) (cause : SyntaxError)
  | several (errors : List CompileError)
  deriving Repr

namespace CompileError

/-- The file that the error is about, if it is about one. -/
def path? : CompileError → Option String
  | unreadable path _ | rejected path _ => some path
  | several _ => none

mutual
/-- What is wrong; the errors of several files stand on lines of their own. -/
def message : CompileError → String
  | unreadable path cause => path ++ ": " ++ cause.message
  | rejected path cause => path ++ ": " ++ cause.display
  | several errors => "\n".intercalate (messages errors)
def messages : List CompileError → List String
  | [] => []
  | e :: es => e.message :: messages es
end

/-- How many errors there are. -/
def count : CompileError → Nat
  | several errors => errors.length
  | _ => 1

end CompileError

/-- The tree of a compilation, or the error that stopped the parse. -/
def Compilation.program (c : Compilation) : Except CompileError Program :=
  match c.outcome with
  | .ok program => .ok program
  | .error e => .error (.rejected c.path e)

/-- The results that are errors. -/
def errorsOf {ε α : Type} (results : List (Except ε α)) : List ε :=
  results.filterMap fun
    | .error e => some e
    | .ok _ => none

/-- The results that are no errors. -/
def valuesOf {ε α : Type} (results : List (Except ε α)) : List α :=
  results.filterMap Except.toOption

/-- Why the test of a file has no outcome. -/
inductive Stop where
  /-- The file cannot be read. -/
  | failed (e : CompileError)
  /-- The program ends where it stands. -/
  | panicked (p : Panic)
  deriving Repr

namespace Reader

/-- The text of a file, or the error that names it (`read_source`). -/
def source (r : Reader) (path : String) : Except CompileError String :=
  (r.read path).mapError (.unreadable path)

/-- Compiles a file (`compile`). -/
def compile (r : Reader) (c : Compiler) (path : String) : Except CompileError Compilation := do
  return c.compile path (← r.source path)

/-- Compiles every file, or fails with every file that cannot be read (`compile_all`). -/
def compileAll (r : Reader) (c : Compiler) (paths : List String) :
    Except CompileError (List Compilation) :=
  let results := paths.map (r.compile c)
  match errorsOf results with
  | [] => .ok (valuesOf results)
  | errors => .error (.several errors)

/-- Compiles a file and checks its report against what the file expects (`test`). -/
def test (r : Reader) (c : Compiler) (path : String) : Except Stop TestOutcome := do
  let source ← (r.source path).mapError .failed
  (c.test path source).mapError .panicked

end Reader
end FrontEnd

/-
# The programs of the host

What stands for the system when the application is tried out: a directory with some files, and
among the programs that can be found a shell and the usual utilities.  Nothing in the application
depends on it, which runs programs of any system (`FrontEnd.Programs`).
-/
import FrontEnd.Host.Shell.Evaluation

namespace FrontEnd.Host

open Shell (Action Jump Stream World)
open Text (Octets octets)

/-! ## Why a program cannot be started -/

/-- The null character stands in the name or in an argument. -/
def nullCharacter : StartError := ⟨"InvalidInput", "nul byte found in provided data"⟩

def notFound : StartError := ⟨"NotFound", "No such file or directory (os error 2)"⟩

def permissionDenied : StartError := ⟨"PermissionDenied", "Permission denied (os error 13)"⟩

def notADirectory : StartError := ⟨"NotADirectory", "Not a directory (os error 20)"⟩

def nameTooLong : StartError := ⟨"InvalidFilename", "File name too long (os error 36)"⟩

def argumentsTooLong : StartError := ⟨"ArgumentListTooLong", "Argument list too long (os error 7)"⟩

/-! ## Finding programs -/

/-- The longest argument. -/
def longestArgument : Nat := 131071

/-- The length of the longest name in a path. -/
def widestName (path : Octets) : Nat :=
  ((path.splitBy fun a b => a != '/' && b != '/').map List.length).foldl max 0

/-- What a path with a slash in it leads to. -/
def findPath (files : FileTable) (path : Octets) : Except StartError String :=
  let world : World := { files }
  if FileTable.longestName < widestName path || FileTable.longestPath < path.length then
    .error nameTooLong
  else if World.isExecutable path then
    .ok (String.ofList (path.reverse.takeWhile (· != '/')).reverse)
  else match world.lookup path with
    | .ok _ => .error permissionDenied
    | .error .notADirectory => .error notADirectory
    | .error _ => .error notFound

/-- Finds a program by its path, or by its name among the programs that can be found.  The
names of the current directory and the one above it name no program. -/
def find (files : FileTable) (program : Octets) : Except StartError String :=
  if program.contains '/' then findPath files program
  else if program = ['.'] ∨ program = ['.', '.'] then .error permissionDenied
  else if FileTable.longestName < program.length then .error nameTooLong
  else
    let name := String.ofList program
    if name ∈ Shell.programs then .ok name else .error notFound

/-- The variables that a program finds. -/
def environment : List (Octets × Shell.Variable) :=
  [("HOME", "/root"), ("PATH", "/usr/local/sbin:/usr/local/bin:/usr/sbin:/usr/bin:/sbin:/bin")].map
    fun (name, value) => (octets name, { value := some (octets value), isExported := true })

/-! ## Running them -/

/-- Runs a program that was found.  Answers with how it ended and with what it wrote. -/
def execute (files : FileTable) (program : String) (name : Octets) (arguments : List Octets) :
    ExitStatus × Octets × Octets :=
  let start : Shell.Process :=
    { bindings := environment
      descriptors := [(0, 0), (1, 1), (2, 2)]
      world :=
        { streams := [(0, .source []), (1, .sink []), (2, .sink [])], nextStream := 3, files } }
  let body : Action Nat :=
    match utility? program with
    | some utility => utility name arguments
    | none => do
      let run := Shell.run Shell.depthBound
      let status ← Shell.startShell run name arguments
      Shell.runJobs run Shell.jobBound
      return status
  let (result, last) := body.run.run start
  let status : ExitStatus := match result with
    | .ok status => .exited status
    | .error (.killed n) => .killed n
    | .error (.ended status) => .exited status
    | .error _ => .exited 2
  (status, last.world.written 1, last.world.written 2)

/-- The system, in a directory with some files. -/
def programs (files : FileTable) : Programs where
  run program arguments :=
    let name := octets program
    let words := arguments.map octets
    if (name :: words).any (·.contains '\x00') then .error nullCharacter
    else match find files name with
      | .error e => .error e
      | .ok found =>
        if words.any fun w => longestArgument < w.length then .error argumentsTooLong
        else
          let (status, stdout, stderr) := execute files found name words
          .ok ⟨status, Text.decode stdout, Text.decode stderr⟩

end FrontEnd.Host

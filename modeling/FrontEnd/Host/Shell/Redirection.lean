/-
# Redirections

A redirection lets a descriptor name another stream.  `withRedirections` carries something out
under redirections and takes them back; `redirectAll` leaves them in place.
-/
import FrontEnd.Host.Shell.Expansion

namespace FrontEnd.Shell

open Text (Octets octets)

/-- The streams that paths stand for by themselves: the null device, and what the descriptors
of the shell name. -/
inductive Device where
  | null
  | descriptor (number : Nat)
  deriving DecidableEq, Repr

def device? (path : Octets) : Option Device :=
  match String.ofList path with
  | "/dev/null" => some .null
  | "/dev/stdin" | "/dev/fd/0" => some (.descriptor 0)
  | "/dev/stdout" | "/dev/fd/1" => some (.descriptor 1)
  | "/dev/stderr" | "/dev/fd/2" => some (.descriptor 2)
  | _ => none

/-- How a redirection ends: with a stream, with none, or with a complaint. -/
inductive Opened where
  | stream (number : Nat)
  /-- The descriptor is closed. -/
  | closed
  | refused
  deriving DecidableEq, Repr

/-- Complains about a redirection. -/
def refuse (message : String) (path : Octets) (reason : String) : Action Opened := do
  Action.warn (octets (message ++ " ") ++ path ++ octets (": " ++ reason))
  return .refused

/-- The stream of a descriptor. -/
def duplicateOf (descriptor : Nat) : Action Opened := do
  match ← Action.stream? descriptor with
  | some number => return .stream number
  | none =>
    Action.warn (octets (toString descriptor ++ ": Bad file descriptor"))
    return .refused

def openDevice : Device → Action Opened
  | .null => return .stream (← Action.openStream .null)
  | .descriptor number => duplicateOf number

/-- Opens a file that is there. -/
def openToRead (path : Octets) : Action Opened := do
  match device? path with
  | some device => openDevice device
  | none =>
    let s ← get
    let place := s.resolve path
    match s.world.lookup place with
    | .ok .directory => return .stream (← Action.openStream .directory)
    | .ok (.file _) => return .stream (← Action.openStream (.file place 0 false))
    | .error _ => refuse "cannot open" path "No such file"

/-- The directory that a path names a file in; slashes at its end do not count. -/
def parent (path : Octets) : Octets :=
  let reversed := path.reverse.dropWhile (· == '/')
  let directory := (reversed.dropWhile (· != '/')).reverse
  if directory.isEmpty then ['.'] else directory

/-- What becomes of a file that is opened to be written and is there already. -/
inductive Filling where
  /-- What it holds is dropped, unless an option protects it. -/
  | guarded
  | dropped
  | kept
  /-- It is kept, and all that is written goes to its end. -/
  | appended
  deriving DecidableEq, Repr

/-- Opens a file that may have to be made. -/
def openToWrite (path : Octets) (filling : Filling) : Action Opened := do
  match device? path with
  | some device => openDevice device
  | none =>
    let s ← get
    let place := s.resolve path
    match s.world.lookup place with
    | .ok .directory => refuse "cannot create" path "Is a directory"
    | .ok (.file _) =>
      if s.hasOption "noclobber" && filling = .guarded then
        refuse "cannot create" path "File exists"
      else
        if filling = .guarded || filling = .dropped then
          set { s with world := s.world.store place [] }
        return .stream (← Action.openStream (.file place 0 (filling = .appended)))
    | .error _ =>
      match path.isEmpty, s.world.lookup (parent place) with
      | false, .ok .directory =>
        if path.getLast? = some '/' then refuse "cannot create" path "Is a directory"
        else
          set { s with world := s.world.store place [] }
          return .stream (← Action.openStream (.file place 0 (filling = .appended)))
      | _, _ => refuse "cannot create" path "Directory nonexistent"

/-- What a redirection leads to when its operand has been expanded. -/
inductive Goal where
  | input (path : Octets)
  | output (path : Octets) (filling : Filling)
  | descriptor (number : Nat)
  /-- The descriptor is closed. -/
  | nothing
  | document (index : Nat)
  deriving DecidableEq, Repr

/-- Expands the operand of a redirection. -/
def Target.expand (substitute : Command → Action Octets) : Target → Action Goal
  | .read path => do return .input (← expandText substitute path)
  | .write path => do return .output (← expandText substitute path) .guarded
  | .overwrite path => do return .output (← expandText substitute path) .dropped
  | .append path => do return .output (← expandText substitute path) .appended
  | .readWrite path => do return .output (← expandText substitute path) .kept
  | .duplicate word => do
    match ← expandText substitute word with
    | ['-'] => return .nothing
    | [d] =>
      if d.isDigit then return .descriptor (d.toNat - '0'.toNat)
      else Action.fail (octets "Syntax error: Bad fd number")
    | _ => Action.fail (octets "Syntax error: Bad fd number")
  | .document index => return .document index

/-- Expands the operands of redirections, which is done before the first is carried out. -/
def expandRedirections (substitute : Command → Action Octets) (redirections : List Redirection) :
    Action (List (Nat × Goal)) :=
  redirections.mapM fun ⟨descriptor, target⟩ => do return (descriptor, ← target.expand substitute)

/-- Opens what a redirection leads to.  A text that cannot be expanded is refused. -/
def Goal.reach (substitute : Command → Action Octets) : Goal → Action Opened
  | .input path => openToRead path
  | .output path filling => openToWrite path filling
  | .descriptor number => duplicateOf number
  | .nothing => return .closed
  | .document index => do
    match (← get).documents.lookup index with
    | some word =>
      match ← attempt (wordFragments substitute { splits := false } word) with
      | some fragments => return .stream (← Action.openStream (.source (plainFragments fragments)))
      | none => return .refused
    | none => return .stream (← Action.openStream (.source []))

/-- Carries out redirections up to the first that is refused.  Answers with what the
descriptors named before, the last one first, and whether none was refused. -/
def redirectAll (substitute : Command → Action Octets) (done : List (Nat × Option Nat)) :
    List (Nat × Goal) → Action (List (Nat × Option Nat) × Bool)
  | [] => return (done, true)
  | (descriptor, goal) :: rest => do
    let opened ← goal.reach substitute
    let before ← Action.stream? descriptor
    match opened with
    | .refused => return (done, false)
    | .stream number =>
      Action.redirect descriptor (some number)
      redirectAll substitute ((descriptor, before) :: done) rest
    | .closed =>
      Action.redirect descriptor none
      redirectAll substitute ((descriptor, before) :: done) rest

/-- Takes redirections back.  A stream that no descriptor names any more is closed. -/
def restore : List (Nat × Option Nat) → Action Unit
  | [] => return
  | (descriptor, before) :: rest => do
    let current ← Action.stream? descriptor
    Action.redirect descriptor before
    restore rest
    match current with
    | some number =>
      unless (← get).descriptors.any fun (_, n) => n == number do Action.closeStream number
    | none => return

/-- Carries something out under redirections; the status is 2 if one of them is refused. -/
def withRedirections (substitute : Command → Action Octets) (goals : List (Nat × Goal))
    (body : Action Nat) : Action Nat := do
  let (done, isComplete) ← redirectAll substitute [] goals
  if isComplete then body.finally (restore done)
  else
    restore done
    return 2

end FrontEnd.Shell
